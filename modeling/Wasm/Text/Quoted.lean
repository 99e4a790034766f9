import Wasm.Text.Hex
import Wasm.Text.Visible

/-!
# Quoted text

Names inside messages stand in double quotes. A quote, a backslash and the
common controls have short escapes; other characters that do not show by
themselves are written by their code point.
-/

namespace Wasm.Text

/-- A character by its code point, as the escape with braces. -/
def codePointEscape (c : Char) : List Char :=
  ['\\', 'u', '\x7b'] ++ hexDigits c.toNat ++ ['\x7d']

/-- How one character appears inside quotes. -/
def quotedChar (c : Char) : List Char :=
  match c with
  | '"' => ['\\', '"']
  | '\\' => ['\\', '\\']
  | '\t' => ['\\', 't']
  | '\n' => ['\\', 'n']
  | '\r' => ['\\', 'r']
  | '\x00' => ['\\', '0']
  | c => if isVisible c then [c] else codePointEscape c

/-- A text in double quotes. -/
def quoted (s : String) : String :=
  String.ofList ('"' :: s.toList.flatMap quotedChar ++ ['"'])

end Wasm.Text
