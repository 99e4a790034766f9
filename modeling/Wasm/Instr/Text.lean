import Wasm.Instr
import Wasm.Text.Hex
import Wasm.Text.HexFloat

/-!
# The text of an instruction

An instruction is listed by its mnemonic followed by its immediate. The text
of a structured instruction shows its type and not its bodies.
-/

namespace Wasm

/-- The type of a structured instruction, with a space in front. -/
def BlockType.text : BlockType → String
  | .empty => ""
  | .value type => " " ++ type.text
  | .funcType index => " type[" ++ toString index.toNat ++ "]"

/-- Each item with a space in front. -/
def spaced (items : List String) : String :=
  String.join (items.map (" " ++ ·))

/-- A memory operand: the offset where there is one, and the alignment in
bytes. -/
def MemArg.text (arg : MemArg) : String :=
  (if arg.offset = 0 then "" else " offset=" ++ toString arg.offset.toNat) ++
    " align=" ++ toString (1 <<< min arg.align.toNat 63)

/-- A reference type as the operand of `ref.null`. -/
def ValType.heapText : ValType → String
  | .funcRef => "func"
  | .externRef => "extern"
  | other => other.text

/-- An immediate, with a space before each part. -/
def Immediate.text : Immediate → String
  | .none | .reserved => ""
  | .i32 value => " " ++ toString value.toInt
  | .i64 value => " " ++ toString value.toInt
  | .f32 value => " " ++ value.text
  | .f64 value => " " ++ value.text
  | .v128 bytes => " 0x" ++ Text.hexBytes bytes.toList
  | .index i => " " ++ toString i.toNat
  | .indexPair first second => spaced [toString first.toNat, toString second.toNat]
  | .memArg arg => arg.text
  | .lane l => " " ++ toString l.toNat
  | .shuffle lanes => spaced (lanes.toList.map fun lane => toString lane.toNat)
  | .brTable labels fallback =>
      spaced ((labels ++ [fallback]).map fun label => toString label.toNat)
  | .callIndirect typeIndex tableIndex =>
      " " ++ toString tableIndex.toNat ++ " (type " ++ toString typeIndex.toNat ++ ")"
  | .valTypes types => spaced (types.map ValType.text)
  | .refType type => " " ++ type.heapText
  | .block type _ | .ifThen type _ | .ifElse type _ _ => type.text

/-- A mnemonic with its immediate. -/
def Instr.text (instr : Instr) : String :=
  instr.name ++ instr.immediate.text

end Wasm
