import Wasm.Bytes

/-!
# Hexadecimal text

Lower-case hexadecimal, as it appears in messages and listings: plain
digits, the two digits of a byte, and the digits of a byte string.
-/

namespace Wasm.Text

/-- The lower-case hexadecimal digits of a number, without leading zeros. -/
def hexDigits (n : Nat) : List Char := Nat.toDigits 16 n

/-- A number as `0x1c`. -/
def hexNat (n : Nat) : String := String.ofList ('0' :: 'x' :: hexDigits n)

/-- The two hexadecimal digits of a byte. -/
def byteDigits (b : UInt8) : List Char :=
  [Nat.digitChar (b.toNat / 16), Nat.digitChar (b.toNat % 16)]

/-- A byte as `0x0c`: always two digits. -/
def hexByte (b : UInt8) : String := String.ofList ('0' :: 'x' :: byteDigits b)

/-- The digits of a byte string, two for each byte. -/
def hexBytes (bs : Bytes) : String := String.ofList (bs.flatMap byteDigits)

/-! ## Reading -/

/-- The value of a hexadecimal digit, in either case. -/
def digitValue? (c : Char) : Option Nat :=
  if '0' ≤ c ∧ c ≤ '9' then some (c.toNat - '0'.toNat)
  else if 'a' ≤ c ∧ c ≤ 'f' then some (c.toNat - 'a'.toNat + 10)
  else if 'A' ≤ c ∧ c ≤ 'F' then some (c.toNat - 'A'.toNat + 10)
  else none

/-- The number that hexadecimal digits denote. -/
def parseHexNat? (s : String) : Option Nat :=
  s.toList.foldlM (fun n c => (digitValue? c).map (16 * n + ·)) 0

/-- The bytes that pairs of digits denote. -/
def bytesOfDigits? : List Char → Option Bytes
  | [] => some []
  | [_] => none
  | high :: low :: rest => do
    let b := 16 * (← digitValue? high) + (← digitValue? low)
    return UInt8.ofNat b :: (← bytesOfDigits? rest)

/-- The byte string that a text of hexadecimal digits denotes. -/
def parseHex? (s : String) : Option Bytes := bytesOfDigits? s.toList

end Wasm.Text
