import Wasm.Ieee
import Wasm.Text.Hex

/-!
# Hexadecimal floating-point text

A float constant is printed exactly, as `0x1.8p+3`: a leading one, the
significand in hexadecimal without trailing zeros, and the power of two.
Subnormal numbers are normalised first, so every finite nonzero number has a
leading one. A NaN shows its payload unless the payload is only the quiet
bit.
-/

namespace Wasm.Text

/-- The dimensions of a binary float format. -/
structure FloatFormat where
  exponentBits : Nat
  fractionBits : Nat
deriving DecidableEq, Repr

namespace FloatFormat

def binary32 : FloatFormat := ⟨8, 23⟩

def binary64 : FloatFormat := ⟨11, 52⟩

/-- The exponent of one is stored as this number. -/
def bias (f : FloatFormat) : Nat := (1 <<< (f.exponentBits - 1)) - 1

/-- Digits after the point: four bits to a digit, the last one padded with
zero bits on the right. -/
def fractionDigits (f : FloatFormat) : Nat := (f.fractionBits + 3) / 4

end FloatFormat

/-- Drops zeros at the end. -/
def dropTrailingZeros (digits : List Char) : List Char :=
  (digits.reverse.dropWhile (· == '0')).reverse

/-- `digits` with zeros in front, up to `width` of them in all. -/
def padZeros (width : Nat) (digits : List Char) : List Char :=
  List.replicate (width - digits.length) '0' ++ digits

/-- The exponent with its sign, which is always written. -/
def signedExponent (e : Int) : String :=
  if e < 0 then toString e else "+" ++ toString e

/-- A normalised number `1.fraction * 2 ^ exponent`, the fraction given as
`fractionBits` bits. -/
def hexNormal (f : FloatFormat) (fraction : Nat) (exponent : Int) : String :=
  let aligned := fraction <<< (4 * f.fractionDigits - f.fractionBits)
  let digits := dropTrailingZeros (padZeros f.fractionDigits (hexDigits aligned))
  let point := if digits.isEmpty then "" else "."
  "0x1" ++ point ++ String.ofList digits ++ "p" ++ signedExponent exponent

/-- The text of a magnitude, without its sign. -/
def hexMagnitude (f : FloatFormat) (exponent fraction : Nat) : String :=
  if exponent = (1 <<< f.exponentBits) - 1 then
    if fraction = 0 then "inf"
    else if fraction = 1 <<< (f.fractionBits - 1) then "nan"
    else "nan:" ++ hexNat fraction
  else if exponent = 0 then
    if fraction = 0 then "0x0p+0"
    else
      let top := fraction.log2
      hexNormal f ((fraction - (1 <<< top)) <<< (f.fractionBits - top))
        ((top : Int) + 1 - f.bias - f.fractionBits)
  else hexNormal f fraction ((exponent : Int) - f.bias)

/-- The text of a float given by its bits. -/
def hexFloat (f : FloatFormat) (bits : Nat) : String :=
  let fraction := bits % (1 <<< f.fractionBits)
  let exponent := (bits >>> f.fractionBits) % (1 <<< f.exponentBits)
  let sign := if (bits >>> (f.fractionBits + f.exponentBits)) % 2 = 1 then "-" else ""
  sign ++ hexMagnitude f exponent fraction

end Wasm.Text

namespace Wasm

/-- The exact text of a 32-bit float. -/
def Binary32.text (x : Binary32) : String :=
  Text.hexFloat .binary32 x.bits.toNat

/-- The exact text of a 64-bit float. -/
def Binary64.text (x : Binary64) : String :=
  Text.hexFloat .binary64 x.bits.toNat

end Wasm
