/-!
# Floating-point values as bit patterns

Constants keep their bits, NaN payloads and signs included, so a float is
its encoding. Two floats can be compared in two ways: as patterns, which is
equality, or as numbers by `sameValue`, where a NaN differs from
everything, itself included, and the two zeros agree.
-/

namespace Wasm

/-- A 32-bit float. -/
structure Binary32 where
  bits : UInt32
deriving DecidableEq, Inhabited, Repr

/-- A 64-bit float. -/
structure Binary64 where
  bits : UInt64
deriving DecidableEq, Inhabited, Repr

namespace Ieee

/-- The magnitude bits of a pattern: everything but the sign. -/
def magnitude (width bits : Nat) : Nat := bits % (1 <<< (width - 1))

/-- A pattern is a NaN when its magnitude lies above that of infinity, the
pattern with all exponent bits and no significand bit set. -/
def isNaN (width fractionBits bits : Nat) : Bool :=
  (1 <<< (width - 1)) - (1 <<< fractionBits) < magnitude width bits

/-- Numeric equality of two patterns of one format. -/
def sameValue (width fractionBits a b : Nat) : Bool :=
  !isNaN width fractionBits a && !isNaN width fractionBits b &&
    (a == b || (magnitude width a == 0 && magnitude width b == 0))

end Ieee

/-- Numeric equality of 32-bit floats. -/
def Binary32.sameValue (a b : Binary32) : Bool :=
  Ieee.sameValue 32 23 a.bits.toNat b.bits.toNat

/-- Numeric equality of 64-bit floats. -/
def Binary64.sameValue (a b : Binary64) : Bool :=
  Ieee.sameValue 64 52 a.bits.toNat b.bits.toNat

end Wasm
