import Wasm.Binary.Decoder

/-!
# Variable-length integers

An integer is written in groups of seven bits, least significant first, and
every byte but the last has its top bit set. Writers use as few groups as
they can. Readers accept longer spellings up to the number of groups that the
width needs, and require that the unused bits of the last of these groups
repeat the sign, or are zero for an unsigned integer.
-/

namespace Wasm.Leb128

/-! ## Writing -/

/-- The shortest spelling of a natural number. -/
def unsigned (n : Nat) : Bytes :=
  if n < 128 then [UInt8.ofNat n]
  else UInt8.ofNat (n % 128 + 128) :: unsigned (n / 128)
termination_by n

/-- The shortest spelling of an integer: the last group carries the sign in
its highest bit. -/
def signed (n : Int) : Bytes :=
  if -64 ≤ n ∧ n < 64 then [UInt8.ofNat (n % 128).toNat]
  else UInt8.ofNat ((n % 128).toNat + 128) :: signed (n / 128)
termination_by n.natAbs
decreasing_by omega

/-! ## Reading -/

/-- The number of groups for a width in bits. -/
def groupCount (width : Nat) : Nat := (width + 6) / 7

/-- Reads up to `groups` groups of an unsigned integer of which `width` bits
are still free. Faults are reported at `start`. -/
def unsignedGroups (start : Nat) : (groups width : Nat) → Decoder Nat
  | 0, _ => Decoder.failAt start .integerTooLong
  | groups + 1, width => do
    let b ← Decoder.byte
    let low := b.toNat % 128
    if width < 7 ∧ 1 <<< width ≤ low then Decoder.failAt start .integerTooLarge
    else if b.toNat < 128 then return low
    else
      let high ← unsignedGroups start groups (width - 7)
      return low + 128 * high

/-- Whether the bits of a group from the sign bit of a `width`-bit integer
upwards are all equal. -/
def signExtended (width low : Nat) : Bool :=
  let high := low >>> (width - 1)
  high == 0 || high == (1 <<< (8 - width)) - 1

/-- Reads up to `groups` groups of a signed integer of which `width` bits are
still free. Faults are reported at `start`. -/
def signedGroups (start : Nat) : (groups width : Nat) → Decoder Int
  | 0, _ => Decoder.failAt start .integerTooLong
  | groups + 1, width => do
    let b ← Decoder.byte
    let low := b.toNat % 128
    if width < 7 ∧ signExtended width low = false then Decoder.failAt start .integerTooLarge
    else if b.toNat < 128 then return if low < 64 then (low : Int) else low - 128
    else
      let high ← signedGroups start groups (width - 7)
      return low + 128 * high

/-- An unsigned integer below `2 ^ width`. -/
def readUnsigned (width : Nat) : Decoder Nat := do
  let start ← Decoder.offset
  unsignedGroups start (groupCount width) width

/-- A signed integer of `width` bits in two's complement. -/
def readSigned (width : Nat) : Decoder Int := do
  let start ← Decoder.offset
  signedGroups start (groupCount width) width

end Wasm.Leb128
