/-!
# Byte strings

Byte strings are lists, so that every statement about encodings can use the
list library. This module adds the two operations that the binary format
needs on them: a length test that looks no further than it must, and
fixed-width little-endian numbers.
-/

namespace Wasm

/-- A byte string. -/
abbrev Bytes := List UInt8

namespace Bytes

/-- Whether at least `n` items are present. It walks at most `n` cells, so a
length prefix can be tested without measuring all remaining input. -/
def hasAtLeast {α : Type} : Nat → List α → Bool
  | 0, _ => true
  | _ + 1, [] => false
  | n + 1, _ :: rest => hasAtLeast n rest

@[simp] theorem hasAtLeast_iff {α : Type} (n : Nat) (items : List α) :
    hasAtLeast n items = true ↔ n ≤ items.length := by
  induction items generalizing n with
  | nil => cases n <;> simp [hasAtLeast]
  | cons _ rest ih => cases n <;> simp [hasAtLeast, ih]

/-- The `width` low-order bytes of `value`, least significant first. -/
def littleEndian : (width : Nat) → (value : Nat) → Bytes
  | 0, _ => []
  | width + 1, value => UInt8.ofNat (value % 256) :: littleEndian width (value / 256)

/-- The number that a little-endian byte string denotes. -/
def toNatLE : Bytes → Nat
  | [] => 0
  | b :: rest => b.toNat + 256 * toNatLE rest

@[simp] theorem length_littleEndian (width value : Nat) :
    (littleEndian width value).length = width := by
  induction width generalizing value with
  | zero => rfl
  | succ width ih => simp [littleEndian, ih]

end Bytes

end Wasm
