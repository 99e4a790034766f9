import Wasm.Proofs.Binary.Spelling

/-!
# Variable-length integers are read back

What `Leb128.unsigned` and `Leb128.signed` write for a number is one of its
spellings, in no more groups than a width needs that holds the number. So
every reader of such a width reads it back.
-/

namespace Wasm.Leb128

open Decoder

/-! ## Natural numbers -/

theorem spells_unsigned (n : Nat) : Spells (unsigned n) n := by
  fun_induction unsigned n with
  | case1 n small =>
      have toNat : (UInt8.ofNat n).toNat = n := by
        rw [UInt8.toNat_ofNat']; omega
      have last := Spells.last (b := UInt8.ofNat n) (by omega)
      rwa [toNat] at last
  | case2 n large ih =>
      have toNat : (UInt8.ofNat (n % 128 + 128)).toNat = n % 128 + 128 := by
        rw [UInt8.toNat_ofNat']; omega
      have more := Spells.more (b := UInt8.ofNat (n % 128 + 128)) (by omega) ih
      rwa [toNat, show (n % 128 + 128) % 128 + 128 * (n / 128) = n by omega] at more

/-- A number that needs another group has more than one group's bits. -/
theorem seven_lt_of_lt_pow {width n : Nat} (fits : n < 2 ^ width) (large : 128 ≤ n) :
    7 < width := by
  by_contra h
  have : (2 : Nat) ^ width ≤ 2 ^ 7 := Nat.pow_le_pow_right (by decide) (by omega)
  omega

/-- One group takes seven bits off the number and off the width. -/
theorem length_unsigned_le {groups width n : Nat} (room : width ≤ 7 * groups)
    (fits : n < 2 ^ width) (positive : 0 < width) : (unsigned n).length ≤ groups := by
  induction groups generalizing width n with
  | zero => omega
  | succ groups ih =>
      rw [unsigned]
      by_cases small : n < 128
      · simp [small]
      · have wide := seven_lt_of_lt_pow fits (by omega)
        have split := pow_of_seven_le wide.le
        have tail : (unsigned (n / 128)).length ≤ groups :=
          ih (show width - 7 ≤ 7 * groups by omega) (by omega) (by omega)
        simpa [small] using tail

theorem isUnsigned_unsigned {width n : Nat} (fits : n < 2 ^ width) (positive : 0 < width) :
    IsUnsigned width (unsigned n) n where
  spells := spells_unsigned n
  short := length_unsigned_le (by unfold groupCount; omega) fits positive
  fits := fits

theorem reads_unsigned {width n : Nat} (fits : n < 2 ^ width) (positive : 0 < width) :
    Reads (readUnsigned width) (unsigned n) n :=
  (isUnsigned_unsigned fits positive).reads

/-! ## Signed integers -/

theorem spellsSigned_signed (n : Int) : SpellsSigned (signed n) n := by
  fun_induction signed n with
  | case1 n small =>
      have toNat : (UInt8.ofNat (n % 128).toNat).toNat = (n % 128).toNat := by
        rw [UInt8.toNat_ofNat']; omega
      have last := SpellsSigned.last (b := UInt8.ofNat (n % 128).toNat) (by omega)
      have value : (if (n % 128).toNat < 64 then ((n % 128).toNat : Int)
          else ((n % 128).toNat : Int) - 128) = n := by split <;> omega
      rwa [toNat, value] at last
  | case2 n large ih =>
      have toNat : (UInt8.ofNat ((n % 128).toNat + 128)).toNat = (n % 128).toNat + 128 := by
        rw [UInt8.toNat_ofNat']; omega
      have more := SpellsSigned.more (b := UInt8.ofNat ((n % 128).toNat + 128)) (by omega) ih
      rwa [toNat, show ((((n % 128).toNat + 128) % 128 : Nat) : Int) + 128 * (n / 128) = n by omega]
        at more

/-- A number that needs another group has more than one group's bits. -/
theorem seven_lt_of_signed {width : Nat} {n : Int} (low : -2 ^ (width - 1) ≤ n)
    (high : n < 2 ^ (width - 1)) (large : ¬(-64 ≤ n ∧ n < 64)) : 7 < width := by
  by_contra h
  have : (2 : Int) ^ (width - 1) ≤ 2 ^ 6 := by
    exact_mod_cast Nat.pow_le_pow_right (by decide : 0 < 2) (by omega : width - 1 ≤ 6)
  omega

theorem length_signed_le {groups width : Nat} {n : Int} (room : width ≤ 7 * groups)
    (low : -2 ^ (width - 1) ≤ n) (high : n < 2 ^ (width - 1)) (positive : 0 < width) :
    (signed n).length ≤ groups := by
  induction groups generalizing width n with
  | zero => omega
  | succ groups ih =>
      rw [signed]
      by_cases small : -64 ≤ n ∧ n < 64
      · simp [small]
      · have wide := seven_lt_of_signed low high small
        have split := range_of_seven_lt wide
        have tail : (signed (n / 128)).length ≤ groups :=
          ih (show width - 7 ≤ 7 * groups by omega) (by omega) (by omega) (by omega)
        simpa [small] using tail

theorem isSigned_signed {width : Nat} {n : Int} (low : -2 ^ (width - 1) ≤ n)
    (high : n < 2 ^ (width - 1)) (positive : 0 < width) : IsSigned width (signed n) n where
  spells := spellsSigned_signed n
  short := length_signed_le (by unfold groupCount; omega) low high positive
  low := low
  high := high

theorem reads_signed {width : Nat} {n : Int} (low : -2 ^ (width - 1) ≤ n)
    (high : n < 2 ^ (width - 1)) (positive : 0 < width) :
    Reads (readSigned width) (signed n) n :=
  (isSigned_signed low high positive).reads positive

/-! ## Lengths -/

theorem unsigned_ne_nil (n : Nat) : unsigned n ≠ [] :=
  List.length_pos_iff.mp (spells_unsigned n).length_pos

theorem signed_ne_nil (n : Int) : signed n ≠ [] :=
  List.length_pos_iff.mp (spellsSigned_signed n).length_pos

end Wasm.Leb128
