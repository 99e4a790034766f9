import Mathlib.Algebra.Order.Ring.Int
import Mathlib.Tactic.NormNum
import Wasm.Proofs.Binary.Reads
import Wasm.Proofs.Monads

/-!
# Spellings of an integer

A number has many spellings in groups of seven bits, since groups that repeat
its sign may follow its highest one. The reader takes all of them that are
short enough for its width, and nothing else: what it reads off the front of
its input is a spelling, and any spelling is read whatever follows it.
-/

namespace Wasm.Leb128

open Decoder

/-- `bytes` denote `n` in groups of seven bits, least significant first; every
byte but the last one has its top bit set. -/
inductive Spells : Bytes → Nat → Prop
  | last {b : UInt8} (clear : b.toNat < 128) : Spells [b] b.toNat
  | more {b : UInt8} {rest : Bytes} {high : Nat} (set : 128 ≤ b.toNat)
      (tail : Spells rest high) : Spells (b :: rest) (b.toNat % 128 + 128 * high)

/-- A spelling of a number of `width` bits, in no more groups than the width
needs. -/
structure IsUnsigned (width : Nat) (bytes : Bytes) (n : Nat) : Prop where
  spells : Spells bytes n
  short : bytes.length ≤ groupCount width
  fits : n < 2 ^ width

theorem Spells.length_pos {bytes : Bytes} {n : Nat} (h : Spells bytes n) : 0 < bytes.length := by
  cases h <;> simp

/-- `bytes` denote `n` like that, where the highest bit of the last group is its sign. -/
inductive SpellsSigned : Bytes → Int → Prop
  | last {b : UInt8} (clear : b.toNat < 128) :
      SpellsSigned [b] (if b.toNat < 64 then (b.toNat : Int) else b.toNat - 128)
  | more {b : UInt8} {rest : Bytes} {high : Int} (set : 128 ≤ b.toNat)
      (tail : SpellsSigned rest high) :
      SpellsSigned (b :: rest) ((b.toNat % 128 : Nat) + 128 * high)

/-- A spelling of a number of `width` bits in two's complement. -/
structure IsSigned (width : Nat) (bytes : Bytes) (n : Int) : Prop where
  spells : SpellsSigned bytes n
  short : bytes.length ≤ groupCount width
  low : -2 ^ (width - 1) ≤ n
  high : n < 2 ^ (width - 1)

theorem SpellsSigned.length_pos {bytes : Bytes} {n : Int} (h : SpellsSigned bytes n) :
    0 < bytes.length := by
  cases h <;> simp

/-- A number that is not negative is told by its first byte. -/
theorem SpellsSigned.head {bytes : Bytes} {n : Int} (h : SpellsSigned bytes n) (nonneg : 0 ≤ n) :
    ∃ b tail, bytes = b :: tail ∧ (b.toNat < 64 ∨ 128 ≤ b.toNat) := by
  cases h with
  | @last b clear =>
      refine ⟨b, [], rfl, .inl ?_⟩
      split at nonneg <;> omega
  | @more b rest high set tail => exact ⟨b, rest, rfl, .inr set⟩

/-! ## Every spelling is read -/

/-- One more group takes seven bits off a wide width. -/
theorem pow_of_seven_le {width : Nat} (wide : 7 ≤ width) :
    (2 : Nat) ^ width = 128 * 2 ^ (width - 7) := by
  rw [show (128 : Nat) = 2 ^ 7 from rfl, ← Nat.pow_add]
  congr 1
  omega

/-- The induction is on the spelling. Only the last group of the width can be
narrower than seven bits, so no group behind such a one is read. -/
theorem reads_of_spells (start : Nat) {groups width n : Nat} {bytes : Bytes}
    (spelt : Spells bytes n) (short : bytes.length ≤ groups) (tight : 7 * groups < width + 7)
    (fits : n < 2 ^ width) : Reads (unsignedGroups start groups width) bytes n := by
  induction spelt generalizing groups width with
  | @last b clear =>
      obtain ⟨groups, rfl⟩ : ∃ g, groups = g + 1 := ⟨groups - 1, by simp at short; omega⟩
      rw [unsignedGroups]
      refine Reads.byteBind ?_
      simp only [Nat.mod_eq_of_lt clear, Nat.one_shiftLeft]
      rw [if_neg (by omega), if_pos clear]
      exact Reads.pure b.toNat
  | @more b rest high set tail ih =>
      rw [List.length_cons] at short
      have inner := tail.length_pos
      obtain ⟨groups, rfl⟩ : ∃ g, groups = g + 1 := ⟨groups - 1, by omega⟩
      have wide : 7 ≤ width := by omega
      have split := pow_of_seven_le wide
      rw [unsignedGroups]
      refine Reads.byteBind ?_
      simp only
      rw [if_neg (by omega), if_neg (by omega)]
      exact (ih (by omega) (by omega) (by omega)).bindPure

theorem IsUnsigned.reads {width n : Nat} {bytes : Bytes} (h : IsUnsigned width bytes n) :
    Reads (readUnsigned width) bytes n := by
  refine Reads.atOffset fun start => reads_of_spells start h.spells h.short ?_ h.fits
  unfold groupCount
  omega

/-! ## What is read is a spelling -/

theorem unsignedGroups_eq_ok {start groups width n : Nat} {c c' : Cursor}
    (room : width ≤ 7 * groups) (tight : 7 * groups < width + 7)
    (read : unsignedGroups start groups width c = .ok n c') :
    ∃ bytes, c.rest = bytes ++ c'.rest ∧ Spells bytes n ∧ bytes.length ≤ groups ∧
      n < 2 ^ width := by
  induction groups generalizing width n c with
  | zero => cases read
  | succ groups ih =>
      rw [unsignedGroups] at read
      obtain ⟨b, c₁, first, read⟩ := EStateM.bind_eq_ok.mp read
      have head := byte_eq_ok first
      split at read
      · cases read
      · rename_i inRange
        rw [Nat.one_shiftLeft] at inRange
        split at read
        · rename_i clear
          cases read
          refine ⟨[b], head.1, ?_, by simp, ?_⟩
          · rw [Nat.mod_eq_of_lt clear]
            exact .last clear
          · by_cases wide : 7 ≤ width
            · have := pow_of_seven_le wide
              have := Nat.two_pow_pos (width - 7)
              omega
            · omega
        · rename_i set
          obtain ⟨high, c₂, more, done⟩ := EStateM.bind_eq_ok.mp read
          cases done
          by_cases wide : 7 ≤ width
          · obtain ⟨rest, tail, spelt, short, fits⟩ := ih (by omega) (by omega) more
            have := pow_of_seven_le wide
            refine ⟨b :: rest, ?_, .more (Nat.not_lt.mp set) spelt, ?_, by omega⟩
            · rw [head.1, tail, List.cons_append]
            · rw [List.length_cons]
              omega
          · -- A narrow group is the last one.
            obtain rfl : groups = 0 := by omega
            cases more

/-- What the reader takes off the front of its input is a spelling of what it
returns. -/
theorem isUnsigned_of_readUnsigned {width n : Nat} {c c' : Cursor}
    (read : readUnsigned width c = .ok n c') :
    ∃ bytes, c.rest = bytes ++ c'.rest ∧ IsUnsigned width bytes n := by
  rw [readUnsigned, offset_bind] at read
  obtain ⟨bytes, split, spelt, short, fits⟩ := unsignedGroups_eq_ok
    (by unfold groupCount; omega) (by unfold groupCount; omega) read
  exact ⟨bytes, split, spelt, short, fits⟩

/-! ## Signed integers -/

/-- One more group takes seven bits off the range. -/
theorem range_of_seven_lt {width : Nat} (wide : 7 < width) :
    (2 : Int) ^ (width - 1) = 128 * 2 ^ (width - 7 - 1) := by
  rw [show (128 : Int) = 2 ^ 7 from rfl, ← pow_add]
  congr 1
  omega

/-- The bits of a last group from the sign upwards are equal when the width
holds what the group denotes. -/
theorem signExtended_iff {width low : Nat} (narrow : width < 7) (positive : 0 < width)
    (small : low < 128) : signExtended width low = true ↔
      -2 ^ (width - 1) ≤ (if low < 64 then (low : Int) else low - 128) ∧
        (if low < 64 then (low : Int) else low - 128) < 2 ^ (width - 1) := by
  have cases : width = 1 ∨ width = 2 ∨ width = 3 ∨ width = 4 ∨ width = 5 ∨ width = 6 := by omega
  rcases cases with rfl | rfl | rfl | rfl | rfl | rfl <;>
    simp only [signExtended, Bool.or_eq_true, beq_iff_eq, Nat.shiftRight_eq_div_pow,
      Nat.one_shiftLeft] <;> norm_num <;> split <;> omega

/-- The induction is on the spelling. The bits above the sign are looked at in
the last group of a narrow width only, where they are equal in any number of
that width. -/
theorem reads_of_spellsSigned (start : Nat) {groups width : Nat} {n : Int} {bytes : Bytes}
    (spelt : SpellsSigned bytes n) (short : bytes.length ≤ groups) (tight : 7 * groups < width + 7)
    (positive : 0 < width) (low : -2 ^ (width - 1) ≤ n) (high : n < 2 ^ (width - 1)) :
    Reads (signedGroups start groups width) bytes n := by
  induction spelt generalizing groups width with
  | @last b clear =>
      obtain ⟨groups, rfl⟩ : ∃ g, groups = g + 1 := ⟨groups - 1, by simp at short; omega⟩
      rw [signedGroups]
      refine Reads.byteBind ?_
      simp only [Nat.mod_eq_of_lt clear]
      rw [if_neg, if_pos clear]
      · exact Reads.pure _
      · rintro ⟨narrow, bad⟩
        rw [(signExtended_iff narrow positive clear).mpr ⟨low, high⟩] at bad
        cases bad
  | @more b rest next set tail ih =>
      rw [List.length_cons] at short
      have inner := tail.length_pos
      obtain ⟨groups, rfl⟩ : ∃ g, groups = g + 1 := ⟨groups - 1, by omega⟩
      have split := range_of_seven_lt (show 7 < width by omega)
      rw [signedGroups]
      refine Reads.byteBind ?_
      simp only
      rw [if_neg (by omega), if_neg (by omega)]
      exact (ih (by omega) (by omega) (by omega) (by omega) (by omega)).bindPure

theorem IsSigned.reads {width : Nat} {n : Int} {bytes : Bytes} (h : IsSigned width bytes n)
    (positive : 0 < width) : Reads (readSigned width) bytes n := by
  refine Reads.atOffset fun start =>
    reads_of_spellsSigned start h.spells h.short ?_ positive h.low h.high
  unfold groupCount
  omega

theorem signedGroups_eq_ok {start groups width : Nat} {n : Int} {c c' : Cursor}
    (room : width ≤ 7 * groups) (tight : 7 * groups < width + 7) (positive : 0 < width)
    (read : signedGroups start groups width c = .ok n c') :
    ∃ bytes, c.rest = bytes ++ c'.rest ∧ SpellsSigned bytes n ∧ bytes.length ≤ groups ∧
      -2 ^ (width - 1) ≤ n ∧ n < 2 ^ (width - 1) := by
  induction groups generalizing width n c with
  | zero => cases read
  | succ groups ih =>
      rw [signedGroups] at read
      obtain ⟨b, c₁, first, read⟩ := EStateM.bind_eq_ok.mp read
      have head := byte_eq_ok first
      split at read
      · cases read
      · rename_i inRange
        split at read
        · rename_i clear
          cases read
          rw [Nat.mod_eq_of_lt clear] at inRange ⊢
          refine ⟨[b], head.1, .last clear, by simp, ?_⟩
          by_cases narrow : width < 7
          · refine (signExtended_iff narrow positive clear).mp ?_
            by_contra bad
            exact inRange ⟨narrow, Bool.eq_false_iff.mpr bad⟩
          · have wide : (2 : Int) ^ 6 ≤ 2 ^ (width - 1) := by
              exact_mod_cast Nat.pow_le_pow_right (by decide : 0 < 2) (by omega : 6 ≤ width - 1)
            split <;> omega
        · rename_i set
          obtain ⟨high, c₂, more, done⟩ := EStateM.bind_eq_ok.mp read
          cases done
          by_cases wide : 7 < width
          · obtain ⟨rest, tail, spelt, short, low, fits⟩ :=
              ih (by omega) (by omega) (by omega) more
            have := range_of_seven_lt wide
            refine ⟨b :: rest, ?_, .more (Nat.not_lt.mp set) spelt, ?_, by omega, by omega⟩
            · rw [head.1, tail, List.cons_append]
            · rw [List.length_cons]
              omega
          · obtain rfl : groups = 0 := by omega
            cases more

/-- What the reader takes off the front of its input is a spelling of what it
returns. -/
theorem isSigned_of_readSigned {width : Nat} {n : Int} {c c' : Cursor} (positive : 0 < width)
    (read : readSigned width c = .ok n c') :
    ∃ bytes, c.rest = bytes ++ c'.rest ∧ IsSigned width bytes n := by
  rw [readSigned, offset_bind] at read
  obtain ⟨bytes, split, spelt, short, low, high⟩ := signedGroups_eq_ok
    (by unfold groupCount; omega) (by unfold groupCount; omega) positive read
  exact ⟨bytes, split, spelt, short, low, high⟩

end Wasm.Leb128
