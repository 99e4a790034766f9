import Mathlib.Data.Nat.Bitwise
import Wasm.Proofs.Binary.Groups

/-!
# Signed integers, read or refused

A reader of signed integers meets a spelling of a number of its width in two's
complement, or one of three faults. They are those of integers without a sign
but for the last group that the width admits: there the sign and all bits above
it must be equal.
-/

namespace Wasm

open Decoder

namespace Leb128

/-- Two of the seven low bits of `b` differ that stand, behind `before` groups,
at the place of the sign or above it. -/
def Uneven (width before : Nat) (b : UInt8) : Prop :=
  ∃ i < 7, ∃ j < 7, b.toNat.testBit i ≠ b.toNat.testBit j ∧
    width ≤ 7 * before + i + 1 ∧ width ≤ 7 * before + j + 1

/-- Why no integer of `width` bits in two's complement is spelt at the front of
`bytes`. -/
def UnspeltSigned (width : Nat) : Bytes → DecodeFault → Prop :=
  Refused (Uneven width) (groupCount width)

/-! ## The last group -/

/-- The bits of `low` from the sign of a `width`-bit integer on are those of `high`. -/
theorem shiftRight_eq_iff {width low high : Nat} :
    low >>> width = high ↔ ∀ i, width ≤ i → low.testBit i = high.testBit (i - width) := by
  constructor
  · rintro rfl i above
    rw [Nat.testBit_shiftRight, Nat.add_sub_cancel' above]
  · intro bits
    refine Nat.eq_of_testBit_eq fun i => ?_
    rw [Nat.testBit_shiftRight, bits _ (Nat.le_add_right width i), Nat.add_sub_cancel_left]

/-- The reader compares all bits from the sign on at once. -/
theorem signExtended_iff_even {width low : Nat} (positive : 0 < width) (narrow : width < 7)
    (small : low < 128) : signExtended width low = true ↔
      ∃ sign, ∀ i < 7, width ≤ i + 1 → low.testBit i = sign := by
  have beyond : ∀ i, 7 ≤ i → low.testBit i = false := fun i outside =>
    Nat.testBit_lt_two_pow (Nat.lt_of_lt_of_le small (Nat.pow_le_pow_right Nat.two_pos outside))
  rw [signExtended, Bool.or_eq_true, beq_iff_eq, beq_iff_eq, shiftRight_eq_iff, shiftRight_eq_iff,
    Nat.one_shiftLeft]
  simp only [Nat.zero_testBit, Nat.testBit_two_pow_sub_one]
  constructor
  · rintro (clear | set)
    · exact ⟨false, fun i _ above => clear i (by omega)⟩
    · refine ⟨true, fun i inside above => ?_⟩
      rw [set i (by omega), decide_eq_true_eq]
      omega
  · rintro ⟨sign, even⟩
    cases sign with
    | false =>
        refine .inl fun i above => ?_
        by_cases inside : i < 7
        · exact even i inside (by omega)
        · exact beyond i (Nat.not_lt.mp inside)
    | true =>
        refine .inr fun i above => ?_
        by_cases inside : i < 7
        · rw [even i inside (by omega), eq_comm, decide_eq_true_eq]
          omega
        · rw [beyond i (Nat.not_lt.mp inside), eq_comm, decide_eq_false_iff_not]
          omega

/-- Inside the width, bits differ from the sign on where the reader finds that they do. -/
theorem uneven_iff {width before : Nat} {b : UInt8} (inside : 7 * before < width) :
    Uneven width before b ↔ width - 7 * before < 7 ∧
      signExtended (width - 7 * before) (b.toNat % 128) = false := by
  have bits : ∀ i < 7, (b.toNat % 128).testBit i = b.toNat.testBit i := fun i low => by
    rw [show 128 = 2 ^ 7 from rfl, Nat.testBit_mod_two_pow, decide_eq_true low, Bool.true_and]
  constructor
  · rintro ⟨i, low, j, low', differ, above, above'⟩
    have narrow : width - 7 * before < 7 := by
      -- With more bits than that only the last one could be the sign.
      by_contra wide
      obtain rfl : i = j := by omega
      exact differ rfl
    refine ⟨narrow, Bool.eq_false_iff.mpr fun extended => ?_⟩
    obtain ⟨sign, even⟩ :=
      (signExtended_iff_even (by omega) narrow (Nat.mod_lt _ (by decide))).mp extended
    rw [← bits i low, ← bits j low', even i low (by omega), even j low' (by omega)] at differ
    exact differ rfl
  · rintro ⟨narrow, uneven⟩
    by_contra even
    refine Bool.eq_false_iff.mp uneven
      ((signExtended_iff_even (by omega) narrow (Nat.mod_lt _ (by decide))).mpr
        ⟨b.toNat.testBit 6, fun i low above => ?_⟩)
    rw [bits i low]
    by_contra differ
    exact even ⟨i, low, 6, by decide, differ, by omega, by omega⟩

/-! ## Failing is being unspelt -/

/-- What a last group denotes: its highest bit is the sign. -/
def signedLow (b : UInt8) : Int :=
  if b.toNat % 128 < 64 then (b.toNat % 128 : Nat) else (b.toNat % 128 : Nat) - 128

theorem signedGroups_eq (start groups width : Nat) : signedGroups start groups width =
    readGroups (fun width b => width < 7 && !signExtended width (b.toNat % 128)) signedLow
      (fun b high => (b.toNat % 128 : Nat) + 128 * high) start groups width := by
  induction groups generalizing width with
  | zero => rfl
  | succ groups ih =>
      rw [signedGroups, readGroups, ih]
      simp only [Bool.and_eq_true, decide_eq_true_eq, Bool.not_eq_true', signedLow]

theorem readSigned_eq_error_iff {width : Nat} {c : Cursor} {e : DecodeError}
    (positive : 0 < width) : (∃ c', readSigned width c = .error e c') ↔
      ∃ fault, UnspeltSigned width c.rest fault ∧
        e = ⟨faultOffset c.offset c.endOffset fault, c.sectionId, fault⟩ := by
  obtain ⟨groups, number, room⟩ := exists_groupCount positive
  rw [readSigned, offset_bind, signedGroups_eq, UnspeltSigned, number]
  refine (readGroups_eq_error_iff _ _ ?_ room).trans ?_
  · intro width b strays
    simp only [Bool.and_eq_true, decide_eq_true_eq] at strays
    exact strays.1
  · refine exists_congr fun fault => and_congr_left fun _ => Refused.congr fun before b last => ?_
    rw [uneven_iff (by omega)]
    simp only [Bool.and_eq_true, decide_eq_true_eq, Bool.not_eq_true']

/-! ## Readers of integers -/

/-- A reader of integers of `width` bits in two's complement, at any place of
any input: it returns exactly what is spelt there and takes exactly the
spelling, and where nothing is spelt it reports the reason. -/
structure ReadsInteger {α : Type} (width : Nat) (d : Decoder α) (integer : α → Int) : Prop where
  ok_iff : ∀ (c : Cursor) (a : α) (c' : Cursor), d c = .ok a c' ↔
    ∃ bytes, c.Takes bytes c' ∧ IsSigned width bytes (integer a)
  error_iff : ∀ (c : Cursor) (e : DecodeError), (∃ c', d c = .error e c') ↔
    ∃ fault, UnspeltSigned width c.rest fault ∧
      e = ⟨faultOffset c.offset c.endOffset fault, c.sectionId, fault⟩

/-- Integers may be narrowed to a type that has all of the width. -/
theorem readsInteger_of_exactly {α : Type} {width : Nat} {d : Decoder α} {integer : α → Int}
    (positive : 0 < width)
    (exactly : ReadsExactly d fun bytes a => IsSigned width bytes (integer a))
    (fails : ∀ c e c', d c = .error e c' ↔ readSigned width c = .error e c') :
    ReadsInteger width d integer where
  ok_iff _ _ _ := exactly.takes_iff
  error_iff c e := (exists_congr (fails c e)).trans (readSigned_eq_error_iff positive)

end Leb128

/-- Integers of 32, 33 and 64 bits are read where they are spelt, in any
spelling that is not longer than the width allows, and only there. -/
theorem Codec.readsInteger_32_33_64 : Leb128.ReadsInteger 32 i32.decode Int32.toInt ∧
    Leb128.ReadsInteger 33 (Leb128.readSigned 33) id ∧
    Leb128.ReadsInteger 64 i64.decode Int64.toInt :=
  ⟨Leb128.readsInteger_of_exactly (by decide) exactly_i32 fun _ _ _ => EStateM.map_eq_error,
    Leb128.readsInteger_of_exactly (by decide) (exactly_readSigned (by decide)) fun _ _ _ => .rfl,
    Leb128.readsInteger_of_exactly (by decide) exactly_i64 fun _ _ _ => EStateM.map_eq_error⟩

/-- The sign of 33 bits is the fifth of the last group, and here the bits above
it differ from it. -/
example : Leb128.readSigned 33 ⟨3, [0x80, 0x80, 0x80, 0x80, 0x10], none⟩ =
    .error ⟨3, none, .integerTooLarge⟩ ⟨8, [], none⟩ := rfl

end Wasm
