import Mathlib.Data.Nat.Bitwise
import Wasm.Proofs.Binary.Groups

/-!
# Unsigned integers, read or refused

A reader of unsigned integers meets a spelling of a number of its width, or
one of three faults. The input may end while every byte has announced another
one. Otherwise the last group that the width admits decides: one of its bits
may have no place in the width, and if all of them have one, it may announce a
group too many. The first of these that holds is reported, so the faults
exclude one another, and none of them can hold of a spelling.
-/

namespace Wasm

open Decoder

namespace Leb128

/-- One of the seven low bits of `b` is set, and behind `before` groups its
weight is `2 ^ width` or more. -/
def Overflows (width before : Nat) (b : UInt8) : Prop :=
  ∃ i < 7, b.toNat.testBit i = true ∧ width ≤ 7 * before + i

/-- Why no number of `width` bits is spelt at the front of `bytes`. -/
inductive Unspelt (width : Nat) (bytes : Bytes) : DecodeFault → Prop
  | ended (announced : ∀ b ∈ bytes, 128 ≤ b.toNat) (short : bytes.length < groupCount width) :
      Unspelt width bytes .unexpectedEnd
  | tooLarge {lead left : Bytes} {b : UInt8} (split : bytes = lead ++ b :: left)
      (announced : ∀ b ∈ lead, 128 ≤ b.toNat) (last : lead.length + 1 = groupCount width)
      (overflows : Overflows width lead.length b) : Unspelt width bytes .integerTooLarge
  | tooLong {lead left : Bytes} {b : UInt8} (split : bytes = lead ++ b :: left)
      (announced : ∀ b ∈ lead, 128 ≤ b.toNat) (last : lead.length + 1 = groupCount width)
      (fits : ¬Overflows width lead.length b) (another : 128 ≤ b.toNat) :
      Unspelt width bytes .integerTooLong

/-! ## The last group -/

/-- The reader looks for bits without a place by the size of the group. -/
theorem overflows_iff {width before : Nat} {b : UInt8} : Overflows width before b ↔
    width - 7 * before < 7 ∧ 1 <<< (width - 7 * before) ≤ b.toNat % 128 := by
  have bits : ∀ i, (b.toNat % 128).testBit i = (decide (i < 7) && b.toNat.testBit i) :=
    Nat.testBit_mod_two_pow b.toNat 7
  rw [Nat.one_shiftLeft]
  constructor
  · rintro ⟨i, low, set, weight⟩
    have bit : (b.toNat % 128).testBit i = true := by simp [bits, low, set]
    have place : width - 7 * before ≤ i := by omega
    refine ⟨by omega, ?_⟩
    exact (Nat.pow_le_pow_right (by decide) place).trans (Nat.ge_two_pow_of_testBit bit)
  · rintro ⟨-, large⟩
    obtain ⟨i, place, bit⟩ := Nat.exists_ge_and_testBit_of_ge_two_pow large
    simp only [bits, Bool.and_eq_true, decide_eq_true_eq] at bit
    exact ⟨i, bit.1, bit.2, by omega⟩

/-! ## Failing is being unspelt -/

theorem unspelt_iff {width : Nat} {bytes : Bytes} {fault : DecodeFault} :
    Unspelt width bytes fault ↔ Refused (Overflows width) (groupCount width) bytes fault := by
  constructor
  · intro h
    cases h with
    | ended announced short => exact .ended announced short
    | tooLarge split announced last overflows => exact .tooLarge split announced last overflows
    | tooLong split announced last fits another => exact .tooLong split announced last fits another
  · intro h
    cases h with
    | ended announced short => exact .ended announced short
    | tooLarge split announced last overflows => exact .tooLarge split announced last overflows
    | tooLong split announced last fits another => exact .tooLong split announced last fits another

theorem unsignedGroups_eq (start groups width : Nat) : unsignedGroups start groups width =
    readGroups (fun width b => width < 7 && 1 <<< width ≤ b.toNat % 128) (fun b => b.toNat % 128)
      (fun b high => b.toNat % 128 + 128 * high) start groups width := by
  induction groups generalizing width with
  | zero => rfl
  | succ groups ih =>
      rw [unsignedGroups, readGroups, ih]
      simp only [Bool.and_eq_true, decide_eq_true_eq]

theorem readUnsigned_eq_error_iff {width : Nat} {c : Cursor} {e : DecodeError}
    (positive : 0 < width) : (∃ c', readUnsigned width c = .error e c') ↔
      ∃ fault, Unspelt width c.rest fault ∧
        e = ⟨faultOffset c.offset c.endOffset fault, c.sectionId, fault⟩ := by
  obtain ⟨groups, number, room⟩ := exists_groupCount positive
  rw [readUnsigned, offset_bind, unsignedGroups_eq, number]
  refine (readGroups_eq_error_iff _ _ ?_ room).trans (exists_congr fun fault => ?_)
  · intro width b large
    simp only [Bool.and_eq_true, decide_eq_true_eq] at large
    exact large.1
  · rw [unspelt_iff, number]
    refine and_congr_left fun _ => Refused.congr fun before b _ => ?_
    rw [overflows_iff]
    simp only [Bool.and_eq_true, decide_eq_true_eq]

/-! ## Readers of numbers -/

/-- A reader of numbers of `width` bits, at any place of any input: it returns
exactly what is spelt there and takes exactly the spelling, and where nothing
is spelt it reports the reason. -/
structure ReadsNumber {α : Type} (width : Nat) (d : Decoder α) (number : α → Nat) : Prop where
  ok_iff : ∀ (c : Cursor) (a : α) (c' : Cursor), d c = .ok a c' ↔
    ∃ bytes, c.Takes bytes c' ∧ IsUnsigned width bytes (number a)
  error_iff : ∀ (c : Cursor) (e : DecodeError), (∃ c', d c = .error e c') ↔
    ∃ fault, Unspelt width c.rest fault ∧
      e = ⟨faultOffset c.offset c.endOffset fault, c.sectionId, fault⟩

/-- The numbers of `width` bits may be values of another type. -/
theorem readsNumber_map {α : Type} {width : Nat} {value : Nat → α} {number : α → Nat}
    (positive : 0 < width) (value_number : ∀ a, value (number a) = a)
    (number_value : ∀ n < 2 ^ width, number (value n) = n) :
    ReadsNumber width (value <$> readUnsigned width) number where
  ok_iff := by
    intro c a c'
    rw [map_eq_pure_bind]
    constructor
    · intro result
      obtain ⟨n, c₁, read, done⟩ := EStateM.bind_eq_ok.mp result
      cases done
      obtain ⟨bytes, split, spelling⟩ := isUnsigned_of_readUnsigned read
      obtain ⟨-, -, takes⟩ := takes_of_reads split spelling.reads read
      rw [number_value n spelling.fits]
      exact ⟨bytes, takes, spelling⟩
    · rintro ⟨bytes, takes, spelling⟩
      have reads := (spelling.reads.bindPure (f := value)) c.offset c'.rest c.sectionId
      rw [value_number, ← takes.rest] at reads
      rw [reads, ← takes.offset, ← takes.sectionId]
  error_iff := by
    intro c e
    rw [← readUnsigned_eq_error_iff positive, map_eq_pure_bind]
    refine exists_congr fun c' => ?_
    rw [EStateM.bind_eq_error]
    constructor
    · rintro (failed | ⟨n, c₁, -, done⟩)
      · exact failed
      · cases done
    · exact Or.inl

end Leb128

/-- Numbers of 32 and of 64 bits are read where they are spelt, in any spelling
that is not longer than the width allows, and only there. -/
theorem Codec.readsNumber_u32_u64 : Leb128.ReadsNumber 32 u32.decode UInt32.toNat ∧
    Leb128.ReadsNumber 64 u64.decode UInt64.toNat := by
  constructor
  · apply Leb128.readsNumber_map (by decide) (fun _ => UInt32.ofNat_toNat)
    intro n small
    exact UInt32.toNat_ofNat_of_lt' small
  · apply Leb128.readsNumber_map (by decide) (fun _ => UInt64.ofNat_toNat)
    intro n small
    exact UInt64.toNat_ofNat_of_lt' small

/-- The fifth byte has a bit too many and announces a sixth one; the former counts. -/
example : Codec.u32.decode ⟨3, [0x80, 0x80, 0x80, 0x80, 0x90], none⟩ =
    .error ⟨3, none, .integerTooLarge⟩ ⟨8, [], none⟩ := rfl

end Wasm
