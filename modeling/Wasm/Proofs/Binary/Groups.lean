import Wasm.Proofs.Binary.Exactly

/-!
# Groups that are no integer

Integers with and without a sign are read alike: byte by byte, until one
announces no other. They differ in what a byte adds to the number and in which
bits the last group that the width admits must not have. With these left open
the reader is `readGroups`, and `Refused` says why it finds no integer. Which of
the three reasons holds is decided by the first byte that announces no other
or, where all announce one, by the end of the input or the last group.
-/

namespace Wasm.Leb128

open Decoder

/-- Why up to `groups` groups at the front of `bytes` are no integer. Behind
`before` groups a byte `b` with `misfit before b` has bits without a place. -/
inductive Refused (misfit : Nat → UInt8 → Prop) (groups : Nat) (bytes : Bytes) :
    DecodeFault → Prop
  | ended (announced : ∀ b ∈ bytes, 128 ≤ b.toNat) (short : bytes.length < groups) :
      Refused misfit groups bytes .unexpectedEnd
  | tooLarge {lead left : Bytes} {b : UInt8} (split : bytes = lead ++ b :: left)
      (announced : ∀ b ∈ lead, 128 ≤ b.toNat) (last : lead.length + 1 = groups)
      (strays : misfit lead.length b) : Refused misfit groups bytes .integerTooLarge
  | tooLong {lead left : Bytes} {b : UInt8} (split : bytes = lead ++ b :: left)
      (announced : ∀ b ∈ lead, 128 ≤ b.toNat) (last : lead.length + 1 = groups)
      (fits : ¬misfit lead.length b) (another : 128 ≤ b.toNat) :
      Refused misfit groups bytes .integerTooLong

/-- A missing byte is reported where the input ends, and what is wrong with an
integer where it starts. -/
def faultOffset (start finish : Nat) : DecodeFault → Nat
  | .unexpectedEnd => finish
  | _ => start

namespace Refused

variable {misfit misfit' : Nat → UInt8 → Prop} {groups : Nat} {b : UInt8} {bytes rest : Bytes}
  {fault : DecodeFault}

/-- Bits are looked at in the last group only. -/
theorem imp (same : ∀ before b, before + 1 = groups → (misfit before b ↔ misfit' before b))
    (h : Refused misfit groups bytes fault) : Refused misfit' groups bytes fault := by
  cases h with
  | ended announced short => exact .ended announced short
  | tooLarge split announced last strays =>
      exact .tooLarge split announced last ((same _ _ last).mp strays)
  | tooLong split announced last fits another =>
      exact .tooLong split announced last (mt (same _ _ last).mpr fits) another

theorem congr (same : ∀ before b, before + 1 = groups → (misfit before b ↔ misfit' before b)) :
    Refused misfit groups bytes fault ↔ Refused misfit' groups bytes fault :=
  ⟨imp same, imp fun before b last => (same before b last).symm⟩

theorem nil_iff : Refused misfit (groups + 1) [] fault ↔ fault = .unexpectedEnd := by
  constructor
  · intro h
    cases h with
    | ended => rfl
    | tooLarge split | tooLong split => simp at split
  · rintro rfl
    exact .ended nofun (Nat.succ_pos groups)

/-- The last group that the width admits. -/
theorem last_iff : Refused misfit 1 (b :: rest) fault ↔
    (fault = .integerTooLarge ∧ misfit 0 b) ∨
      (fault = .integerTooLong ∧ ¬misfit 0 b ∧ 128 ≤ b.toNat) := by
  constructor
  · intro h
    cases h with
    | ended announced short => simp at short
    | @tooLarge lead left b' split _ last strays =>
        cases List.length_eq_zero_iff.mp (Nat.succ.inj last)
        cases split
        exact .inl ⟨rfl, strays⟩
    | @tooLong lead left b' split _ last fits another =>
        cases List.length_eq_zero_iff.mp (Nat.succ.inj last)
        cases split
        exact .inr ⟨rfl, fits, another⟩
  · rintro (⟨rfl, strays⟩ | ⟨rfl, fits, another⟩)
    · exact .tooLarge (List.nil_append (b :: rest)).symm nofun rfl strays
    · exact .tooLong (List.nil_append (b :: rest)).symm nofun rfl fits another

/-- A byte in front of the last group announces another one, and the groups
behind it decide. -/
theorem cons_iff : Refused misfit (groups + 2) (b :: rest) fault ↔
    128 ≤ b.toNat ∧ Refused (fun before => misfit (before + 1)) (groups + 1) rest fault := by
  constructor
  · intro h
    cases h with
    | ended announced short =>
        obtain ⟨another, others⟩ := List.forall_mem_cons.mp announced
        exact ⟨another, .ended others (Nat.lt_of_succ_lt_succ short)⟩
    | @tooLarge lead left b' split announced last strays =>
        cases lead with
        | nil => simp at last
        | cons first lead =>
            cases split
            obtain ⟨another, others⟩ := List.forall_mem_cons.mp announced
            exact ⟨another, .tooLarge rfl others (Nat.succ.inj last) strays⟩
    | @tooLong lead left b' split announced last fits more =>
        cases lead with
        | nil => simp at last
        | cons first lead =>
            cases split
            obtain ⟨another, others⟩ := List.forall_mem_cons.mp announced
            exact ⟨another, .tooLong rfl others (Nat.succ.inj last) fits more⟩
  · rintro ⟨another, h⟩
    cases h with
    | ended announced short =>
        exact .ended (List.forall_mem_cons.mpr ⟨another, announced⟩) (Nat.succ_lt_succ short)
    | @tooLarge lead left b' split announced last strays =>
        have front : b :: rest = b :: lead ++ b' :: left := by rw [split, List.cons_append]
        exact .tooLarge front (List.forall_mem_cons.mpr ⟨another, announced⟩)
          (congrArg Nat.succ last) strays
    | @tooLong lead left b' split announced last fits more =>
        have front : b :: rest = b :: lead ++ b' :: left := by rw [split, List.cons_append]
        exact .tooLong front (List.forall_mem_cons.mpr ⟨another, announced⟩)
          (congrArg Nat.succ last) fits more

end Refused

/-! ## A reader of groups -/

/-- Only the last group may have fewer than seven bits. -/
theorem exists_groupCount {width : Nat} (positive : 0 < width) :
    ∃ groups, groupCount width = groups + 1 ∧ 7 * groups < width := by
  refine ⟨groupCount width - 1, ?_, ?_⟩ <;> rw [groupCount] <;> omega

section

variable {α : Type} (misfit : Nat → UInt8 → Bool) (last : UInt8 → α) (more : UInt8 → α → α)

/-- Reads up to `groups` groups of an integer of which `width` bits are still
free. Faults are reported at `start`. -/
def readGroups (start : Nat) : (groups width : Nat) → Decoder α
  | 0, _ => failAt start .integerTooLong
  | groups + 1, width => do
    let b ← byte
    if misfit width b then failAt start .integerTooLarge
    else if b.toNat < 128 then return last b
    else
      let high ← readGroups start groups (width - 7)
      return more b high

/-- What the reader does with a byte that is there. -/
theorem readGroups_cons (start groups width offset : Nat) (b : UInt8) (rest : Bytes)
    (id : Option SectionId) :
    readGroups misfit last more start (groups + 1) width ⟨offset, b :: rest, id⟩ =
      (if misfit width b then failAt start .integerTooLarge
      else if b.toNat < 128 then Pure.pure (last b)
      else readGroups misfit last more start groups (width - 7) >>= fun high =>
        Pure.pure (more b high)) ⟨offset + 1, rest, id⟩ := by
  rw [readGroups]
  rfl

variable {misfit}

/-- The reader fails for a reason and reports it. The induction is on the bytes;
only in the last group fewer than seven bits may be free. -/
theorem readGroups_eq_error_iff (narrow : ∀ width b, misfit width b = true → width < 7)
    {start groups width offset : Nat} {bytes : Bytes} {id : Option SectionId} {e : DecodeError}
    (room : 7 * groups < width) :
    (∃ c', readGroups misfit last more start (groups + 1) width ⟨offset, bytes, id⟩ =
        .error e c') ↔
      ∃ fault, Refused (fun before b => misfit (width - 7 * before) b = true) (groups + 1) bytes
        fault ∧ e = ⟨faultOffset start (offset + bytes.length) fault, id, fault⟩ := by
  induction bytes generalizing groups width offset with
  | nil =>
      simp only [Refused.nil_iff, exists_eq_left]
      constructor
      · rintro ⟨c', failed⟩
        cases failed
        rfl
      · rintro rfl
        exact ⟨_, rfl⟩
  | cons b rest ih =>
      rw [readGroups_cons]
      cases groups with
      | zero =>
          simp only [Nat.zero_add, Refused.last_iff, Nat.mul_zero, Nat.sub_zero]
          constructor
          · rintro ⟨c', failed⟩
            split at failed
            · rename_i strays
              cases failed
              exact ⟨.integerTooLarge, .inl ⟨rfl, strays⟩, rfl⟩
            · rename_i fits
              split at failed
              · cases failed
              · rename_i another
                cases failed
                exact ⟨.integerTooLong, .inr ⟨rfl, fits, Nat.not_lt.mp another⟩, rfl⟩
          · rintro ⟨fault, ⟨rfl, strays⟩ | ⟨rfl, fits, another⟩, rfl⟩
            · rw [if_pos strays]
              exact ⟨_, rfl⟩
            · rw [if_neg fits, if_neg (Nat.not_lt.mpr another)]
              exact ⟨_, rfl⟩
      | succ groups =>
          have fits : ¬misfit width b = true := fun strays => by
            have := narrow width b strays
            omega
          have places : ∀ before, width - 7 * (before + 1) = width - 7 - 7 * before := by omega
          have behind := @ih groups (width - 7) (offset + 1) (by omega)
          rw [Nat.add_right_comm, Nat.add_assoc] at behind
          rw [if_neg fits]
          simp only [Refused.cons_iff, places, List.length_cons]
          by_cases another : 128 ≤ b.toNat
          · simp only [if_neg (Nat.not_lt.mpr another), EStateM.bind_eq_error, another, true_and]
            rw [← behind]
            refine exists_congr fun c' => or_iff_left ?_
            rintro ⟨high, c₁, -, done⟩
            cases done
          · simp only [if_pos (Nat.not_le.mp another), another, false_and, exists_false, iff_false]
            rintro ⟨c', done⟩
            cases done

end

end Wasm.Leb128
