import Mathlib.Data.List.Forall2
import Mathlib.Data.List.Nodup

/-!
# Lists side by side

Two lists that are related item by item. What is known of the items of one of
them carries over to the other.
-/

/-- What is put in behind the first of two lists stands between them. -/
theorem List.insertIdx_append_length {α : Type} (front back : List α) (a : α) :
    (front ++ back).insertIdx front.length a = front ++ a :: back := by
  induction front with
  | nil => rfl
  | cons head tail ih => rw [cons_append, length_cons, insertIdx_succ_cons, ih, cons_append]

namespace List.Forall₂

variable {α β γ : Type} {R : α → β → Prop} {as : List α} {bs : List β}

/-- Whatever stands in the second list is related to something in the first. -/
theorem exists_of_mem_right {y : β} (h : Forall₂ R as bs) (member : y ∈ bs) :
    ∃ a ∈ as, R a y := by
  induction h with
  | nil => cases member
  | cons first _ ih =>
      rcases mem_cons.mp member with rfl | later
      · exact ⟨_, mem_cons_self, first⟩
      · obtain ⟨a, known, related⟩ := ih later
        exact ⟨a, mem_cons_of_mem _ known, related⟩

theorem exists_of_mem_left {a : α} (h : Forall₂ R as bs) (member : a ∈ as) : ∃ y ∈ bs, R a y :=
  h.flip.exists_of_mem_right member

/-- What goes along with two lists in a row is in two parts itself. -/
theorem split {as' : List α} (h : Forall₂ R (as ++ as') bs) :
    ∃ front back, bs = front ++ back ∧ Forall₂ R as front ∧ Forall₂ R as' back := by
  induction as generalizing bs with
  | nil => exact ⟨[], bs, rfl, .nil, h⟩
  | cons a rest ih =>
      cases h with
      | cons first others =>
          obtain ⟨front, back, rfl, before, behind⟩ := ih others
          exact ⟨_ :: front, back, rfl, .cons first before, behind⟩

/-- The slices of what goes along with two lists in a row are what goes along with each of them. -/
theorem exists_slices_iff {as' : List α} {p q : List β → Prop} :
    (∃ bs, Forall₂ R (as ++ as') bs ∧ p (bs.take as.length) ∧ q (bs.drop as.length)) ↔
      (∃ front, Forall₂ R as front ∧ p front) ∧ ∃ back, Forall₂ R as' back ∧ q back := by
  constructor
  · rintro ⟨bs, related, before, behind⟩
    obtain ⟨front, back, rfl, first, second⟩ := related.split
    rw [first.length_eq, take_left] at before
    rw [first.length_eq, drop_left] at behind
    exact ⟨⟨front, first, before⟩, back, second, behind⟩
  · rintro ⟨⟨front, first, before⟩, back, second, behind⟩
    refine ⟨front ++ back, rel_append first second, ?_, ?_⟩
    · rwa [first.length_eq, take_left]
    · rwa [first.length_eq, drop_left]

/-- A property of all items of one list is one of all items of the other. -/
theorem forall_mem_iff {p : α → Prop} {q : β → Prop} (h : Forall₂ R as bs)
    (same : ∀ a y, R a y → (p a ↔ q y)) : (∀ a ∈ as, p a) ↔ ∀ y ∈ bs, q y := by
  constructor
  · intro all y member
    obtain ⟨a, known, related⟩ := h.exists_of_mem_right member
    exact (same a y related).mp (all a known)
  · intro all a member
    obtain ⟨y, known, related⟩ := h.exists_of_mem_left member
    exact (same a y related).mpr (all y known)

/-- What the items of the first list have beside those of the second can be listed. -/
theorem exists_beside {S : α → γ → Prop} (h : Forall₂ R as bs)
    (each : ∀ a y, R a y → ∃ c, S a c) : ∃ cs, Forall₂ S as cs := by
  induction h with
  | nil => exact ⟨[], .nil⟩
  | cons first _ ih =>
      obtain ⟨c, related⟩ := each _ _ first
      obtain ⟨cs, others⟩ := ih
      exact ⟨c :: cs, .cons related others⟩

/-- Two lists that go along with the same one go along with each other. -/
theorem both {S : α → γ → Prop} {T : β → γ → Prop} {cs : List γ} (h : Forall₂ R as bs)
    (h' : Forall₂ S as cs) (each : ∀ a y c, R a y → S a c → T y c) : Forall₂ T bs cs := by
  induction h generalizing cs with
  | nil =>
      cases h'
      exact .nil
  | cons first _ ih =>
      cases h' with
      | cons first' others => exact .cons (each _ _ _ first first') (ih others)

/-- Items that are related to different ones are different. -/
theorem nodup_right (h : Forall₂ R as bs) (distinct : as.Nodup)
    (injective : ∀ a a' y, R a y → R a' y → a = a') : bs.Nodup := by
  induction h with
  | nil => exact .nil
  | cons first others ih =>
      obtain ⟨new, rest⟩ := nodup_cons.mp distinct
      refine nodup_cons.mpr ⟨fun again => ?_, ih rest⟩
      obtain ⟨a', listed, related⟩ := others.exists_of_mem_right again
      exact new (injective _ _ _ first related ▸ listed)

end List.Forall₂
