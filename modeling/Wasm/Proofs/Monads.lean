import Mathlib.Data.List.Forall2

/-!
# Computations that can fail

A sequence of computations succeeds exactly when each of them does. The laws
here take such a sequence apart, so that no later proof unfolds a bind. Where
there is a state, a failure leaves one behind too.
-/

namespace Except

variable {ε α β : Type}

@[simp] theorem ok_bind (a : α) (f : α → Except ε β) : (ok a >>= f) = f a := rfl

@[simp] theorem error_bind (e : ε) (f : α → Except ε β) : (error e >>= f) = error e := rfl

@[simp] theorem pure_eq_ok (a : α) : (pure a : Except ε α) = ok a := rfl

@[simp] theorem throw_eq_error (e : ε) : (throw e : Except ε α) = error e := rfl

theorem bind_eq_ok {x : Except ε α} {f : α → Except ε β} {b : β} :
    (x >>= f) = ok b ↔ ∃ a, x = ok a ∧ f a = ok b := by
  cases x with
  | error e => simp
  | ok a => simp

theorem exists_bind_eq_ok {x : Except ε α} {f : α → Except ε β} (first : ∃ a, x = ok a)
    (second : ∀ a, ∃ b, f a = ok b) : ∃ b, (x >>= f) = ok b := by
  obtain ⟨a, rfl⟩ := first
  exact second a

theorem map_eq_ok {x : Except ε α} {f : α → β} {b : β} :
    x.map f = ok b ↔ ∃ a, x = ok a ∧ f a = b := by
  cases x with
  | error e => simp [Except.map]
  | ok a => simp [Except.map]

theorem map_eq_error {x : Except ε α} {f : α → β} {e : ε} : x.map f = error e ↔ x = error e := by
  cases x with
  | error e => simp [Except.map]
  | ok a => simp [Except.map]

/-- A guard that is passed holds. -/
theorem ite_error_eq_ok {p : Prop} [Decidable p] {e : ε} {x : Except ε β} {b : β} :
    (if p then x else error e) = ok b ↔ p ∧ x = ok b := by
  by_cases h : p <;> simp [h]

theorem error_ite_eq_ok {p : Prop} [Decidable p] {e : ε} {x : Except ε β} {b : β} :
    (if p then error e else x) = ok b ↔ ¬p ∧ x = ok b := by
  by_cases h : p <;> simp [h]

theorem mapM_eq_ok {f : α → Except ε β} {items : List α} {results : List β} :
    items.mapM f = ok results ↔ List.Forall₂ (fun a b => f a = ok b) items results := by
  induction items generalizing results with
  | nil =>
      rw [List.mapM_nil, pure_eq_ok, List.forall₂_nil_left_iff, Except.ok.injEq, eq_comm]
  | cons head tail ih =>
      rw [List.mapM_cons, bind_eq_ok]
      simp only [bind_eq_ok, ih, pure_eq_ok, Except.ok.injEq]
      constructor
      · rintro ⟨b, first, rest, others, rfl⟩
        exact .cons first others
      · rintro (_ | ⟨first, others⟩)
        exact ⟨_, first, _, others, rfl⟩

theorem exists_mapM_eq_ok {f : α → Except ε β} {items : List α}
    (each : ∀ a ∈ items, ∃ b, f a = ok b) : ∃ results, items.mapM f = ok results := by
  induction items with
  | nil => exact ⟨[], rfl⟩
  | cons head tail ih =>
      obtain ⟨⟨b, first⟩, rest⟩ := List.forall_mem_cons.mp each
      obtain ⟨results, others⟩ := ih rest
      exact ⟨b :: results, mapM_eq_ok.mpr (.cons first (mapM_eq_ok.mp others))⟩

/-- Every result comes from an item. -/
theorem exists_of_mem_mapM {f : α → Except ε β} {items : List α} {results : List β} {b : β}
    (made : items.mapM f = ok results) (member : b ∈ results) : ∃ a ∈ items, f a = ok b := by
  induction mapM_eq_ok.mp made with
  | nil => cases member
  | cons first _ ih =>
      rename_i tail _ others
      rcases List.mem_cons.mp member with rfl | later
      · exact ⟨_, List.mem_cons_self, first⟩
      · obtain ⟨a, known, same⟩ := ih (mapM_eq_ok.mpr others) later
        exact ⟨a, List.mem_cons_of_mem _ known, same⟩

/-! ## The first of several failures -/

/-- `faults` are all that stand in the way of `x`, in the order in which `x`
meets them: without any it succeeds, and otherwise it fails with the first one. -/
inductive Reports : Except ε α → List ε → Prop
  | done (a : α) : Reports (ok a) []
  | failed (e : ε) (later : List ε) : Reports (error e) (e :: later)

namespace Reports

variable {x : Except ε α} {faults : List ε}

theorem bind {f : α → Except ε β} {more : List ε} (h : x.Reports faults)
    (next : ∀ a, (f a).Reports more) : (x >>= f).Reports (faults ++ more) := by
  cases h with
  | done a => exact next a
  | failed e later => exact failed e (later ++ more)

/-- What is made of a result adds no faults. -/
theorem bind_pure (h : x.Reports faults) (f : α → β) :
    (x >>= fun a => pure (f a)).Reports faults := by
  cases h with
  | done a => exact done (f a)
  | failed e later => exact failed e later

theorem mapM {f : α → Except ε β} {faultsOf : α → List ε} (items : List α)
    (each : ∀ a, (f a).Reports (faultsOf a)) : (items.mapM f).Reports (items.flatMap faultsOf) := by
  induction items with
  | nil => exact done []
  | cons head tail ih =>
      rw [List.mapM_cons, List.flatMap_cons]
      apply (each head).bind
      intro b
      exact ih.bind_pure (b :: ·)

theorem mapError {ε' : Type} (h : x.Reports faults) (f : ε → ε') :
    (x.mapError f).Reports (faults.map f) := by
  cases h with
  | done a => exact done a
  | failed e later => exact failed (f e) (later.map f)

theorem eq_error_iff (h : x.Reports faults) {e : ε} : x = error e ↔ faults.head? = some e := by
  cases h with
  | done a => simp
  | failed e' later => simp

theorem exists_error_iff (h : x.Reports faults) : (∃ e, x = error e) ↔ faults ≠ [] := by
  cases h with
  | done a => simp
  | failed e later => simp

end Reports

/-! ## Two computations -/

/-- Both fail, or both succeed with results that are related by `R`. -/
inductive Together (R : α → β → Prop) : Except ε α → Except ε β → Prop
  | failed (e e' : ε) : Together R (error e) (error e')
  | done {a : α} {b : β} (related : R a b) : Together R (ok a) (ok b)

namespace Together

variable {γ δ : Type} {R : α → β → Prop} {S : γ → δ → Prop} {x : Except ε α} {y : Except ε β}

/-- Neither of the two succeeds alone. -/
theorem of_ok (first : ∀ a, x = ok a → ∃ b, y = ok b ∧ R a b)
    (second : ∀ b, y = ok b → ∃ a, x = ok a) : Together R x y := by
  cases x with
  | ok a =>
      obtain ⟨b, rfl, related⟩ := first a rfl
      exact .done related
  | error e =>
      cases y with
      | ok b =>
          obtain ⟨a, same⟩ := second b rfl
          cases same
      | error e' => exact .failed e e'

theorem bind {f : α → Except ε γ} {g : β → Except ε δ} (h : Together R x y)
    (next : ∀ a b, R a b → Together S (f a) (g b)) : Together S (x >>= f) (y >>= g) := by
  cases h with
  | failed e e' => exact .failed e e'
  | done related => exact next _ _ related

theorem map {f : α → γ} {g : β → δ} (h : Together R x y)
    (next : ∀ a b, R a b → S (f a) (g b)) : Together S (x.map f) (y.map g) := by
  cases h with
  | failed e e' => exact .failed e e'
  | done related => exact .done (next _ _ related)

end Together

/-- Both fail, or both succeed with the same result. -/
def Agree : Except ε α → Except ε α → Prop := Together Eq

namespace Agree

variable {x x' : Except ε α}

theorem failed (e e' : ε) : (error e : Except ε α).Agree (error e') := Together.failed e e'

theorem of_eq (h : x = x') : x.Agree x' := by
  subst h
  cases x with
  | error e => exact failed e e
  | ok a => exact Together.done rfl

theorem symm (h : x.Agree x') : x'.Agree x := by
  cases h with
  | failed e e' => exact failed e' e
  | done same => exact Together.done same.symm

theorem trans {x'' : Except ε α} (h : x.Agree x') (h' : x'.Agree x'') : x.Agree x'' := by
  cases h with
  | failed e e' =>
      cases h' with
      | failed _ e'' => exact failed e e''
  | done same =>
      cases same
      exact h'

theorem eq_ok (h : x.Agree x') {a : α} (done : x = ok a) : x' = ok a := by
  cases h with
  | failed => cases done
  | done same => exact same ▸ done

theorem eq_error (h : x.Agree x') {e : ε} (failed : x' = error e) : ∃ e', x = error e' := by
  cases h with
  | failed e' => exact ⟨e', rfl⟩
  | done => cases failed

theorem bind {f f' : α → Except ε β} (first : x.Agree x') (second : ∀ a, (f a).Agree (f' a)) :
    (x >>= f).Agree (x' >>= f') :=
  Together.bind first fun a _ same => same ▸ second a

/-- The computations on a list agree with those on a list made of its items. -/
theorem mapM {γ : Type} {f : β → Except ε γ} {f' : α → Except ε γ} {g : α → β} {items : List α}
    (each : ∀ a ∈ items, (f (g a)).Agree (f' a)) :
    ((items.map g).mapM f).Agree (items.mapM f') := by
  induction items with
  | nil => exact .of_eq rfl
  | cons head tail ih =>
      obtain ⟨first, rest⟩ := List.forall_mem_cons.mp each
      rw [List.map_cons, List.mapM_cons, List.mapM_cons]
      exact first.bind fun b => (ih rest).bind fun others => .of_eq rfl

end Agree

end Except

namespace EStateM

variable {ε σ α β : Type}

theorem bind_eq_ok {x : EStateM ε σ α} {f : α → EStateM ε σ β} {b : β} {s s' : σ} :
    (x >>= f) s = .ok b s' ↔ ∃ a s₁, x s = .ok a s₁ ∧ f a s₁ = .ok b s' := by
  show EStateM.bind x f s = _ ↔ _
  unfold EStateM.bind
  cases x s with
  | ok a s₁ => simp
  | error e s₁ => simp

/-- A sequence fails in its first part or behind it. -/
theorem bind_eq_error {x : EStateM ε σ α} {f : α → EStateM ε σ β} {e : ε} {s s' : σ} :
    (x >>= f) s = .error e s' ↔
      x s = .error e s' ∨ ∃ a s₁, x s = .ok a s₁ ∧ f a s₁ = .error e s' := by
  show EStateM.bind x f s = _ ↔ _
  unfold EStateM.bind
  cases x s with
  | ok a s₁ => simp
  | error e s₁ => simp

/-- What is made of a result cannot fail. -/
theorem map_eq_error {x : EStateM ε σ α} {f : α → β} {e : ε} {s s' : σ} :
    (f <$> x) s = .error e s' ↔ x s = .error e s' := by
  show EStateM.map f x s = _ ↔ _
  unfold EStateM.map
  cases x s with
  | ok a s₁ => simp
  | error e s₁ => simp

/-- `x` leaves the state `s'` behind, whether it succeeds or fails. -/
def Leaves (x : EStateM ε σ α) (s s' : σ) : Prop :=
  (∃ a, x s = .ok a s') ∨ ∃ e, x s = .error e s'

theorem Leaves.of_ok {x : EStateM ε σ α} {a : α} {s s' : σ} (h : x s = .ok a s') :
    x.Leaves s s' :=
  .inl ⟨a, h⟩

theorem leaves_bind {x : EStateM ε σ α} {f : α → EStateM ε σ β} {s s' : σ} :
    (x >>= f).Leaves s s' ↔
      (∃ e, x s = .error e s') ∨ ∃ a s₁, x s = .ok a s₁ ∧ (f a).Leaves s₁ s' := by
  simp only [Leaves, bind_eq_ok, bind_eq_error]
  constructor
  · rintro (⟨b, a, s₁, first, second⟩ | ⟨e, first | ⟨a, s₁, first, second⟩⟩)
    · exact .inr ⟨a, s₁, first, .inl ⟨b, second⟩⟩
    · exact .inl ⟨e, first⟩
    · exact .inr ⟨a, s₁, first, .inr ⟨e, second⟩⟩
  · rintro (⟨e, first⟩ | ⟨a, s₁, first, ⟨b, second⟩ | ⟨e, second⟩⟩)
    · exact .inr ⟨e, .inl first⟩
    · exact .inl ⟨b, a, s₁, first, second⟩
    · exact .inr ⟨e, .inr ⟨a, s₁, first, second⟩⟩

/-- A handler goes on where the failure left the state. -/
theorem leaves_tryCatch {x : EStateM ε σ α} {h : ε → EStateM ε σ α} {s s' : σ} :
    (tryCatch x h).Leaves s s' ↔
      (∃ a, x s = .ok a s') ∨ ∃ e s₁, x s = .error e s₁ ∧ (h e).Leaves s₁ s' := by
  show (EStateM.tryCatch x h).Leaves s s' ↔ _
  unfold Leaves EStateM.tryCatch
  cases x s with
  | ok a s₁ => simp
  | error e s₁ => simp [EStateM.Backtrackable.restore, EStateM.dummyRestore]

end EStateM
