import Mathlib.Algebra.GroupWithZero.Nat
import Wasm.Proofs.Assembly.Closure

/-!
# The search takes finitely many steps

The search goes on from one state to the next: what was found so far, and what
is still in the queue. Each step either takes a reference off the queue for
good or spends an entity that was not reached before, so there is a number of
steps that no run exceeds, whether the references go round in circles or not.
Where a run ends is the answer of `follow`.
-/

namespace Wasm.ModuleBuilder

variable {b : ModuleBuilder} {reach found : Reach} {queue : List Reference}

/-- What was found, and what is still to be followed. -/
abbrev SearchState := Reach × List Reference

/-- One step of the search. -/
inductive Step (b : ModuleBuilder) : SearchState → SearchState → Prop
  | seen {reach : Reach} {entity : Entity} {queue : List Reference}
      (old : reach.entities.contains entity = true) :
      Step b (reach, .entity entity :: queue) (reach, queue)
  | reached {reach : Reach} {entity : Entity} {queue references : List Reference}
      (new : reach.entities.contains entity = false)
      (known : b.referencesOf entity = .ok references) :
      Step b (reach, .entity entity :: queue)
        ({ reach with entities := entity :: reach.entities }, queue ++ references)
  | signature {reach : Reach} {type : FuncType} {queue : List Reference} :
      Step b (reach, .signature type :: queue) (reach, queue)
  | memoryUse {reach : Reach} {queue : List Reference} :
      Step b (reach, .memoryUse :: queue) ({ reach with needsMemory := true }, queue)
  | mentioned {reach : Reach} {id : Nat} {queue : List Reference} :
      Step b (reach, .funcMention id :: queue)
        ({ reach with mentioned := if reach.mentioned.contains id then reach.mentioned
            else reach.mentioned ++ [id] }, queue)

/-- So many steps lead from one state to another. -/
inductive Steps (b : ModuleBuilder) : Nat → SearchState → SearchState → Prop
  | none {s : SearchState} : Steps b 0 s s
  | next {n : Nat} {s s₁ s' : SearchState} (first : Step b s s₁) (rest : Steps b n s₁ s') :
      Steps b (n + 1) s s'

/-- How the search ends in a state that has no next one. -/
inductive Ends (b : ModuleBuilder) : SearchState → Except BuildError Reach → Prop
  | done {reach : Reach} : Ends b (reach, []) (.ok reach)
  | failed {reach : Reach} {entity : Entity} {queue : List Reference} {e : BuildError}
      (new : reach.entities.contains entity = false) (unknown : b.referencesOf entity = .error e) :
      Ends b (reach, .entity entity :: queue) (.error e)

/-! ## Finitely many steps -/

/-- The number of references of an entity that says what they are. -/
def referenceCount (b : ModuleBuilder) (entity : Entity) : Nat :=
  match b.referencesOf entity with
  | .ok references => references.length
  | .error _ => 0

/-- What the entities that were not reached yet can still add to the queue. -/
def unspent (b : ModuleBuilder) (seen : List Entity) : Nat :=
  ((b.entities.filter fun entity => !seen.contains entity).map b.referenceCount).sum

/-- The number of steps that can still be taken, at most. -/
def work (b : ModuleBuilder) (s : SearchState) : Nat := s.2.length + b.unspent s.1.entities

/-- Items that are left out of a sum with natural weights. -/
theorem sum_unseen_le {α : Type} [BEq α] [LawfulBEq α] (weight : α → Nat) {all seen : List α}
    {a : α} (member : a ∈ all) (new : seen.contains a = false) :
    weight a + ((all.filter fun x => !(a :: seen).contains x).map weight).sum ≤
      ((all.filter fun x => !seen.contains x).map weight).sum := by
  have fewer : ∀ items : List α, ((items.filter fun x => !(a :: seen).contains x).map weight).sum ≤
      ((items.filter fun x => !seen.contains x).map weight).sum := by
    intro items
    induction items with
    | nil => exact Nat.le_refl _
    | cons head tail ih =>
        by_cases same : head = a
        · subst same
          rw [List.filter_cons_of_neg (by simp), List.filter_cons_of_pos (by simpa using new),
            List.map_cons, List.sum_cons]
          omega
        · have agree : (a :: seen).contains head = seen.contains head := by simp [same]
          rw [List.filter_cons, List.filter_cons, agree]
          split
          · simpa using ih
          · exact ih
  induction all with
  | nil => cases member
  | cons head tail ih =>
      by_cases same : head = a
      · subst same
        have rest := fewer tail
        rw [List.filter_cons_of_neg (by simp), List.filter_cons_of_pos (by simpa using new),
          List.map_cons, List.sum_cons]
        omega
      · have rest := ih ((List.mem_cons.mp member).resolve_left fun h => same h.symm)
        have agree : (a :: seen).contains head = seen.contains head := by simp [same]
        rw [List.filter_cons, List.filter_cons, agree]
        split
        · simp only [List.map_cons, List.sum_cons]
          omega
        · exact rest

/-- Every step leaves less to do. -/
theorem work_lt_of_step {s s' : SearchState} (h : b.Step s s') : b.work s' < b.work s := by
  cases h with
  | seen | signature | memoryUse | mentioned =>
      simp only [work, List.length_cons]
      omega
  | reached new known =>
      rename_i reach entity queue references
      have spent := sum_unseen_le b.referenceCount (mem_entities_of_referencesOf known) new
      have own : b.referenceCount entity = references.length := by rw [referenceCount, known]
      simp only [work, unspent, List.length_cons, List.length_append] at spent ⊢
      omega

theorem steps_le_work {n : Nat} {s s' : SearchState} (h : b.Steps n s s') :
    n + b.work s' ≤ b.work s := by
  induction h with
  | none => omega
  | next first _ ih =>
      have less := work_lt_of_step first
      omega

/-- No more steps than there are references to start with, and references of
all entities of the builder together. -/
theorem steps_le {n : Nat} {s : SearchState} (h : b.Steps n ({}, queue) s) :
    n ≤ queue.length + (b.entities.map b.referenceCount).sum := by
  have all : (b.entities.filter fun entity => !({} : Reach).entities.contains entity) =
      b.entities := List.filter_eq_self.mpr fun _ _ => rfl
  have start : b.work ({}, queue) = queue.length + (b.entities.map b.referenceCount).sum := by
    simp only [work, unspent, all]
  have bounded := steps_le_work h
  omega

/-! ## The answer -/

/-- The search gives its answer in a state that its steps lead to. -/
theorem steps_of_follow (b : ModuleBuilder) (reach : Reach) (queue : List Reference) :
    ∃ n s, b.Steps n (reach, queue) s ∧ b.Ends s (b.follow reach queue) := by
  -- One step in front of a run, where it does not change the answer.
  have further : ∀ {s s' : SearchState}, b.Step s s' → ∀ {answer},
      (∃ n s'', b.Steps n s' s'' ∧ b.Ends s'' answer) →
        ∃ n s'', b.Steps n s s'' ∧ b.Ends s'' answer :=
    fun step _ ⟨n, s'', steps, ends⟩ => ⟨n + 1, s'', .next step steps, ends⟩
  fun_induction follow b reach queue with
  | case1 reach => exact ⟨0, _, .none, .done⟩
  | case2 reach entity queue old ih => exact further (.seen old) ih
  | case3 reach entity queue new e unknown => exact ⟨0, _, .none, .failed new unknown⟩
  | case4 reach entity queue new references known ih => exact further (.reached new known) ih
  | case5 reach type queue ih => exact further .signature ih
  | case6 reach queue ih => exact further .memoryUse ih
  | case7 reach id queue mentioned ih => exact further .mentioned ih

/-- A step does not change the answer. -/
theorem follow_of_step {s s' : SearchState} (h : b.Step s s') :
    b.follow s.1 s.2 = b.follow s'.1 s'.2 := by
  cases h with
  | seen old => exact follow_seen old
  | reached new known => exact follow_new new known
  | signature | memoryUse | mentioned => rw [follow]

/-- Wherever a run ends, that is the answer. -/
theorem follow_of_ends {n : Nat} {s s' : SearchState} {answer : Except BuildError Reach}
    (steps : b.Steps n s s') (ends : b.Ends s' answer) : b.follow s.1 s.2 = answer := by
  induction steps with
  | none =>
      cases ends with
      | done => exact follow_nil
      | failed new unknown => exact follow_failed new unknown
  | next first _ ih => exact (follow_of_step first).trans (ih ends)

end Wasm.ModuleBuilder
