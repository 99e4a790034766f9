import Wasm.Proofs.Assembly.Numbering

/-!
# What following references finds

Following references from a queue finds everything that the queue leads to and
nothing else. It goes wrong only at an entity that it is led to and that says
nothing about what it refers to.
-/

namespace Wasm

namespace Reach

/-- What a reference asks for is there. A signature asks for nothing. -/
def Has (reach : Reach) : Reference → Prop
  | .entity e => e ∈ reach.entities
  | .signature _ => True
  | .memoryUse => reach.needsMemory = true
  | .funcMention id => id ∈ reach.mentioned

/-- Everything that is there satisfies `S`. -/
structure Within (reach : Reach) (S : Reference → Prop) : Prop where
  entities : ∀ entity ∈ reach.entities, S (.entity entity)
  needsMemory : reach.needsMemory = true → S .memoryUse
  mentioned : ∀ id ∈ reach.mentioned, S (.funcMention id)

end Reach

namespace ModuleBuilder

variable {b : ModuleBuilder} {reach reach' found : Reach} {queue queue' : List Reference}

/-! ## One step of the search -/

section Step

variable {entity : Entity}

theorem follow_nil : b.follow reach [] = .ok reach := by
  rw [follow]

theorem follow_seen (seen : reach.entities.contains entity = true) :
    b.follow reach (.entity entity :: queue) = b.follow reach queue := by
  rw [follow]
  split
  · rfl
  · rename_i new
    cases seen.symm.trans new

/-- An entity that is reached for the first time adds what it refers to. -/
theorem follow_new {references : List Reference} (new : reach.entities.contains entity = false)
    (known : b.referencesOf entity = .ok references) :
    b.follow reach (.entity entity :: queue) =
      b.follow { reach with entities := entity :: reach.entities } (queue ++ references) := by
  rw [follow]
  split
  · rename_i seen
    cases new.symm.trans seen
  · split
    · rename_i e failed
      cases known.symm.trans failed
    · rename_i references' found
      cases known.symm.trans found
      rfl

/-- The search ends where an entity does not say what it refers to. -/
theorem follow_failed {e : BuildError} (new : reach.entities.contains entity = false)
    (failed : b.referencesOf entity = .error e) :
    b.follow reach (.entity entity :: queue) = .error e := by
  rw [follow]
  split
  · rename_i seen
    cases new.symm.trans seen
  · split
    · rename_i e' failed'
      cases failed.symm.trans failed'
      rfl
    · rename_i references known
      cases failed.symm.trans known

/-- The search from an entity that refers to nothing. -/
theorem follow_single (ends : b.referencesOf entity = .ok []) :
    b.follow {} [.entity entity] = .ok { entities := [entity] } :=
  (follow_new rfl ends).trans follow_nil

/-- A search that ends at the second entity. -/
theorem follow_pair {second : Entity} (refers : b.referencesOf entity = .ok [.entity second])
    (ends : b.referencesOf second = .ok []) (other : [entity].contains second = false) :
    b.follow {} [.entity entity] = .ok { entities := [second, entity] } := by
  rw [follow_new rfl refers]
  exact (follow_new other ends).trans follow_nil

end Step

/-! ## What a list leads to -/

/-- The references that come up when those of a list are followed. -/
inductive Leads (b : ModuleBuilder) (start : List Reference) : Reference → Prop
  | first {r : Reference} (member : r ∈ start) : Leads b start r
  | next {entity : Entity} {references : List Reference} {r : Reference}
      (led : Leads b start (.entity entity)) (known : b.referencesOf entity = .ok references)
      (member : r ∈ references) : Leads b start r

/-- A function that is mentioned again is not listed again. -/
theorem mem_mentioned {ids : List Nat} {id id' : Nat} :
    id' ∈ (if ids.contains id then ids else ids ++ [id]) ↔ id' ∈ ids ∨ id' = id := by
  split
  · rename_i listed
    refine ⟨.inl, fun h => h.elim (fun before => before) fun same => ?_⟩
    rw [same]
    exact List.contains_iff_mem.mp listed
  · rw [List.mem_append, List.mem_singleton]

/-! ## Nothing else is found -/

/-- What holds of a queue, and of all that is referred to by an entity of which
it holds, holds of whatever is found. -/
theorem within_of_follow {S : Reference → Prop}
    (closed : ∀ entity references, S (.entity entity) → b.referencesOf entity = .ok references →
      ∀ r ∈ references, S r)
    (old : reach.Within S) (new : ∀ r ∈ queue, S r) :
    (∀ found, b.follow reach queue = .ok found → found.Within S) ∧
      ∀ e, b.follow reach queue = .error e →
        ∃ entity, S (.entity entity) ∧ b.referencesOf entity = .error e := by
  fun_induction follow b reach queue with
  | case1 reach =>
      refine ⟨fun found done => ?_, fun e failed => ?_⟩
      · cases done
        exact old
      · cases failed
  | case2 reach entity queue _ ih => exact ih old (List.forall_mem_cons.mp new).2
  | case3 reach entity queue _ e failed =>
      refine ⟨fun found done => ?_, fun e' same => ?_⟩
      · cases done
      · cases same
        exact ⟨entity, (List.forall_mem_cons.mp new).1, failed⟩
  | case4 reach entity queue _ references known ih =>
      obtain ⟨first, rest⟩ := List.forall_mem_cons.mp new
      refine ih { old with entities := List.forall_mem_cons.mpr ⟨first, old.entities⟩ } ?_
      exact List.forall_mem_append.mpr ⟨rest, closed entity references first known⟩
  | case5 reach type queue ih => exact ih old (List.forall_mem_cons.mp new).2
  | case6 reach queue ih =>
      obtain ⟨first, rest⟩ := List.forall_mem_cons.mp new
      exact ih { old with needsMemory := fun _ => first } rest
  | case7 reach id queue mentioned ih =>
      obtain ⟨first, rest⟩ := List.forall_mem_cons.mp new
      refine ih { old with mentioned := fun id' member => ?_ } rest
      rcases mem_mentioned.mp member with before | rfl
      · exact old.mentioned id' before
      · exact first

/-! ## Everything is found -/

/-- Of every entity that is there it is known what it refers to, and what this
asks for is there as well or still in the queue. -/
def Covered (b : ModuleBuilder) (reach : Reach) (queue : List Reference) : Prop :=
  ∀ entity ∈ reach.entities, ∃ references, b.referencesOf entity = .ok references ∧
    ∀ r ∈ references, reach.Has r ∨ r ∈ queue

/-- Between two states of the search nothing was lost. -/
def Keeps (reach : Reach) (queue : List Reference) (reach' : Reach) (queue' : List Reference) :
    Prop :=
  ∀ r, reach.Has r ∨ r ∈ queue → reach'.Has r ∨ r ∈ queue'

theorem Keeps.trans {reach'' : Reach} {queue'' : List Reference}
    (first : Keeps reach queue reach' queue') (second : Keeps reach' queue' reach'' queue'') :
    Keeps reach queue reach'' queue'' :=
  fun r there => second r (first r there)

/-- The front of a queue can go if what it asks for is there. -/
theorem keeps_drop {r : Reference} (there : reach'.Has r)
    (more : ∀ r, reach.Has r → reach'.Has r) : Keeps reach (r :: queue) reach' queue := by
  rintro r' (before | member)
  · exact .inl (more r' before)
  · rcases List.mem_cons.mp member with rfl | later
    · exact .inl there
    · exact .inr later

theorem Covered.keeps (covered : b.Covered reach queue) (kept : Keeps reach queue reach' queue')
    (same : reach'.entities = reach.entities) : b.Covered reach' queue' := by
  intro entity member
  rw [same] at member
  obtain ⟨references, known, there⟩ := covered entity member
  exact ⟨references, known, fun r member => kept r (there r member)⟩

/-- What was there or in the queue is there in the end. -/
theorem keeps_of_follow (followed : b.follow reach queue = .ok found)
    (covered : b.Covered reach queue) :
    Keeps reach queue found [] ∧ b.Covered found [] := by
  fun_induction follow b reach queue with
  | case1 reach =>
      cases followed
      exact ⟨fun _ there => there, covered⟩
  | case2 reach entity queue seen ih =>
      have kept : Keeps reach (.entity entity :: queue) reach queue :=
        keeps_drop (List.contains_iff_mem.mp seen) fun _ h => h
      exact (ih followed (covered.keeps kept rfl)).imp_left kept.trans
  | case3 => cases followed
  | case4 reach entity queue _ references known ih =>
      have kept : Keeps reach (.entity entity :: queue)
          { reach with entities := entity :: reach.entities } (queue ++ references) := by
        have dropped : Keeps reach (.entity entity :: queue)
            { reach with entities := entity :: reach.entities } queue := by
          refine keeps_drop List.mem_cons_self fun r h => ?_
          cases r with
          | entity e => exact List.mem_cons_of_mem _ h
          | _ => exact h
        exact dropped.trans fun r => Or.imp_right (List.mem_append_left _)
      refine (ih followed fun e member => ?_).imp_left kept.trans
      rcases List.mem_cons.mp member with rfl | old
      · exact ⟨references, known, fun r member => .inr (List.mem_append_right _ member)⟩
      · obtain ⟨others, known', there⟩ := covered e old
        exact ⟨others, known', fun r member => kept r (there r member)⟩
  | case5 reach type queue ih =>
      have kept : Keeps reach (.signature type :: queue) reach queue :=
        keeps_drop trivial fun _ h => h
      exact (ih followed (covered.keeps kept rfl)).imp_left kept.trans
  | case6 reach queue ih =>
      have kept : Keeps reach (.memoryUse :: queue) { reach with needsMemory := true } queue := by
        refine keeps_drop rfl fun r h => ?_
        cases r with
        | memoryUse => rfl
        | _ => exact h
      exact (ih followed (covered.keeps kept rfl)).imp_left kept.trans
  | case7 reach id queue mentioned ih =>
      have kept : Keeps reach (.funcMention id :: queue) { reach with mentioned } queue := by
        refine keeps_drop (mem_mentioned.mpr (.inr rfl)) fun r h => ?_
        cases r with
        | funcMention id' => exact mem_mentioned.mpr (.inl h)
        | _ => exact h
      exact (ih followed (covered.keeps kept rfl)).imp_left kept.trans

/-! ## Exactly what is led to is found -/

theorem has_of_leads (followed : b.follow {} queue = .ok found) {r : Reference}
    (led : b.Leads queue r) : found.Has r := by
  obtain ⟨kept, covered⟩ := keeps_of_follow followed nofun
  have settled : ∀ {r}, found.Has r ∨ r ∈ [] → found.Has r :=
    fun h => h.resolve_right List.not_mem_nil
  induction led with
  | first member => exact settled (kept _ (.inr member))
  | next _ known member ih =>
      obtain ⟨references, known', there⟩ := covered _ ih
      cases known.symm.trans known'
      exact settled (there _ member)

/-- All entities that are led to said what they refer to. -/
theorem references_of_leads (followed : b.follow {} queue = .ok found) {entity : Entity}
    (led : b.Leads queue (.entity entity)) :
    ∃ references, b.referencesOf entity = .ok references := by
  obtain ⟨references, known, -⟩ :=
    (keeps_of_follow followed nofun).2 entity (has_of_leads followed led)
  exact ⟨references, known⟩

theorem follow_outcome (b : ModuleBuilder) (queue : List Reference) :
    (∀ found, b.follow {} queue = .ok found → found.Within (b.Leads queue)) ∧
      ∀ e, b.follow {} queue = .error e →
        ∃ entity, b.Leads queue (.entity entity) ∧ b.referencesOf entity = .error e :=
  within_of_follow (fun _ _ led known _ member => .next led known member) ⟨nofun, nofun, nofun⟩
    fun _ member => .first member

end ModuleBuilder

end Wasm
