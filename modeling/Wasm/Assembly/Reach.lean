import Wasm.Assembly.Declarations

/-!
# Reachable entities

A module consists of what its exports and its start function need. Starting
from these, every entity that is reached adds what its body or initial value
refers to. A body that uses memory reaches no memory by that; if none is
reached otherwise, the first one declared is taken.
-/

namespace Wasm

/-- What the outside asks of a module. -/
structure Roots where
  exports : List (String × Entity) := []
  start : Option FuncHandle := none
deriving Inhabited

/-- The references of the roots, in the order in which they are followed. -/
def Roots.references (roots : Roots) : List Reference :=
  roots.exports.map (fun (_, entity) => .entity entity) ++
    (roots.start.map fun handle => .func handle.id).toList

/-- What was found from the roots. -/
structure Reach where
  /-- The entities that belong to the module. -/
  entities : List Entity := []
  needsMemory : Bool := false
  /-- The functions that code makes references to, in the order in which this
  was seen. -/
  mentioned : List Nat := []
deriving Inhabited

namespace ModuleBuilder

/-- All entities of a class. -/
def entitiesOf (b : ModuleBuilder) (kind : ExternKind) : List Entity :=
  let count := match kind with
    | .func => b.funcs.length
    | .table => b.tables.length
    | .memory => b.memories.length
    | .global => b.globals.length
  (List.range count).map fun id => ⟨kind, id⟩

/-- All entities of a builder. -/
def entities (b : ModuleBuilder) : List Entity :=
  b.entitiesOf .func ++ b.entitiesOf .table ++ b.entitiesOf .memory ++ b.entitiesOf .global

/-- What an entity of the builder refers to. Functions must have their body
by now. -/
def referencesOf (b : ModuleBuilder) (entity : Entity) : Except BuildError (List Reference) :=
  let unknown := .error (.unresolved (.reference (.entity entity)))
  match entity.kind with
  | .func =>
    match b.funcs[entity.id]? with
    | some decl =>
      match decl.content with
      | .defined body => .ok (Draft.allReferences body.code)
      | .imported _ => .ok []
      | .pending => .error (.undefinedFunction entity.id)
    | none => unknown
  | .global =>
    match b.globals[entity.id]? with
    | some decl =>
      match decl.content with
      | .defined init => .ok init.references
      | .imported _ => .ok []
    | none => unknown
  | .table =>
    match b.tables[entity.id]? with
    | some decl => .ok ((decl.elements.getD []).flatMap (·.references))
    | none => unknown
  | .memory =>
    match b.memories[entity.id]? with
    | some _ => .ok []
    | none => unknown

/-- Only entities of the builder have references. -/
theorem mem_entities_of_referencesOf {b : ModuleBuilder} {entity : Entity}
    {references : List Reference} (h : b.referencesOf entity = .ok references) :
    entity ∈ b.entities := by
  obtain ⟨kind, id⟩ := entity
  unfold referencesOf at h
  cases kind <;> simp only at h <;> split at h <;>
    first
    | (rename_i decl found
       have := (List.getElem?_eq_some_iff.mp found).1
       simp [entities, entitiesOf, this])
    | cases h

/-- The number of entities that are still to be reached. -/
def unreached (b : ModuleBuilder) (seen : List Entity) : Nat :=
  b.entities.countP fun entity => !seen.contains entity

/-- Seeing one more member of a list leaves fewer of it unseen. -/
theorem countP_unseen_lt {all seen : List Entity} {entity : Entity} (member : entity ∈ all)
    (new : seen.contains entity = false) :
    (all.countP fun e => !(entity :: seen).contains e) < all.countP fun e => !seen.contains e := by
  have weaker : ∀ rest : List Entity, (rest.countP fun e => !(entity :: seen).contains e) ≤
      rest.countP fun e => !seen.contains e := by
    intro rest
    apply List.countP_mono_left
    intro e _ unseen
    simp_all
  induction all with
  | nil => cases member
  | cons head tail ih =>
    by_cases same : head = entity
    · subst same
      rw [List.countP_cons_of_neg (by simp), List.countP_cons_of_pos (by rw [new]; rfl)]
      exact Nat.lt_succ_of_le (weaker tail)
    · have fewer := ih ((List.mem_cons.mp member).resolve_left fun h => same h.symm)
      have agree : (entity :: seen).contains head = seen.contains head := by
        simp [same]
      rw [List.countP_cons, List.countP_cons, agree]
      omega

/-- Reaching one more entity of the builder leaves fewer to be reached. -/
theorem unreached_lt {b : ModuleBuilder} {seen : List Entity} {entity : Entity}
    {references : List Reference} (known : b.referencesOf entity = .ok references)
    (new : seen.contains entity = false) :
    b.unreached (entity :: seen) < b.unreached seen :=
  countP_unseen_lt (mem_entities_of_referencesOf known) new

/-- Follows references, first come first served, and adds what is found. -/
def follow (b : ModuleBuilder) (reach : Reach) : List Reference → Except BuildError Reach
  | [] => .ok reach
  | .entity entity :: queue =>
    match _ : reach.entities.contains entity with
    | true => b.follow reach queue
    | false =>
      match _ : b.referencesOf entity with
      | .error e => .error e
      | .ok references =>
        b.follow { reach with entities := entity :: reach.entities } (queue ++ references)
  | .signature _ :: queue => b.follow reach queue
  | .memoryUse :: queue => b.follow { reach with needsMemory := true } queue
  | .funcMention id :: queue =>
    let mentioned :=
      if reach.mentioned.contains id then reach.mentioned else reach.mentioned ++ [id]
    b.follow { reach with mentioned } queue
termination_by queue => (b.unreached reach.entities, queue.length)
decreasing_by
  · exact Prod.Lex.right _ (by simp)
  · exact Prod.Lex.left _ _ (unreached_lt ‹_› ‹_›)
  · exact Prod.Lex.right _ (by simp)
  · exact Prod.Lex.right _ (by simp)
  · exact Prod.Lex.right _ (by simp)

/-- Makes sure that there is a memory if code uses one. -/
def withMemory (b : ModuleBuilder) (reach : Reach) : Except BuildError Reach :=
  if reach.needsMemory && !reach.entities.any (·.kind == .memory) then
    if b.memories.isEmpty then .error .missingMemory
    else .ok { reach with entities := ⟨.memory, 0⟩ :: reach.entities }
  else .ok reach

/-- Everything that the roots need. -/
def reach (b : ModuleBuilder) (roots : Roots) : Except BuildError Reach := do
  b.withMemory (← b.follow {} roots.references)

end ModuleBuilder

end Wasm
