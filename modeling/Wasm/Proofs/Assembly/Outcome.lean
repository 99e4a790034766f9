import Wasm.Proofs.Assembly.Built
import Wasm.Proofs.Assembly.Complete
import Wasm.Proofs.Body.Everywhere

/-!
# When a module can be built

Building succeeds exactly if the names of the exports are distinct, everything
that the roots need is an entity of the builder, every function among it has a
body or is an import, and there is a memory if code uses one. Otherwise the
error names what is wrong.
-/

namespace Wasm.ModuleBuilder

/-! ## What is needed -/

/-- An entity mentions another one in its code, at any depth, in its initial
value or in the entries it starts with. -/
inductive Mentions (b : ModuleBuilder) : Entity → Entity → Prop
  | code {id : Nat} {decl : FuncDecl} {body : FuncBody} {draft : Draft} {entity : Entity}
      (found : b.funcs[id]? = some decl) (defined : decl.content = .defined body)
      (inside : draft ∈ Draft.everywhere body.code) (named : .entity entity ∈ draft.references) :
      Mentions b ⟨.func, id⟩ entity
  | init {id : Nat} {decl : GlobalDecl} {init : ConstExpr} {entity : Entity}
      (found : b.globals[id]? = some decl) (defined : decl.content = .defined init)
      (named : .entity entity ∈ init.references) : Mentions b ⟨.global, id⟩ entity
  | entry {id : Nat} {decl : TableDecl} {elements : List ConstExpr} {init : ConstExpr}
      {entity : Entity} (found : b.tables[id]? = some decl) (filled : decl.elements = some elements)
      (inside : init ∈ elements) (named : .entity entity ∈ init.references) :
      Mentions b ⟨.table, id⟩ entity

/-- The entities that can be reached from the exports and the start function. -/
inductive Needed (b : ModuleBuilder) (roots : Roots) : Entity → Prop
  | exported {name : String} {entity : Entity} (member : (name, entity) ∈ roots.exports) :
      Needed b roots entity
  | start {handle : FuncHandle} (given : roots.start = some handle) :
      Needed b roots ⟨.func, handle.id⟩
  | mentioned {entity other : Entity} (needed : Needed b roots entity)
      (mentions : b.Mentions entity other) : Needed b roots other

/-- The code of a function has an instruction on the memory, at some depth. -/
def FuncUsesMemory (b : ModuleBuilder) (id : Nat) : Prop :=
  ∃ decl body, b.funcs[id]? = some decl ∧ decl.content = .defined body ∧
    ∃ draft ∈ Draft.everywhere body.code, draft.definition.usesMemory = true

end Wasm.ModuleBuilder

namespace Wasm

/-- The names of the exports are pairwise distinct. -/
def Roots.Distinct (roots : Roots) : Prop :=
  (roots.exports.map (·.1)).Nodup

namespace ModuleBuilder

variable (b : ModuleBuilder) (roots : Roots)

/-- Everything that is needed is an entity of the builder. -/
def Knows : Prop :=
  ∀ entity, b.Needed roots entity → entity ∈ b.entities

/-- The functions that are needed have a body or are imports. -/
def Defines : Prop :=
  ∀ id decl, b.Needed roots ⟨.func, id⟩ → b.funcs[id]? = some decl →
    (∃ body, decl.content = .defined body) ∨ ∃ name, decl.content = .imported name

/-- Code that is needed uses memory. -/
def UsesMemory : Prop :=
  ∃ id, b.Needed roots ⟨.func, id⟩ ∧ b.FuncUsesMemory id

/-- The conditions under which a module can be built. -/
structure Buildable : Prop where
  distinct : roots.Distinct
  knows : b.Knows roots
  defines : b.Defines roots
  memory : b.UsesMemory roots → b.memories ≠ []

/-- Which error is right. Names come first, missing memory comes last. -/
def Explains : BuildError → Prop
  | .duplicateExport name => 2 ≤ (roots.exports.map (·.1)).count name
  | .undefinedFunction id => roots.Distinct ∧ b.Needed roots ⟨.func, id⟩ ∧
      ∃ decl, b.funcs[id]? = some decl ∧ decl.content = .pending
  | .unresolved (.reference (.entity entity)) =>
      roots.Distinct ∧ b.Needed roots entity ∧ entity ∉ b.entities
  | .missingMemory => roots.Distinct ∧ b.Knows roots ∧ b.Defines roots ∧ b.UsesMemory roots ∧
      b.memories = []
  | _ => False

variable {b : ModuleBuilder} {roots : Roots} {found : Reach} {entity : Entity}

/-! ## What references amount to -/

/-- What it says about the roots that a reference comes up. -/
def Demands (b : ModuleBuilder) (roots : Roots) : Reference → Prop
  | .entity entity => b.Needed roots entity
  | .signature _ => True
  | .memoryUse => b.UsesMemory roots
  | .funcMention id => b.Needed roots ⟨.func, id⟩

theorem BodiesBuilt.accounts (built : b.BodiesBuilt) {id : Nat} {decl : FuncDecl}
    {body : FuncBody} (declared : b.funcs[id]? = some decl)
    (defined : decl.content = .defined body) :
    Accounts (Draft.allReferences body.code) (Draft.everywhere body.code) := by
  obtain ⟨calls, byCalls⟩ := built decl (List.mem_of_getElem? declared) body defined
  exact Call.accounts_of_allMake calls body.code byCalls.allMake

theorem demands_of_code (built : b.BodiesBuilt) {id : Nat} {decl : FuncDecl} {body : FuncBody}
    (needed : b.Needed roots ⟨.func, id⟩) (declared : b.funcs[id]? = some decl)
    (defined : decl.content = .defined body) :
    ∀ r ∈ Draft.allReferences body.code, b.Demands roots r := by
  have accounts := built.accounts declared defined
  have mentions : ∀ other, .entity other ∈ Draft.allReferences body.code →
      b.Needed roots other := by
    intro other named
    obtain ⟨draft, top, named⟩ := List.mem_flatMap.mp named
    exact .mentioned needed (.code declared defined (Draft.mem_everywhere top) named)
  intro r named
  cases r with
  | entity other => exact mentions other named
  | signature type => trivial
  | memoryUse => exact ⟨id, needed, decl, body, declared, defined, accounts.memory.mp named⟩
  | funcMention id' => exact mentions ⟨.func, id'⟩ (accounts.mention id' named)

theorem demands_of_const {init : ConstExpr}
    (mentions : ∀ other, .entity other ∈ init.references → b.Needed roots other) :
    ∀ r ∈ init.references, b.Demands roots r := by
  intro r named
  cases init with
  | refFunc | globalGet =>
      cases List.mem_singleton.mp named
      exact mentions _ named
  | _ => cases named

theorem demands_of_referencesOf (built : b.BodiesBuilt) {references : List Reference}
    (needed : b.Needed roots entity) (known : b.referencesOf entity = .ok references) :
    ∀ r ∈ references, b.Demands roots r := by
  obtain ⟨kind, id⟩ := entity
  unfold referencesOf at known
  cases kind with
  | func =>
      simp only at known
      split at known
      · rename_i decl declared
        split at known <;> cases known
        · exact demands_of_code built needed declared ‹_›
        · exact List.forall_mem_nil _
      · cases known
  | global =>
      simp only at known
      split at known
      · rename_i decl declared
        split at known <;> cases known
        · exact demands_of_const fun other named => .mentioned needed (.init declared ‹_› named)
        · exact List.forall_mem_nil _
      · cases known
  | table =>
      simp only at known
      split at known
      · rename_i decl declared
        cases known
        intro r named
        obtain ⟨init, inside, named⟩ := List.mem_flatMap.mp named
        cases filled : decl.elements with
        | none =>
            rw [filled] at inside
            cases inside
        | some elements =>
            rw [filled] at inside
            exact demands_of_const (fun other named =>
              .mentioned needed (.entry declared filled inside named)) r named
      · cases known
  | memory =>
      simp only at known
      split at known <;> cases known
      exact List.forall_mem_nil _

/-- Whatever comes up has a reason in the roots. -/
theorem demands_of_leads (built : b.BodiesBuilt) {r : Reference}
    (led : b.Leads roots.references r) : b.Demands roots r := by
  induction led with
  | first member =>
      rcases List.mem_append.mp member with exported | started
      · obtain ⟨root, among, rfl⟩ := List.mem_map.mp exported
        exact .exported among
      · cases given : roots.start with
        | none =>
            rw [given] at started
            cases started
        | some handle =>
            rw [given] at started
            cases List.mem_singleton.mp started
            exact .start given
  | next _ known member ih => exact demands_of_referencesOf built ih known _ member

/-- A mention is among what an entity says it refers to. -/
theorem mem_referencesOf (built : b.BodiesBuilt) {references : List Reference} {other : Entity}
    (known : b.referencesOf entity = .ok references) (mentions : b.Mentions entity other) :
    .entity other ∈ references := by
  cases mentions with
  | code declared defined inside named =>
      simp only [referencesOf, declared, defined, Except.ok.injEq] at known
      exact known ▸ (built.accounts declared defined).complete _ inside _ named
  | init declared defined named =>
      simp only [referencesOf, declared, defined, Except.ok.injEq] at known
      exact known ▸ named
  | entry declared filled inside named =>
      simp only [referencesOf, declared, filled, Except.ok.injEq] at known
      exact known ▸ List.mem_flatMap.mpr ⟨_, inside, named⟩

/-- Whatever is needed comes up, as long as the search does not fail. -/
theorem leads_of_needed (built : b.BodiesBuilt)
    (followed : b.follow {} roots.references = .ok found) (needed : b.Needed roots entity) :
    b.Leads roots.references (.entity entity) := by
  induction needed with
  | exported member => exact .first (List.mem_append_left _ (List.mem_map_of_mem member))
  | start given =>
      refine .first (List.mem_append_right _ ?_)
      rw [given]
      exact List.mem_singleton_self _
  | mentioned _ mentions ih =>
      obtain ⟨references, known⟩ := references_of_leads followed ih
      exact .next ih known (mem_referencesOf built known mentions)

/-! ## The search -/

theorem needsMemory_iff (built : b.BodiesBuilt)
    (followed : b.follow {} roots.references = .ok found) :
    found.needsMemory = true ↔ b.UsesMemory roots := by
  constructor
  · intro marked
    exact demands_of_leads built (((b.follow_outcome roots.references).1 found followed).needsMemory
      marked)
  · rintro ⟨id, needed, decl, body, declared, defined, uses⟩
    have led := leads_of_needed built followed needed
    obtain ⟨references, known⟩ := references_of_leads followed led
    have own : Draft.allReferences body.code = references := by
      simpa only [referencesOf, declared, defined, Except.ok.injEq] using known
    have marked : .memoryUse ∈ references :=
      own ▸ (built.accounts declared defined).memory.mpr uses
    exact has_of_leads followed (.next led known marked)

theorem knows_of_follow (built : b.BodiesBuilt)
    (followed : b.follow {} roots.references = .ok found) : b.Knows roots := by
  intro entity needed
  obtain ⟨references, known⟩ := references_of_leads followed (leads_of_needed built followed needed)
  exact mem_entities_of_referencesOf known

theorem defines_of_follow (built : b.BodiesBuilt)
    (followed : b.follow {} roots.references = .ok found) : b.Defines roots := by
  intro id decl needed declared
  obtain ⟨references, known⟩ := references_of_leads followed (leads_of_needed built followed needed)
  simp only [referencesOf, declared] at known
  cases content : decl.content with
  | pending =>
      simp only [content] at known
      cases known
  | defined body => exact .inl ⟨body, rfl⟩
  | imported name => exact .inr ⟨name, rfl⟩

/-- Only functions without a body and entities of other builders say nothing
about what they refer to. -/
theorem referencesOf_eq_error {e : BuildError} (failed : b.referencesOf entity = .error e) :
    (e = .unresolved (.reference (.entity entity)) ∧ entity ∉ b.entities) ∨
      e = .undefinedFunction entity.id ∧ entity.kind = .func ∧
        ∃ decl, b.funcs[entity.id]? = some decl ∧ decl.content = .pending := by
  obtain ⟨kind, id⟩ := entity
  unfold referencesOf at failed
  cases kind with
  | func =>
      simp only at failed
      split at failed
      · rename_i decl declared
        split at failed <;> cases failed
        exact .inr ⟨rfl, rfl, decl, declared, ‹_›⟩
      · rename_i missing
        cases failed
        exact .inl ⟨rfl, by simpa [entities, entitiesOf] using missing⟩
  | global =>
      simp only at failed
      split at failed
      · split at failed <;> cases failed
      · rename_i missing
        cases failed
        exact .inl ⟨rfl, by simpa [entities, entitiesOf] using missing⟩
  | table | memory =>
      simp only at failed
      split at failed
      · cases failed
      · rename_i missing
        cases failed
        exact .inl ⟨rfl, by simpa [entities, entitiesOf] using missing⟩

theorem closed_of_follow (built : b.BodiesBuilt)
    (followed : b.follow {} roots.references = .ok found) : b.Closed roots found where
  roots entity member := has_of_leads followed (.first member)
  covered entity member := by
    obtain ⟨references, known, there⟩ := (keeps_of_follow followed nofun).2 entity member
    exact ⟨references, known, fun other named => (there _ named).resolve_right List.not_mem_nil⟩
  mentioned id member := by
    have led := ((b.follow_outcome roots.references).1 found followed).mentioned id member
    exact has_of_leads followed (leads_of_needed built followed (demands_of_leads built led))

/-- Adding an entity that refers to nothing. -/
theorem Closed.add (closed : b.Closed roots found) (nothing : b.referencesOf entity = .ok []) :
    b.Closed roots { found with entities := entity :: found.entities } where
  roots other member := List.mem_cons_of_mem _ (closed.roots other member)
  covered := List.forall_mem_cons.mpr ⟨⟨[], nothing, nofun⟩, fun other member => by
    obtain ⟨references, known, there⟩ := closed.covered other member
    exact ⟨references, known, fun _ named => List.mem_cons_of_mem _ (there _ named)⟩⟩
  mentioned id member := List.mem_cons_of_mem _ (closed.mentioned id member)

/-- A memory that was reached is one of the builder. -/
theorem memories_of_reached (closed : b.Closed roots found)
    (reached : found.entities.any (·.kind == .memory) = true) : b.memories ≠ [] := by
  obtain ⟨entity, member, isMemory⟩ := List.any_eq_true.mp reached
  obtain ⟨references, known, -⟩ := closed.covered entity member
  have inClass : entity ∈ b.entitiesOf .memory :=
    mem_entitiesOf.mpr ⟨mem_entities_of_referencesOf known, beq_iff_eq.mp isMemory⟩
  intro none
  rw [entitiesOf, none] at inClass
  cases inClass

/-- What the memories add to the search. -/
theorem withMemory_outcome (built : b.BodiesBuilt)
    (followed : b.follow {} roots.references = .ok found) :
    (∃ reach, b.withMemory found = .ok reach ∧ b.Closed roots reach ∧
        (b.UsesMemory roots → b.memories ≠ [])) ∨
      b.withMemory found = .error .missingMemory ∧ b.UsesMemory roots ∧ b.memories = [] := by
  have closed := closed_of_follow built followed
  have uses := needsMemory_iff built followed
  unfold withMemory
  by_cases wanting : (found.needsMemory && !found.entities.any (·.kind == .memory)) = true
  · rw [if_pos wanting]
    cases memories : b.memories with
    | nil => exact .inr ⟨rfl, uses.mp (Bool.and_eq_true_iff.mp wanting).1, rfl⟩
    | cons first rest =>
        have nothing : b.referencesOf ⟨.memory, 0⟩ = .ok [] := by simp [referencesOf, memories]
        exact .inl ⟨_, rfl, closed.add nothing, fun _ => List.cons_ne_nil first rest⟩
  · rw [if_neg wanting]
    refine .inl ⟨found, rfl, closed, fun usesMemory => memories_of_reached closed ?_⟩
    simpa [uses.mpr usesMemory] using wanting

/-! ## Names of exports -/

theorem firstRepeated_eq_none {seen names : List String} :
    firstRepeated seen names = none ↔ names.Nodup ∧ ∀ name ∈ names, name ∉ seen := by
  induction names generalizing seen with
  | nil => simp [firstRepeated]
  | cons name rest ih =>
      rw [firstRepeated, List.nodup_cons, List.forall_mem_cons]
      by_cases old : name ∈ seen
      · simp [old]
      · rw [if_neg (by simpa using old), ih]
        simp only [List.mem_cons, not_or]
        constructor
        · rintro ⟨distinct, new⟩
          exact ⟨⟨fun again => (new name again).1 rfl, distinct⟩, old, fun n h => (new n h).2⟩
        · rintro ⟨⟨once, distinct⟩, -, new⟩
          exact ⟨distinct, fun n h => ⟨fun same => once (same ▸ h), new n h⟩⟩

theorem firstRepeated_eq_some {seen names : List String} {name : String}
    (found : firstRepeated seen names = some name) :
    name ∈ names ∧ (name ∉ seen → 2 ≤ names.count name) := by
  induction names generalizing seen with
  | nil => cases found
  | cons head rest ih =>
      rw [firstRepeated] at found
      split at found
      · rename_i old
        cases found
        exact ⟨List.mem_cons_self, fun new => absurd (List.contains_iff_mem.mp old) new⟩
      · obtain ⟨later, twice⟩ := ih found
        refine ⟨List.mem_cons_of_mem _ later, fun new => ?_⟩
        by_cases same : head = name
        · rw [same, List.count_cons_self]
          have := List.one_le_count_iff.mpr later
          omega
        · rw [List.count_cons_of_ne (fun h => same h)]
          exact twice (by simp [new, Ne.symm same])

/-! ## The outcome -/

theorem not_buildable_of_explains {e : BuildError} (explained : b.Explains roots e) :
    ¬b.Buildable roots := by
  intro buildable
  unfold Explains at explained
  split at explained
  · rename_i name
    have once := List.nodup_iff_count_le_one.mp buildable.distinct name
    omega
  · obtain ⟨-, needed, decl, declared, pending⟩ := explained
    rcases buildable.defines _ decl needed declared with ⟨_, other⟩ | ⟨_, other⟩ <;>
      cases pending.symm.trans other
  · exact explained.2.2 (buildable.knows _ explained.2.1)
  · exact buildable.memory explained.2.2.2.1 explained.2.2.2.2
  · exact explained

/-- Either the conditions hold and there is a module, or the error explains
which one fails. -/
theorem build_cases (built : b.BodiesBuilt) (roots : Roots) :
    (∃ m, b.build roots = .ok m) ∧ b.Buildable roots ∨
      ∃ e, b.build roots = .error e ∧ b.Explains roots e := by
  rw [build]
  cases repeated : firstRepeated [] (roots.exports.map (·.1)) with
  | some name =>
      exact .inr ⟨_, rfl, (firstRepeated_eq_some repeated).2 List.not_mem_nil⟩
  | none =>
      have distinct : roots.Distinct := (firstRepeated_eq_none.mp repeated).1
      simp only [reach]
      cases followed : b.follow {} roots.references with
      | error e =>
          obtain ⟨entity, led, failed⟩ := (b.follow_outcome roots.references).2 e followed
          have needed : b.Needed roots entity := demands_of_leads built led
          refine .inr ⟨e, rfl, ?_⟩
          rcases referencesOf_eq_error failed with ⟨rfl, missing⟩ | ⟨rfl, isFunc, pending⟩
          · exact ⟨distinct, needed, missing⟩
          · obtain ⟨kind, id⟩ := entity
            cases isFunc
            exact ⟨distinct, needed, pending⟩
      | ok found =>
          have knows := knows_of_follow built followed
          have defines := defines_of_follow built followed
          rcases withMemory_outcome built followed with ⟨reach, done, closed, memory⟩ |
            ⟨failed, uses, none⟩
          · obtain ⟨m, assembled⟩ := closed.exists_assemble built
            refine .inl ⟨⟨m, ?_⟩, distinct, knows, defines, memory⟩
            rw [Except.ok_bind, done]
            exact assembled
          · refine .inr ⟨.missingMemory, ?_, distinct, knows, defines, uses, none⟩
            rw [Except.ok_bind, failed]
            rfl

/-- A module is built exactly if the conditions for it hold. Otherwise the
error explains which one fails, a repeated name before anything else and
missing memory after everything else. -/
theorem build_outcome (reached : b.Reached) (roots : Roots) :
    ((∃ m, b.build roots = .ok m) ↔ b.Buildable roots) ∧
      ∀ e, b.build roots = .error e → b.Explains roots e := by
  rcases build_cases reached.bodiesBuilt roots with ⟨⟨m, done⟩, buildable⟩ | ⟨e, failed, explained⟩
  · refine ⟨⟨fun _ => buildable, fun _ => ⟨m, done⟩⟩, fun e failed => ?_⟩
    cases done.symm.trans failed
  · refine ⟨⟨fun ⟨m, done⟩ => ?_, fun buildable => ?_⟩, fun e' failed' => ?_⟩
    · cases done.symm.trans failed
    · exact absurd buildable (not_buildable_of_explains explained)
    · cases failed.symm.trans failed'
      exact explained

end ModuleBuilder

end Wasm
