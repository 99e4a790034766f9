import Wasm.Proofs.Assembly.Outcome
import Wasm.Proofs.Assembly.Search

/-!
# What a built module contains

A built module contains the exported entities and the start function, whatever
is mentioned by an entity that it contains, and nothing else, except for the
first memory where code uses a memory and none is exported. Code never names
the memory that it uses, so no memory is contained for another reason. Every
entity that is contained has one place among the imports and definitions of
its class, and every place has an entity.
-/

namespace Wasm

/-! ## Code names no memory -/

theorem InstrDef.memory_not_mem_of_effect {d : InstrDef} {c : Context} {argument : Argument}
    {effect : Effect} (plain : d.typing ≠ .block ∧ d.typing ≠ .conditional)
    (allowed : d.effect c argument = .ok effect) (id : Nat) :
    .entity ⟨.memory, id⟩ ∉ effect.references := by
  obtain ⟨rule, typing, derived⟩ := InstrDef.exists_hasEffect allowed
  cases derived with
  | block => exact absurd typing plain.1
  | ifThen | ifElse => exact absurd typing plain.2
  | _ => simp [Reference.func, Reference.global, Reference.table]

theorem InstrDef.memory_not_mem_structured {type : FuncType} {bodies : List Draft} {id : Nat}
    (inner : .entity ⟨.memory, id⟩ ∉ Draft.allReferences bodies) :
    .entity ⟨.memory, id⟩ ∉ InstrDef.structuredReferences type bodies := by
  rw [InstrDef.structuredReferences, List.mem_append, not_or]
  refine ⟨?_, inner⟩
  split <;> simp

mutual

theorem Call.memory_not_mem_of_makes (id : Nat) : (call : Call) → (draft : Draft) →
    call.Makes draft → .entity ⟨.memory, id⟩ ∉ draft.references
  | .instr name argument, draft, made => by
      obtain ⟨d, c, effect, found, plain, allowed, rfl⟩ := made
      have coherent := InstrSet.standard_coherent d (InstrSet.mem_of_named found).1
      exact InstrDef.memory_not_mem_of_effect (InstrDef.not_structured_of_plain plain coherent)
        allowed id
  | .block name type body, draft, made => by
      obtain ⟨d, c, effect, drafts, -, madeBody, allowed, rfl⟩ := made
      obtain ⟨-, rfl⟩ := d.effect_block allowed
      exact InstrDef.memory_not_mem_structured
        (Call.memory_not_mem_of_allMake id body drafts madeBody)
  | .ifThen type thenBody, draft, made => by
      obtain ⟨d, c, effect, drafts, -, madeBody, allowed, rfl⟩ := made
      obtain ⟨-, rfl⟩ := d.effect_ifThen allowed
      exact InstrDef.memory_not_mem_structured
        (Call.memory_not_mem_of_allMake id thenBody drafts madeBody)
  | .ifElse type thenBody elseBody, draft, made => by
      obtain ⟨d, c, effect, drafts, elseDrafts, -, madeBody, madeElse, allowed, rfl⟩ := made
      obtain ⟨-, rfl⟩ := d.effect_ifElse allowed
      refine InstrDef.memory_not_mem_structured ?_
      rw [Draft.allReferences, List.flatMap_append, List.mem_append, not_or]
      exact ⟨Call.memory_not_mem_of_allMake id thenBody drafts madeBody,
        Call.memory_not_mem_of_allMake id elseBody elseDrafts madeElse⟩

theorem Call.memory_not_mem_of_allMake (id : Nat) : (calls : List Call) → (drafts : List Draft) →
    AllMake calls drafts → .entity ⟨.memory, id⟩ ∉ Draft.allReferences drafts
  | [], drafts, made => by
      cases made
      exact List.not_mem_nil
  | call :: rest, drafts, made => by
      obtain ⟨draft, others, rfl, madeFirst, madeRest⟩ := made
      rw [Draft.allReferences, List.flatMap_cons, List.mem_append, not_or]
      exact ⟨Call.memory_not_mem_of_makes id call draft madeFirst,
        Call.memory_not_mem_of_allMake id rest others madeRest⟩

end

theorem ConstExpr.memory_not_mem_references (init : ConstExpr) (id : Nat) :
    .entity ⟨.memory, id⟩ ∉ init.references := by
  cases init <;> simp [ConstExpr.references, Reference.func, Reference.global]

namespace ModuleBuilder

variable {b : ModuleBuilder} {roots : Roots} {reach found : Reach} {entity other : Entity}

theorem not_memory_of_mentions (built : b.BodiesBuilt) (mentions : b.Mentions entity other) :
    other.kind ≠ .memory := by
  obtain ⟨kind, id⟩ := other
  rintro rfl
  cases mentions with
  | code declared defined inside named =>
      obtain ⟨calls, byCalls⟩ := built _ (List.mem_of_getElem? declared) _ defined
      exact Call.memory_not_mem_of_allMake id calls _ byCalls.allMake
        ((built.accounts declared defined).complete _ inside _ named)
  | init _ _ named => exact ConstExpr.memory_not_mem_references _ id named
  | entry _ _ _ named => exact ConstExpr.memory_not_mem_references _ id named

/-- A memory is needed by itself only if it is exported. -/
theorem exported_of_needed_memory (built : b.BodiesBuilt) (needed : b.Needed roots entity)
    (isMemory : entity.kind = .memory) : ∃ name, (name, entity) ∈ roots.exports := by
  cases needed with
  | exported member => exact ⟨_, member⟩
  | start given => cases isMemory
  | mentioned _ mentions => exact absurd isMemory (not_memory_of_mentions built mentions)

/-! ## What belongs to a module -/

/-- The entity is needed, or it is the first memory and stands in for one that
is used without being exported. -/
def Belongs (b : ModuleBuilder) (roots : Roots) (entity : Entity) : Prop :=
  b.Needed roots entity ∨ entity = ⟨.memory, 0⟩ ∧ b.UsesMemory roots ∧
    ∀ name other, (name, other) ∈ roots.exports → other.kind ≠ .memory

/-- What is found is what is needed. -/
theorem mem_follow_iff (built : b.BodiesBuilt)
    (followed : b.follow {} roots.references = .ok found) :
    entity ∈ found.entities ↔ b.Needed roots entity := by
  constructor
  · intro member
    exact demands_of_leads built
      (((b.follow_outcome roots.references).1 found followed).entities entity member)
  · exact fun needed => has_of_leads followed (leads_of_needed built followed needed)

/-- The first memory is added exactly if code uses one and none is exported. -/
theorem mem_reach_iff (built : b.BodiesBuilt) (followed : b.reach roots = .ok reach) :
    entity ∈ reach.entities ↔ b.Belongs roots entity := by
  obtain ⟨found, searched, more⟩ := Except.bind_eq_ok.mp followed
  have needed : ∀ {e}, e ∈ found.entities ↔ b.Needed roots e := mem_follow_iff built searched
  have uses := needsMemory_iff built searched
  have exported : found.entities.any (·.kind == .memory) = true ↔
      ∃ name other, (name, other) ∈ roots.exports ∧ other.kind = .memory := by
    rw [List.any_eq_true]
    constructor
    · rintro ⟨other, member, isMemory⟩
      obtain ⟨name, listed⟩ :=
        exported_of_needed_memory built (needed.mp member) (beq_iff_eq.mp isMemory)
      exact ⟨name, other, listed, beq_iff_eq.mp isMemory⟩
    · rintro ⟨name, other, listed, isMemory⟩
      exact ⟨other, needed.mpr (.exported listed), beq_iff_eq.mpr isMemory⟩
  rw [withMemory] at more
  by_cases wanting : (found.needsMemory && !found.entities.any (·.kind == .memory)) = true
  · obtain ⟨marked, none⟩ := Bool.and_eq_true_iff.mp wanting
    have noExport : ∀ name other, (name, other) ∈ roots.exports → other.kind ≠ .memory := by
      intro name other listed isMemory
      rw [exported.mpr ⟨name, other, listed, isMemory⟩] at none
      cases none
    rw [if_pos wanting] at more
    split at more
    · cases more
    · cases more
      rw [List.mem_cons, needed, Belongs, or_comm]
      exact or_congr_right (and_iff_left ⟨uses.mp marked, noExport⟩).symm
  · rw [if_neg wanting] at more
    cases more
    rw [needed, Belongs]
    refine ⟨.inl, fun belongs => belongs.resolve_right ?_⟩
    rintro ⟨-, used, noExport⟩
    refine wanting (Bool.and_eq_true_iff.mpr ⟨uses.mpr used, ?_⟩)
    rw [Bool.not_eq_true', Bool.eq_false_iff]
    intro reached
    obtain ⟨name, other, listed, isMemory⟩ := exported.mp reached
    exact noExport name other listed isMemory

/-! ## Places -/

variable {m : Module} {space : IndexSpace} {kind : ExternKind} {n : Nat}

/-- The `i`-th definition of its class is what the entity was declared as. -/
def DefinedAt (b : ModuleBuilder) (N : Reference → UInt32 → Prop) (m : Module) (entity : Entity)
    (i : Nat) : Prop :=
  match entity.kind with
  | .func => ∃ f, m.funcs[i]? = some f ∧ b.DefinesFunc N entity f
  | .table => ∃ type, m.tables[i]? = some type ∧ b.DefinesTable entity type
  | .memory => ∃ type, m.memories[i]? = some type ∧ b.DefinesMemory entity type
  | .global => ∃ g, m.globals[i]? = some g ∧ b.DefinesGlobal N entity g

/-- The entity has the number `n` in its class, and what stands there in the
module, among the imports or behind them among the definitions, is what it was
declared as. -/
structure Stands (b : ModuleBuilder) (space : IndexSpace) (m : Module) (entity : Entity)
    (n : Nat) : Prop where
  numbered : (space.ofKind entity.kind)[n]? = some entity
  imported : b.isImported entity = true →
    ∃ i, (m.importsOf entity.kind)[n]? = some i ∧ b.ImportsAs space.Names entity i
  defined : b.isImported entity = false → (m.importsOf entity.kind).length ≤ n ∧
    b.DefinedAt space.Names m entity (n - (m.importsOf entity.kind).length)

theorem definedAt_of_realized {mentioned : List Nat} {i : Nat}
    (realized : b.Realizes roots mentioned space m)
    (place : ((space.ofKind entity.kind).filter (! b.isImported ·))[i]? = some entity) :
    b.DefinedAt space.Names m entity i := by
  obtain ⟨kind, id⟩ := entity
  cases kind with
  | func => exact forall₂_getElem? realized.funcs place
  | table => exact forall₂_getElem? realized.tables place
  | memory => exact forall₂_getElem? realized.memories place
  | global => exact forall₂_getElem? realized.globals place

/-- What has a number stands in the place of that number. -/
theorem stands_of_numbered {mentioned : List Nat} {reached : List Entity}
    (numbers : b.Numbers reached space m) (realized : b.Realizes roots mentioned space m)
    (place : (space.ofKind entity.kind)[n]? = some entity) : b.Stands space m entity n := by
  obtain ⟨imported, defined, parts, areImports, areDefined, -, -, count, -⟩ :=
    numbers.ordered entity.kind
  have imports : (space.ofKind entity.kind).filter b.isImported = imported := by
    rw [parts, List.filter_append, List.filter_eq_self.mpr areImports,
      List.filter_eq_nil_iff.mpr fun e member => by rw [areDefined e member]; nofun,
      List.append_nil]
  have definitions : (space.ofKind entity.kind).filter (! b.isImported ·) = defined := by
    rw [parts, List.filter_append,
      List.filter_eq_nil_iff.mpr fun e member => by rw [areImports e member]; nofun,
      List.filter_eq_self.mpr fun e member => by rw [areDefined e member]; rfl, List.nil_append]
  have split := place
  rw [parts] at split
  refine ⟨place, fun isImport => ?_, fun isDefined => ?_⟩
  · -- A number behind the imports is that of a definition.
    have within : n < imported.length := by
      by_contra behind
      rw [List.getElem?_append_right (Nat.not_lt.mp behind)] at split
      cases isImport.symm.trans (areDefined entity (List.mem_of_getElem? split))
    rw [List.getElem?_append_left within] at split
    exact forall₂_getElem? (realized.imports entity.kind) (imports ▸ split)
  · have behind : imported.length ≤ n := by
      by_contra within
      rw [List.getElem?_append_left (Nat.not_le.mp within)] at split
      cases (areImports entity (List.mem_of_getElem? split)).symm.trans isDefined
    rw [List.getElem?_append_right behind] at split
    rw [← count]
    exact ⟨behind, definedAt_of_realized realized (definitions ▸ split)⟩

/-- There are as many numbers in a class as imports and definitions. -/
theorem Numbers.length_ofKind {reached : List Entity} (numbers : b.Numbers reached space m)
    (kind : ExternKind) :
    (space.ofKind kind).length = (m.importsOf kind).length + m.definitionCount kind := by
  obtain ⟨imported, defined, parts, -, -, -, -, imports, definitions⟩ := numbers.ordered kind
  rw [parts, List.length_append, imports, definitions]

/-- The search takes no more steps than there are references in the roots and
in all entities, and ends with the answer of `follow`. A built module has a
place for every entity that belongs to it, and only one; no other entity
stands anywhere, and in every place of a class stands exactly one entity. -/
theorem build_contains_exactly (reached : b.Reached) (roots : Roots) :
    (∀ n s, b.Steps n ({}, roots.references) s →
      n ≤ roots.references.length + (b.entities.map b.referenceCount).sum) ∧
    (∃ n s, b.Steps n ({}, roots.references) s ∧ b.Ends s (b.follow {} roots.references)) ∧
    ∀ m, b.build roots = .ok m → ∃ found, b.reach roots = .ok found ∧
      (∀ entity, b.Belongs roots entity ↔ ∃ n, b.Stands (b.indexSpace found) m entity n) ∧
      (∀ entity n n', b.Stands (b.indexSpace found) m entity n →
        b.Stands (b.indexSpace found) m entity n' → n = n') ∧
      ∀ kind n, n < (m.importsOf kind).length + m.definitionCount kind →
        ∃! entity, entity.kind = kind ∧ b.Stands (b.indexSpace found) m entity n := by
  refine ⟨fun n s steps => steps_le steps, b.steps_of_follow {} roots.references,
    fun m done => ?_⟩
  obtain ⟨-, found, followed, assembled⟩ := build_eq_ok.mp done
  have realized := assemble_realizes reached.bodiesBuilt assembled
  have numbers := numbers_of_realizes followed realized
  refine ⟨found, followed, fun entity => ?_, fun entity n n' first second => ?_,
    fun kind n inside => ?_⟩
  · rw [← mem_reach_iff reached.bodiesBuilt followed]
    constructor
    · intro member
      obtain ⟨n, place⟩ := List.mem_iff_getElem?.mp ((numbers.mem _ entity).mpr ⟨rfl, member⟩)
      exact ⟨n, stands_of_numbered numbers realized place⟩
    · rintro ⟨n, stands⟩
      exact ((numbers.mem _ entity).mp (List.mem_of_getElem? stands.numbered)).2
  · have inside := (List.getElem?_eq_some_iff.mp first.numbered).1
    exact (List.getElem?_inj inside (numbers.nodup entity.kind)).mp
      (first.numbered.trans second.numbered.symm)
  · rw [← numbers.length_ofKind] at inside
    obtain ⟨entity, place⟩ : ∃ entity, ((b.indexSpace found).ofKind kind)[n]? = some entity :=
      ⟨_, List.getElem?_eq_getElem inside⟩
    obtain rfl := ((numbers.mem kind entity).mp (List.mem_of_getElem? place)).1
    refine ⟨entity, ⟨rfl, stands_of_numbered numbers realized place⟩, ?_⟩
    rintro other ⟨same, stands⟩
    exact Option.some.inj (stands.numbered.symm.trans (same ▸ place))

/-! ## An example -/

/-- A function that calls the other one and drops what it returns. -/
def ping : FuncDecl := ⟨⟨[], []⟩, .defined ⟨[], [
  ⟨⟨"call", InstrSet.byte 0x10, .index, none, .call, .index⟩, [.func 1], [], [.i32],
    .literal .none⟩,
  ⟨⟨"drop", InstrSet.byte 0x1A, .none, none, .drop, .literal⟩, [], [.i32], [], .literal .none⟩]⟩⟩

/-- A function that calls the first one and returns the size of the memory. -/
def pong : FuncDecl := ⟨⟨[], [.i32]⟩, .defined ⟨[], [
  ⟨⟨"call", InstrSet.byte 0x10, .index, none, .call, .index⟩, [.func 0], [], [], .literal .none⟩,
  ⟨⟨"memory.size", InstrSet.byte 0x3F, .index, some ⟨[], [.i32]⟩, .memory, .index⟩,
    [.memoryUse], [], [.i32], .literal .none⟩]⟩⟩

/-- Two functions that call each other, and a memory. -/
def pingPong : ModuleBuilder where
  funcs := [ping, pong]
  memories := [{ type := { limits := { min := 1 } } }]

theorem pingPong_reached : pingPong.Reached := by
  let buildPong : Construction Unit Unit := do
    let _ ← Construction.instr "call" (.func ⟨0, ⟨[], []⟩⟩) []
    let _ ← Construction.instr "memory.size" .none []
  let buildPing : Construction Unit Unit := do
    let _ ← Construction.instr "call" (.func ⟨1, ⟨[], [.i32]⟩⟩) []
    let _ ← Construction.instr "drop" .none []
  let ahead : ModuleBuilder := { pingPong with funcs := [⟨⟨[], []⟩, .pending⟩] }
  have declared := Reached.empty.declareFunc ⟨[], []⟩
  have stored : (declareFunc {} ⟨[], []⟩).2.memory { limits := { min := 1 } } none =
      .ok (⟨0, { limits := { min := 1 } }⟩, ahead) :=
    addMemory_eq_ok.mpr ⟨by simp, Nat.zero_le _, rfl, rfl⟩
  have first : ahead.func ⟨[], [.i32]⟩ () buildPong =
      (.ok (⟨1, ⟨[], [.i32]⟩⟩, { ahead with funcs := ahead.funcs ++ [pong] }), ()) := rfl
  have second : ModuleBuilder.defineFunc { ahead with funcs := ahead.funcs ++ [pong] }
      ⟨0, ⟨[], []⟩⟩ () buildPing = (.ok pingPong, ()) := rfl
  exact ((declared.memory stored).func
    (.bind (.instr _ _ _) fun _ => .bind (.instr _ _ _) fun _ => .pure ()) first).defineFunc
    (.bind (.instr _ _ _) fun _ => .bind (.instr _ _ _) fun _ => .pure ()) second

theorem pingPong_reach : pingPong.reach { exports := [("run", ⟨.func, 0⟩)] } = .ok {
    entities := [⟨.memory, 0⟩, ⟨.func, 1⟩, ⟨.func, 0⟩]
    needsMemory := true } := by
  have followed : pingPong.follow {} [.entity ⟨.func, 0⟩] =
      .ok { entities := [⟨.func, 1⟩, ⟨.func, 0⟩], needsMemory := true } :=
    follow_of_ends (.next (.reached rfl rfl) (.next (.reached rfl rfl)
      (.next (.seen rfl) (.next .memoryUse .none)))) .done
  exact Except.bind_eq_ok.mpr ⟨_, followed, rfl⟩

/-- Neither the cycle nor the memory that only code asks for is left out. -/
theorem pingPong_build : pingPong.build { exports := [("run", ⟨.func, 0⟩)] } = .ok {
    types := [⟨[], []⟩, ⟨[], [.i32]⟩]
    funcs := [⟨0, [], [.mk "call" (.index 1), .mk "drop" .none]⟩,
      ⟨1, [], [.mk "call" (.index 0), .mk "memory.size" (.index 0)]⟩]
    memories := [{ limits := { min := 1 } }]
    exports := [⟨"run", .func, 0⟩] } :=
  build_eq_ok.mpr ⟨rfl, _, pingPong_reach, rfl⟩

theorem build_contains_exactly_pingPong : ∃ m found,
    pingPong.build { exports := [("run", ⟨.func, 0⟩)] } = .ok m ∧
    pingPong.reach { exports := [("run", ⟨.func, 0⟩)] } = .ok found ∧
    ∀ entity, pingPong.Belongs { exports := [("run", ⟨.func, 0⟩)] } entity ↔
      ∃ n, pingPong.Stands (pingPong.indexSpace found) m entity n := by
  obtain ⟨found, followed, exactly, -⟩ :=
    (build_contains_exactly pingPong_reached _).2.2 _ pingPong_build
  exact ⟨_, found, pingPong_build, followed, exactly⟩

/-! ## A memory that nobody marks -/

/-- A memory, and a function that asks for its size with a number that was written
with the code. -/
def asksUnmarked : ModuleBuilder where
  funcs := [
    ⟨⟨[], [.i32]⟩, .defined ⟨[], [
      ⟨⟨"memory.size", InstrSet.byte 0x3F, .index, some ⟨[], [.i32]⟩, .constant, .literal⟩, [], [],
        [.i32], .literal (.index 0)⟩]⟩⟩]
  memories := [{ type := { limits := { min := 1 } } }]

theorem asksUnmarked_scripted : asksUnmarked.Scripted := by
  let d : InstrDef :=
    ⟨"memory.size", InstrSet.byte 0x3F, .index, some ⟨[], [.i32]⟩, .constant, .literal⟩
  let stored : ModuleBuilder := { memories := asksUnmarked.memories }
  have memory : perform {} (.memory { limits := { min := 1 } } none) = .ok stored := by
    have added : ModuleBuilder.memory {} { limits := { min := 1 } } none =
        .ok (⟨0, { limits := { min := 1 } }⟩, stored) :=
      addMemory_eq_ok.mpr ⟨by simp, Nat.zero_le _, rfl, rfl⟩
    rw [perform, added]
    rfl
  have done : stored.func ⟨[], [.i32]⟩ () (Script.single d (.literal (.index 0))).run =
      (.ok (⟨0, ⟨[], [.i32]⟩⟩, asksUnmarked), ()) := rfl
  exact (Scripted.empty.accepted (.memory _ _) trivial memory).func _ done

theorem asksUnmarked_build : asksUnmarked.build { exports := [("run", ⟨.func, 0⟩)] } = .ok {
    types := [⟨[], [.i32]⟩]
    funcs := [⟨0, [], [.mk "memory.size" (.index 0)]⟩]
    exports := [⟨"run", .func, 0⟩] } := by
  have followed : asksUnmarked.follow {} [.entity ⟨.func, 0⟩] =
      .ok { entities := [⟨.func, 0⟩] } := follow_single rfl
  exact build_eq_ok.mpr ⟨rfl, _, Except.bind_eq_ok.mpr ⟨_, followed, rfl⟩, rfl⟩

/-- Code made by hand can use a memory that is not in the module, although it
belongs there. -/
theorem not_forall_scripted_contains : ¬∀ (b : ModuleBuilder) (roots : Roots) (m : Module),
    b.Scripted → roots.Within b → b.build roots = .ok m → b.Belongs roots ⟨.memory, 0⟩ →
      0 < (m.importsOf .memory).length + m.definitionCount .memory := by
  intro contains
  have uses : asksUnmarked.UsesMemory { exports := [("run", ⟨.func, 0⟩)] } :=
    ⟨0, .exported List.mem_cons_self, _, _, rfl, rfl, _, List.mem_cons_self, rfl⟩
  have belongs : asksUnmarked.Belongs { exports := [("run", ⟨.func, 0⟩)] } ⟨.memory, 0⟩ := by
    refine .inr ⟨rfl, uses, fun name other member => ?_⟩
    cases List.mem_singleton.mp member
    nofun
  have own : Roots.Within { exports := [("run", ⟨.func, 0⟩)] } asksUnmarked :=
    Roots.within_single List.mem_cons_self
  exact absurd (contains _ _ _ asksUnmarked_scripted own asksUnmarked_build belongs) (by decide)

end ModuleBuilder

end Wasm
