import Wasm.Proofs.Assembly.Content
import Wasm.Proofs.Assembly.Signatures
import Wasm.Proofs.Binary.Bounded

/-!
# Declared types in a built module

An engine holds some rules against a module as a whole: the start function
takes and returns nothing, and the limits of tables and memories make sense.
The builder takes signatures and limits as they are declared, and a built
module has them unchanged. So whether a module obeys these rules is decided by
what its client declared, and nothing on the way to the module checks it.
-/

namespace Wasm

/-! ## Rules for a module as a whole -/

/-- The most pages that a memory can have. -/
def maxPages : Nat := 65536

namespace Limits

/-- A maximum is not below the minimum. -/
def Ordered (limits : Limits) : Prop :=
  ∀ max, limits.max = some max → limits.min ≤ max

/-- Neither the minimum nor a maximum is above the bound. -/
def AtMost (bound : Nat) (limits : Limits) : Prop :=
  limits.min.toNat ≤ bound ∧ ∀ max, limits.max = some max → max.toNat ≤ bound

end Limits

namespace Module

/-- The types of the imported globals. -/
def importedGlobals (m : Module) : List GlobalType :=
  m.imports.filterMap fun i => match i.type with
    | .global type => some type
    | _ => none

/-- The start function takes and returns nothing, tables and memories that have
a maximum begin within it, and memories can be addressed. -/
structure Regular (m : Module) : Prop where
  start : ∀ n, m.start = some n → m.funcType? n.toNat = some ⟨[], []⟩
  tables : ∀ type ∈ m.tableTypes, type.limits.Ordered
  memories : ∀ type ∈ m.memoryTypes, type.limits.Ordered ∧ type.limits.AtMost maxPages

end Module

namespace ModuleBuilder

variable {b : ModuleBuilder} {roots : Roots} {reach : Reach} {m : Module}

/-- The same rules for the declarations of what belongs to the module. -/
structure DeclaresRegular (b : ModuleBuilder) (roots : Roots) : Prop where
  start : ∀ handle, roots.start = some handle → ∀ decl, b.funcs[handle.id]? = some decl →
    decl.type = ⟨[], []⟩
  tables : ∀ entity, entity.kind = .table → b.Belongs roots entity →
    ∀ decl, b.tables[entity.id]? = some decl → decl.type.limits.Ordered
  memories : ∀ entity, entity.kind = .memory → b.Belongs roots entity →
    ∀ decl, b.memories[entity.id]? = some decl →
      decl.type.limits.Ordered ∧ decl.type.limits.AtMost maxPages

/-! ## Types of entities -/

def TableAs (b : ModuleBuilder) (entity : Entity) (type : TableType) : Prop :=
  ∃ decl, b.tables[entity.id]? = some decl ∧ decl.type = type

def MemoryAs (b : ModuleBuilder) (entity : Entity) (type : MemoryType) : Prop :=
  ∃ decl, b.memories[entity.id]? = some decl ∧ decl.type = type

def GlobalAs (b : ModuleBuilder) (entity : Entity) (type : GlobalType) : Prop :=
  ∃ decl, b.globals[entity.id]? = some decl ∧ decl.type = type

section Assembled

variable (built : b.BodiesBuilt) (assembled : b.assemble roots reach = .ok m)

include built assembled

theorem tableAs_of_assemble :
    List.Forall₂ b.TableAs ((b.indexSpace reach).ofKind .table) m.tableTypes := by
  have realized := assemble_realizes built assembled
  rw [ofKind_split]
  refine List.rel_append ?_ (realized.tables.imp fun entity type defined => ?_)
  · refine forall₂_picked (realized.imports .table) (fun entity i isTable made => ?_)
      fun i other => ?_
    · obtain ⟨kind, id⟩ := entity
      cases isTable
      obtain ⟨decl, name, found, -, rfl⟩ := made
      exact ⟨decl.type, rfl, decl, found, rfl⟩
    · cases type : i.type with
      | table =>
          rw [type] at other
          exact absurd rfl other
      | _ => rfl
  · obtain ⟨decl, found, -, same⟩ := defined
    exact ⟨decl, found, same.symm⟩

theorem memoryAs_of_assemble :
    List.Forall₂ b.MemoryAs ((b.indexSpace reach).ofKind .memory) m.memoryTypes := by
  have realized := assemble_realizes built assembled
  rw [ofKind_split]
  refine List.rel_append ?_ (realized.memories.imp fun entity type defined => ?_)
  · refine forall₂_picked (realized.imports .memory) (fun entity i isMemory made => ?_)
      fun i other => ?_
    · obtain ⟨kind, id⟩ := entity
      cases isMemory
      obtain ⟨decl, name, found, -, rfl⟩ := made
      exact ⟨decl.type, rfl, decl, found, rfl⟩
    · cases type : i.type with
      | memory =>
          rw [type] at other
          exact absurd rfl other
      | _ => rfl
  · obtain ⟨decl, found, -, same⟩ := defined
    exact ⟨decl, found, same.symm⟩

theorem globalAs_of_assemble :
    List.Forall₂ b.GlobalAs (((b.indexSpace reach).ofKind .global).filter b.isImported)
      m.importedGlobals := by
  have realized := assemble_realizes built assembled
  refine forall₂_picked (realized.imports .global) (fun entity i isGlobal made => ?_)
    fun i other => ?_
  · obtain ⟨kind, id⟩ := entity
    cases isGlobal
    obtain ⟨decl, name, found, -, rfl⟩ := made
    exact ⟨decl.type, rfl, decl, found, rfl⟩
  · cases type : i.type with
    | global =>
        rw [type] at other
        exact absurd rfl other
    | _ => rfl

end Assembled

/-! ## The start function -/

/-- The function that a module starts with has the signature that it was
declared with. -/
def StartsAs (b : ModuleBuilder) (m : Module) (handle : FuncHandle) (n : UInt32) : Prop :=
  ∃ decl, b.funcs[handle.id]? = some decl ∧ m.funcType? n.toNat = some decl.type

theorem startsAs_of_assemble (built : b.BodiesBuilt) (assembled : b.assemble roots reach = .ok m)
    (fewTypes : m.types.length ≤ 2 ^ 32)
    (fewFuncs : m.importedFuncCount + m.funcs.length ≤ 2 ^ 32) :
    Option.Rel (b.StartsAs m) roots.start m.start := by
  have realized := assemble_realizes built assembled
  have signatures := hasSignature_of_assemble built assembled
  have few := length_funcs_of_assemble built assembled ▸ fewFuncs
  have starts : ∀ handle n, (b.indexSpace reach).Names (.func handle.id) n →
      b.StartsAs m handle n := by
    intro handle n named
    have place := NumberOf.getElem?_toNat named few
    obtain ⟨-, -, decl, found, -⟩ := forall₂_getElem? signatures place
    exact ⟨decl, found, realized.signatures fewTypes _ _ _ place found⟩
  have named := realized.start
  generalize roots.start = start at named ⊢
  generalize m.start = number at named ⊢
  cases named with
  | some named => exact .some (starts _ _ named)
  | none => exact .none

theorem start_iff_of_startsAs (starts : Option.Rel (b.StartsAs m) roots.start m.start) :
    (∀ n, m.start = some n → m.funcType? n.toNat = some ⟨[], []⟩) ↔
      ∀ handle, roots.start = some handle → ∀ decl, b.funcs[handle.id]? = some decl →
        decl.type = ⟨[], []⟩ := by
  generalize roots.start = start at starts ⊢
  generalize m.start = number at starts ⊢
  cases starts with
  | none => exact ⟨nofun, nofun⟩
  | some startsAs =>
      obtain ⟨decl, found, type⟩ := startsAs
      constructor
      · rintro regular handle ⟨⟩ decl' found'
        cases found.symm.trans found'
        exact Option.some.inj (type.symm.trans (regular _ rfl))
      · rintro regular n ⟨⟩
        rw [type, regular _ rfl decl found]

/-! ## Built modules -/

theorem regular_iff_of_assemble (built : b.BodiesBuilt) (followed : b.reach roots = .ok reach)
    (assembled : b.assemble roots reach = .ok m)
    (starts : Option.Rel (b.StartsAs m) roots.start m.start) :
    m.Regular ↔ b.DeclaresRegular roots := by
  have belongs : ∀ {kind entity}, entity ∈ (b.indexSpace reach).ofKind kind ↔
      entity.kind = kind ∧ b.Belongs roots entity := by
    intro kind entity
    rw [mem_ofKind_indexSpace, ← mem_reach_iff built followed]
    exact and_congr_right fun _ => and_iff_right_of_imp (mem_entities_of_reach followed entity)
  have tables : (∀ entity ∈ (b.indexSpace reach).ofKind .table, ∀ decl,
      b.tables[entity.id]? = some decl → decl.type.limits.Ordered) ↔
      ∀ type ∈ m.tableTypes, type.limits.Ordered := by
    refine (tableAs_of_assemble built assembled).forall_mem_iff fun entity type declared => ?_
    obtain ⟨decl, found, rfl⟩ := declared
    simp [found]
  have memories : (∀ entity ∈ (b.indexSpace reach).ofKind .memory, ∀ decl,
      b.memories[entity.id]? = some decl →
        decl.type.limits.Ordered ∧ decl.type.limits.AtMost maxPages) ↔
      ∀ type ∈ m.memoryTypes, type.limits.Ordered ∧ type.limits.AtMost maxPages := by
    refine (memoryAs_of_assemble built assembled).forall_mem_iff fun entity type declared => ?_
    obtain ⟨decl, found, rfl⟩ := declared
    simp [found]
  constructor
  · intro regular
    refine ⟨(start_iff_of_startsAs starts).mp regular.start, fun entity isTable member => ?_,
      fun entity isMemory member => ?_⟩
    · exact tables.mpr regular.tables entity (belongs.mpr ⟨isTable, member⟩)
    · exact memories.mpr regular.memories entity (belongs.mpr ⟨isMemory, member⟩)
  · intro declares
    refine ⟨(start_iff_of_startsAs starts).mpr declares.start, tables.mp fun entity member => ?_,
      memories.mp fun entity member => ?_⟩
    · exact declares.tables entity (belongs.mp member).1 (belongs.mp member).2
    · exact declares.memories entity (belongs.mp member).1 (belongs.mp member).2

/-- The tables and memories of a built module, imported and defined ones, have
the types that they were declared with, and its start function has the
signature that it was declared with. So the module obeys the rules for these
exactly if the declarations that belong to it do. -/
theorem build_keeps_declared (reached : b.Reached) (done : b.build roots = .ok m) :
    ∃ found, b.reach roots = .ok found ∧ b.Numbers found.entities (b.indexSpace found) m ∧
      List.Forall₂ b.TableAs ((b.indexSpace found).ofKind .table) m.tableTypes ∧
      List.Forall₂ b.MemoryAs ((b.indexSpace found).ofKind .memory) m.memoryTypes ∧
      (m.types.length ≤ 2 ^ 32 → m.importedFuncCount + m.funcs.length ≤ 2 ^ 32 →
        Option.Rel (b.StartsAs m) roots.start m.start ∧
        (m.Regular ↔ b.DeclaresRegular roots)) := by
  obtain ⟨-, found, followed, assembled⟩ := build_eq_ok.mp done
  have built := reached.bodiesBuilt
  have realized := assemble_realizes built assembled
  refine ⟨found, followed, numbers_of_realizes followed realized,
    tableAs_of_assemble built assembled, memoryAs_of_assemble built assembled,
    fun fewTypes fewFuncs => ?_⟩
  have starts := startsAs_of_assemble built assembled fewTypes fewFuncs
  exact ⟨starts, regular_iff_of_assemble built followed assembled starts⟩

/-! ## An example -/

/-- A function with a parameter, a table that begins above its maximum and a
memory that is too large. -/
def careless : ModuleBuilder where
  funcs := [⟨⟨[.i32], []⟩, .imported ⟨"m", "f"⟩⟩]
  tables := [{ type := { element := .funcRef, limits := { min := 2, max := some 1 } } }]
  memories := [{ type := { limits := { min := 70000 } } }]

/-- The function is what the module starts with. -/
def carelessRoots : Roots where
  exports := [("table", ⟨.table, 0⟩), ("memory", ⟨.memory, 0⟩)]
  start := some ⟨0, ⟨[.i32], []⟩⟩

theorem careless_reached : careless.Reached := by
  let imported := (importFunc {} ⟨"m", "f"⟩ ⟨[.i32], []⟩).2
  have withTable : imported.table { element := .funcRef, limits := { min := 2, max := some 1 } }
      none = .ok (⟨0, { element := .funcRef, limits := { min := 2, max := some 1 } }⟩,
        { careless with memories := [] }) :=
    addTable_eq_ok.mpr ⟨rfl, rfl, Nat.zero_le _, rfl, rfl⟩
  have withMemory : ModuleBuilder.memory { careless with memories := [] }
      { limits := { min := 70000 } } none = .ok (⟨0, { limits := { min := 70000 } }⟩, careless) :=
    addMemory_eq_ok.mpr ⟨by simp, Nat.zero_le _, rfl, rfl⟩
  exact ((Reached.empty.importFunc _ _).table withTable).memory withMemory

/-- No declaration is refused, and neither is the module. -/
theorem careless_build : careless.build carelessRoots = .ok {
    types := [⟨[.i32], []⟩]
    imports := [⟨"m", "f", .func 0⟩]
    tables := [{ element := .funcRef, limits := { min := 2, max := some 1 } }]
    memories := [{ limits := { min := 70000 } }]
    exports := [⟨"table", .table, 0⟩, ⟨"memory", .memory, 0⟩]
    start := some 0 } := by
  have followed : careless.follow {} carelessRoots.references =
      .ok { entities := [⟨.func, 0⟩, ⟨.memory, 0⟩, ⟨.table, 0⟩] } :=
    follow_of_ends (.next (.reached rfl rfl) (.next (.reached rfl rfl)
      (.next (.reached rfl rfl) .none))) .done
  exact build_eq_ok.mpr ⟨rfl, _, Except.bind_eq_ok.mpr ⟨_, followed, rfl⟩, rfl⟩

theorem build_keeps_declared_careless : ∃ m, careless.build carelessRoots = .ok m ∧
    Option.Rel (careless.StartsAs m) (some ⟨0, ⟨[.i32], []⟩⟩) (some 0) ∧
    (m.Regular ↔ careless.DeclaresRegular carelessRoots) := by
  obtain ⟨-, -, -, -, -, decided⟩ := build_keeps_declared careless_reached careless_build
  exact ⟨_, careless_build, decided (by decide) (by decide)⟩

/-- A built module can break all of the rules at once. -/
theorem careless_irregular : ∃ m, careless.build carelessRoots = .ok m ∧
    (¬ ∀ n, m.start = some n → m.funcType? n.toNat = some ⟨[], []⟩) ∧
    (¬ ∀ type ∈ m.tableTypes, type.limits.Ordered) ∧
    ¬ ∀ type ∈ m.memoryTypes, type.limits.AtMost maxPages := by
  refine ⟨_, careless_build, fun start => ?_, fun tables => ?_, fun memories => ?_⟩
  · cases start 0 rfl
  · exact absurd (tables _ List.mem_cons_self 1 rfl) (by decide)
  · exact absurd (memories _ List.mem_cons_self).1 (by decide)

theorem not_forall_build_regular : ¬ ∀ (b : ModuleBuilder) (roots : Roots) (m : Module),
    b.Reached → b.build roots = .ok m → m.Regular := by
  intro regular
  obtain ⟨m, done, irregular, -, -⟩ := careless_irregular
  exact irregular (regular careless carelessRoots m careless_reached done).start

end ModuleBuilder

end Wasm
