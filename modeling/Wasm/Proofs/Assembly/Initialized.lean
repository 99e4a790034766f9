import Wasm.Proofs.Assembly.Accepted
import Wasm.Proofs.Assembly.Declared

/-!
# Initial values in a built module

What tables, memories and globals start with is checked when they are declared,
against the handles that are given. A built module has it in segments and
initialisers, with numbers. Every segment fits into what it fills, and every
value is a constant of the type that is asked for. A global that a value reads
is imported. That it has the type of the handle is not checked; for a handle of
another builder it need not be so.
-/

namespace Wasm

/-! ## Constants in a module -/

namespace Module

variable (m : Module) (Reads : GlobalType → ValType → Prop)

/-- The code is a single instruction for a constant of the type. Which types of
imported globals may be read for one is up to `Reads`. -/
inductive Constant : List Instr → ValType → Prop
  | i32 (value : Int32) : Constant [.mk "i32.const" (.i32 value)] .i32
  | i64 (value : Int64) : Constant [.mk "i64.const" (.i64 value)] .i64
  | f32 (value : Binary32) : Constant [.mk "f32.const" (.f32 value)] .f32
  | f64 (value : Binary64) : Constant [.mk "f64.const" (.f64 value)] .f64
  | v128 (value : V128) : Constant [.mk "v128.const" (.v128 value)] .v128
  | refNull {type : ValType} (isRef : type.isRef = true) :
      Constant [.mk "ref.null" (.refType type)] type
  | refFunc {i : Nat} (known : i < m.importedFuncCount + m.funcs.length) :
      Constant [.mk "ref.func" (.index (UInt32.ofNat i))] .funcRef
  | globalGet {n : UInt32} {read : GlobalType} {type : ValType}
      (known : NumberOf m.importedGlobals read n) (reads : Reads read type) :
      Constant [.mk "global.get" (.index n)] type

variable {m Reads} in
/-- What is known of a global that is read. -/
theorem Constant.exists_read {n : UInt32} {type : ValType}
    (constant : m.Constant Reads [.mk "global.get" (.index n)] type) :
    ∃ read, NumberOf m.importedGlobals read n ∧ Reads read type := by
  generalize same : [Instr.mk "global.get" (.index n)] = code at constant
  cases constant with
  | globalGet known reads =>
      cases same
      exact ⟨_, known, reads⟩
  | _ => simp at same

/-- Every active segment starts at zero and fits into what it fills, and every
entry and initialiser is a constant of the right type. -/
structure Initialized : Prop where
  references : ∀ segment ∈ m.elements, segment.type.isRef = true
  elements : ∀ segment ∈ m.elements, ∀ n offset, segment.mode = .active n offset →
    offset = ModuleBuilder.zeroOffset ∧ ∃ type, NumberOf m.tableTypes type n ∧
      segment.type = type.element ∧ segment.init.length ≤ type.limits.min.toNat
  entries : ∀ segment ∈ m.elements, ∀ code ∈ segment.init, m.Constant Reads code segment.type
  data : ∀ segment ∈ m.data, ∀ n offset, segment.mode = .active n offset →
    offset = ModuleBuilder.zeroOffset ∧ ∃ type, NumberOf m.memoryTypes type n ∧
      segment.init.length ≤ type.limits.min.toNat * ModuleBuilder.pageSize
  globals : ∀ g ∈ m.globals, m.Constant Reads g.init g.type.value

end Module

/-- What goes along with a list has the same numbers. -/
theorem NumberOf.beside {α β : Type} {R : α → β → Prop} {as : List α} {bs : List β} {a : α}
    {n : UInt32} (h : NumberOf as a n) (related : List.Forall₂ R as bs) :
    ∃ y, NumberOf bs y n ∧ R a y := by
  obtain ⟨i, place, rfl⟩ := h
  obtain ⟨y, there, own⟩ := ModuleBuilder.forall₂_getElem? related place
  exact ⟨y, ⟨i, there, rfl⟩, own⟩

namespace ModuleBuilder

variable {b : ModuleBuilder} {roots : Roots} {reach : Reach} {m : Module} {init : ConstExpr}
  {type : ValType}

/-! ## What becomes of initial values -/

/-- Some initial value reads the global of this handle. -/
inductive ReadsGlobal (b : ModuleBuilder) (handle : GlobalHandle) : Prop
  | init {decl : GlobalDecl} (member : decl ∈ b.globals)
      (defined : decl.content = .defined (.globalGet handle))
  | entry {decl : TableDecl} (member : decl ∈ b.tables)
      (listed : .globalGet handle ∈ decl.elements.getD [])

/-- An import has its number among the imports of its class. -/
theorem numberOf_imported {kind : ExternKind} {entity : Entity} {n : UInt32}
    (imported : b.isImported entity = true)
    (number : NumberOf ((b.indexSpace reach).ofKind kind) entity n) :
    NumberOf (((b.indexSpace reach).ofKind kind).filter b.isImported) entity n := by
  obtain ⟨i, place, rfl⟩ := number
  rw [ofKind_split] at place
  by_cases within : i < (((b.indexSpace reach).ofKind kind).filter b.isImported).length
  · rw [List.getElem?_append_left within] at place
    exact ⟨i, place, rfl⟩
  · rw [List.getElem?_append_right (Nat.not_lt.mp within)] at place
    have defined := (List.mem_filter.mp (List.mem_of_getElem? place)).2
    rw [imported] at defined
    cases defined

section Assembled

variable {Reads : GlobalType → ValType → Prop} {code : List Instr} {n : UInt32}
  (built : b.BodiesBuilt) (assembled : b.assemble roots reach = .ok m)

include built assembled

theorem constant_of_names {id : Nat} (named : (b.indexSpace reach).Names (.func id) n) :
    m.Constant Reads [.mk "ref.func" (.index n)] .funcRef := by
  obtain ⟨i, place, rfl⟩ := named
  have inside := (List.getElem?_eq_some_iff.mp place).1
  exact .refFunc (length_funcs_of_assemble built assembled ▸ inside)

/-- A value that was checked is a constant of the module. -/
theorem constant_of_denotes (checks : b.Checks init type)
    (denotes : init.Denotes (b.indexSpace reach).Names code)
    (reads : ∀ handle read, init = .globalGet handle → handle.type.isMutable = false →
      b.GlobalAs ⟨.global, handle.id⟩ read → Reads read handle.type.value) :
    m.Constant Reads code type := by
  obtain ⟨alone, imported, rfl⟩ := checks
  cases init with
  | i32 value =>
      cases denotes
      exact .i32 value
  | i64 value =>
      cases denotes
      exact .i64 value
  | f32 value =>
      cases denotes
      exact .f32 value
  | f64 value =>
      cases denotes
      exact .f64 value
  | v128 value =>
      cases denotes
      exact .v128 value
  | refNull type =>
      cases denotes
      simp only [ConstExpr.check, Except.ite_error_eq_ok] at alone
      exact .refNull alone.1
  | refFunc handle =>
      obtain ⟨n, named, rfl⟩ := denotes
      exact constant_of_names built assembled named
  | globalGet handle =>
      obtain ⟨n, named, rfl⟩ := denotes
      obtain ⟨read, known, declared⟩ := NumberOf.beside
        (numberOf_imported (imported handle rfl) named) (globalAs_of_assemble built assembled)
      simp only [ConstExpr.check, Except.error_ite_eq_ok] at alone
      exact .globalGet known (reads handle read rfl (by simpa using alone) declared)

/-- A segment fills a table or declares the functions that are mentioned. -/
theorem mem_elements_of_assemble {segment : ElementSegment} (member : segment ∈ m.elements) :
    (∃ id, b.FillsTable (b.indexSpace reach).Names ⟨.table, id⟩ segment) ∨
      DeclaresFuncs (b.indexSpace reach).Names reach.mentioned segment := by
  obtain ⟨filled, declared, elements, fills, declares⟩ :=
    (assemble_realizes built assembled).elements
  rw [elements] at member
  rcases List.mem_append.mp member with inside | inside
  · obtain ⟨entity, listed, filledBy⟩ := fills.exists_of_mem_right inside
    obtain ⟨isTable, -⟩ := mem_ofKind_indexSpace.mp (List.mem_filter.mp listed).1
    obtain ⟨kind, id⟩ := entity
    cases isTable
    exact .inl ⟨id, filledBy⟩
  · obtain ⟨ids, listed, declaresIds⟩ := declares.exists_of_mem_right inside
    split at listed
    · cases listed
    · cases List.mem_singleton.mp listed
      exact .inr declaresIds

/-- What fills a table is of its type and leaves none of it over. -/
theorem fits_of_fillsTable (accepted : b.Accepted) {id : Nat} {segment : ElementSegment}
    (fills : b.FillsTable (b.indexSpace reach).Names ⟨.table, id⟩ segment) :
    segment.type.isRef = true ∧ ∃ n type, segment.mode = .active n zeroOffset ∧
      NumberOf m.tableTypes type n ∧ segment.type = type.element ∧
      segment.init.length ≤ type.limits.min.toNat := by
  obtain ⟨decl, elements, n, found, some, named, mode, element, entries⟩ := fills
  obtain ⟨isRef, room, -⟩ := accepted.tables decl (List.mem_of_getElem? found)
  obtain ⟨type, number, decl', found', rfl⟩ :=
    NumberOf.beside named (tableAs_of_assemble built assembled)
  cases found.symm.trans found'
  rw [some, Option.getD_some, entries.length_eq] at room
  exact ⟨element ▸ isRef, n, decl.type, mode, number, element, room⟩

theorem fits_of_mem_data (accepted : b.Accepted) {segment : DataSegment}
    (member : segment ∈ m.data) : ∃ n type, segment.mode = .active n zeroOffset ∧
      NumberOf m.memoryTypes type n ∧
      segment.init.length ≤ type.limits.min.toNat * pageSize := by
  obtain ⟨entity, listed, decl, data, n, found, some, named, mode, rfl⟩ :=
    (assemble_realizes built assembled).data.exists_of_mem_right member
  obtain ⟨isMemory, -⟩ := mem_ofKind_indexSpace.mp (List.mem_filter.mp listed).1
  obtain ⟨kind, id⟩ := entity
  cases isMemory
  obtain ⟨-, room⟩ := accepted.memories decl (List.mem_of_getElem? found)
  obtain ⟨type, number, decl', found', rfl⟩ :=
    NumberOf.beside named (memoryAs_of_assemble built assembled)
  cases found.symm.trans found'
  rw [some, Option.getD_some] at room
  exact ⟨n, decl.type, mode, number, room⟩

theorem initialized_of_assemble (accepted : b.Accepted)
    (reads : ∀ handle read, b.ReadsGlobal handle → handle.type.isMutable = false →
      b.GlobalAs ⟨.global, handle.id⟩ read → Reads read handle.type.value) :
    m.Initialized Reads where
  references segment member := by
    rcases mem_elements_of_assemble built assembled member with ⟨id, fills⟩ | declares
    · exact (fits_of_fillsTable built assembled accepted fills).1
    · rw [declares.2.1]
      rfl
  elements segment member n offset active := by
    rcases mem_elements_of_assemble built assembled member with ⟨id, fills⟩ | declares
    · obtain ⟨-, n', type, mode, number, element, room⟩ :=
        fits_of_fillsTable built assembled accepted fills
      cases active.symm.trans mode
      exact ⟨rfl, type, number, element, room⟩
    · cases active.symm.trans declares.1
  entries segment member code listed := by
    rcases mem_elements_of_assemble built assembled member with ⟨id, fills⟩ | declares
    · obtain ⟨decl, elements, n, found, some, -, -, element, entries⟩ := fills
      obtain ⟨init, given, denotes⟩ := entries.exists_of_mem_right listed
      have inTable : decl ∈ b.tables := List.mem_of_getElem? found
      have given : init ∈ decl.elements.getD [] := some ▸ given
      rw [element]
      refine constant_of_denotes built assembled ((accepted.tables decl inTable).entries init given)
        denotes fun handle read same => reads handle read ?_
      cases same
      exact .entry inTable given
    · obtain ⟨-, type, entries⟩ := declares
      obtain ⟨id, -, n, named, rfl⟩ := entries.exists_of_mem_right listed
      rw [type]
      exact constant_of_names built assembled named
  data segment member n offset active := by
    obtain ⟨n', type, mode, number, room⟩ := fits_of_mem_data built assembled accepted member
    cases active.symm.trans mode
    exact ⟨rfl, type, number, room⟩
  globals g member := by
    obtain ⟨entity, -, decl, init, found, defined, type, denotes⟩ :=
      (assemble_realizes built assembled).globals.exists_of_mem_right member
    have inGlobals : decl ∈ b.globals := List.mem_of_getElem? found
    rw [type]
    refine constant_of_denotes built assembled (accepted.globals decl inGlobals init defined)
      denotes fun handle read same => reads handle read ?_
    cases same
    exact .init inGlobals defined

end Assembled

/-! ## Built modules -/

/-- In a built module every active segment starts at zero and fits into the
table or memory that it fills, and every entry and initialiser is a single
constant instruction of the right type, which reads no global but an imported
one. If the handles that are read have the types of their globals, as those of
the builder do, the imported global is immutable and has the right type, too. -/
theorem build_initialized (reached : b.Reached) (done : b.build roots = .ok m) :
    m.Initialized (fun _ _ => True) ∧
      ((∀ handle, b.ReadsGlobal handle → b.GlobalAs ⟨.global, handle.id⟩ handle.type) →
        m.Initialized fun read type => read = ⟨type, false⟩) := by
  obtain ⟨-, found, followed, assembled⟩ := build_eq_ok.mp done
  have built := reached.bodiesBuilt
  have accepted := reached.accepted
  constructor
  · exact initialized_of_assemble built assembled accepted fun _ _ _ _ _ => trivial
  · intro own
    refine initialized_of_assemble built assembled accepted ?_
    intro handle read used immutable declared
    obtain ⟨decl, known, same⟩ := own handle used
    obtain ⟨decl', known', rfl⟩ := declared
    cases known.symm.trans known'
    rw [same, ← immutable]

/-! ## Examples -/

/-- A global that starts with the value of an imported one, a full table and a
memory with data. -/
def seeded : ModuleBuilder where
  funcs := [⟨⟨[], []⟩, .imported ⟨"m", "f"⟩⟩]
  globals := [⟨⟨.i32, false⟩, .imported ⟨"m", "g"⟩⟩,
    ⟨⟨.i32, true⟩, .defined (.globalGet ⟨0, ⟨.i32, false⟩⟩)⟩]
  tables := [{
    type := { element := .funcRef, limits := { min := 2 } }
    elements := some [.refFunc ⟨0, ⟨[], []⟩⟩, .refNull .funcRef] }]
  memories := [{ type := { limits := { min := 1 } }, data := some [1, 2, 3] }]

def seededRoots : Roots where
  exports := [("x", ⟨.global, 1⟩), ("table", ⟨.table, 0⟩), ("memory", ⟨.memory, 0⟩)]

theorem seeded_reached : seeded.Reached := by
  let imported : ModuleBuilder :=
    { seeded with globals := seeded.globals.take 1, tables := [], memories := [] }
  have withGlobal : imported.global (.globalGet ⟨0, ⟨.i32, false⟩⟩) true =
      .ok (⟨1, ⟨.i32, true⟩⟩, { seeded with tables := [], memories := [] }) :=
    global_eq_ok.mpr ⟨rfl, rfl⟩
  have withTable : ModuleBuilder.table { seeded with tables := [], memories := [] }
      { element := .funcRef, limits := { min := 2 } }
      (some [.refFunc ⟨0, ⟨[], []⟩⟩, .refNull .funcRef]) =
      .ok (⟨0, { element := .funcRef, limits := { min := 2 } }⟩, { seeded with memories := [] }) :=
    addTable_eq_ok.mpr ⟨rfl, rfl, by decide, rfl, rfl⟩
  have withMemory : ModuleBuilder.memory { seeded with memories := [] } { limits := { min := 1 } }
      (some [1, 2, 3]) = .ok (⟨0, { limits := { min := 1 } }⟩, seeded) :=
    addMemory_eq_ok.mpr ⟨by decide, by decide, rfl, rfl⟩
  exact ((((Reached.empty.importFunc _ _).importGlobal _ _).global withGlobal).table
    withTable).memory withMemory

theorem seeded_build : seeded.build seededRoots = .ok {
    types := [⟨[], []⟩]
    imports := [⟨"m", "f", .func 0⟩, ⟨"m", "g", .global ⟨.i32, false⟩⟩]
    tables := [{ element := .funcRef, limits := { min := 2 } }]
    memories := [{ limits := { min := 1 } }]
    globals := [⟨⟨.i32, true⟩, [.mk "global.get" (.index 0)]⟩]
    exports := [⟨"x", .global, 1⟩, ⟨"table", .table, 0⟩, ⟨"memory", .memory, 0⟩]
    elements := [⟨.active 0 zeroOffset, .funcRef,
      [[.mk "ref.func" (.index 0)], [.mk "ref.null" (.refType .funcRef)]]⟩]
    data := [⟨.active 0 zeroOffset, [1, 2, 3]⟩] } := by
  have followed : seeded.follow {} seededRoots.references =
      .ok { entities := [⟨.func, 0⟩, ⟨.global, 0⟩, ⟨.memory, 0⟩, ⟨.table, 0⟩, ⟨.global, 1⟩] } :=
    follow_of_ends (.next (.reached rfl rfl) (.next (.reached rfl rfl) (.next (.reached rfl rfl)
      (.next (.reached rfl rfl) (.next (.reached rfl rfl) .none))))) .done
  exact build_eq_ok.mpr ⟨rfl, _, Except.bind_eq_ok.mpr ⟨_, followed, rfl⟩, rfl⟩

theorem build_initialized_seeded : ∃ m, seeded.build seededRoots = .ok m ∧
    m.Initialized fun read type => read = ⟨type, false⟩ := by
  refine ⟨_, seeded_build, (build_initialized seeded_reached seeded_build).2 fun handle used => ?_⟩
  cases used with
  | init member defined =>
      simp only [seeded, List.mem_cons, List.not_mem_nil, or_false] at member
      rcases member with rfl | rfl
      · cases defined
      · cases defined
        exact ⟨_, rfl, rfl⟩
  | entry member listed =>
      simp only [seeded, List.mem_singleton] at member
      subst member
      simp at listed

/-- The handle of an immutable global of another builder, which has the number
of a mutable global of another type here. -/
def misread : ModuleBuilder where
  globals := [⟨⟨.i64, true⟩, .imported ⟨"m", "h"⟩⟩,
    ⟨⟨.i32, false⟩, .defined (.globalGet ⟨0, ⟨.i32, false⟩⟩)⟩]

theorem misread_reached : misread.Reached := by
  have done : (importGlobal {} ⟨"m", "h"⟩ ⟨.i64, true⟩).2.global (.globalGet ⟨0, ⟨.i32, false⟩⟩)
      false = .ok (⟨1, ⟨.i32, false⟩⟩, misread) := global_eq_ok.mpr ⟨rfl, rfl⟩
  exact (Reached.empty.importGlobal _ _).global done

/-- The type of the handle is not held against that of the global. -/
theorem misread_build : misread.build { exports := [("x", ⟨.global, 1⟩)] } = .ok {
    imports := [⟨"m", "h", .global ⟨.i64, true⟩⟩]
    globals := [⟨⟨.i32, false⟩, [.mk "global.get" (.index 0)]⟩]
    exports := [⟨"x", .global, 1⟩] } := by
  have followed : misread.follow {} [.entity ⟨.global, 1⟩] =
      .ok { entities := [⟨.global, 0⟩, ⟨.global, 1⟩] } := follow_pair rfl rfl rfl
  exact build_eq_ok.mpr ⟨rfl, _, Except.bind_eq_ok.mpr ⟨_, followed, rfl⟩, rfl⟩

theorem not_forall_build_initialized : ¬ ∀ (b : ModuleBuilder) (roots : Roots) (m : Module),
    b.Reached → b.build roots = .ok m → m.Initialized fun read type => read = ⟨type, false⟩ := by
  intro initialized
  have constant := (initialized misread _ _ misread_reached misread_build).globals _
    List.mem_cons_self
  obtain ⟨read, known, rfl⟩ := constant.exists_read
  have place := known.getElem?_toNat (by decide)
  cases place

end ModuleBuilder

end Wasm
