import Wasm.Proofs.Assembly.Accepted
import Wasm.Proofs.Assembly.Built
import Wasm.Proofs.Binary.RoundTrip
import Wasm.Proofs.Body.Linkable

/-!
# Built modules survive the wire

What `build` returns makes sense as a binary module: its code is well-formed,
its tables hold references, its shared memories state a maximum, and it says
nothing about the number of data segments. So but for its size it can be
written, and it is read back as it was.
-/

namespace Wasm

namespace ModuleBuilder

variable {b : ModuleBuilder} {roots : Roots} {reach : Reach} {space : IndexSpace} {m : Module}

/-! ## Declarations that passed their checks -/

/-- What the checks of a declaration leave to be relied on. -/
structure Checked (b : ModuleBuilder) : Prop where
  tables : ∀ decl ∈ b.tables, decl.type.element.isRef = true ∧
    ∀ init ∈ decl.elements.getD [], init.check = .ok ()
  memories : ∀ decl ∈ b.memories, decl.type.Representable
  globals : ∀ decl ∈ b.globals, ∀ init, decl.content = .defined init → init.check = .ok ()

theorem representable_of_bounded {type : MemoryType}
    (bounded : ¬(type.shared = true ∧ type.limits.max.isNone = true)) : type.Representable := by
  intro shared
  cases found : type.limits.max with
  | none => exact absurd ⟨shared, by rw [found]; rfl⟩ bounded
  | some max => rfl

theorem Reached.checked (h : b.Reached) : b.Checked := by
  have accepted := h.accepted
  refine ⟨fun decl member => ?_, fun decl member => ?_, fun decl member init defined => ?_⟩
  · obtain ⟨isRef, -, entries⟩ := accepted.tables decl member
    exact ⟨isRef, fun init listed => (entries init listed).alone⟩
  · exact representable_of_bounded (accepted.memories decl member).bounded
  · exact (accepted.globals decl member init defined).alone

/-! ## Code -/

/-- The code of a body that calls wrote. -/
theorem wellFormed_of_linkBody {type : FuncType} {calls : List Call} {body : FuncBody}
    {code : List Instr} (built : FuncBody.BuiltBy type calls body)
    (linked : space.linkBody body.code = .ok code) : Instr.AllWellFormed code := by
  obtain ⟨indices, numbered, linkedAll⟩ := Except.bind_eq_ok.mp linked
  have count := (Except.mapM_eq_ok.mp numbered).length_eq.symm
  obtain ⟨code', linked', formed⟩ :=
    Call.linkAll_of_allMake calls body.code indices built.allMake count
  cases linkedAll.symm.trans linked'
  exact formed

/-- A constant expression is one instruction. -/
theorem representable_of_linkConst {init : ConstExpr} {code : List Instr}
    (checked : init.check = .ok ()) (linked : space.linkConst init = .ok code) :
    RepresentableExpr code := by
  cases init with
  | refFunc handle | globalGet handle =>
      obtain ⟨n, -, same⟩ := Except.bind_eq_ok.mp linked
      cases same
      exact ⟨⟨⟨_, rfl, rfl⟩, trivial⟩, trivial⟩
  | refNull type =>
      cases linked
      simp only [ConstExpr.check, Except.ite_error_eq_ok] at checked
      exact ⟨⟨⟨_, rfl, rfl⟩, checked.1⟩, trivial⟩
  | _ =>
      cases linked
      exact ⟨⟨⟨_, rfl, rfl⟩, trivial⟩, trivial⟩

/-! ## Imports and definitions -/

/-- A part of a module that the format can represent, but for its size. -/
def Part.WellFormed : Part → Prop
  | .imported i => i.type.Representable
  | .func f => Instr.AllWellFormed f.body
  | .table type => type.Representable
  | .memory type => type.Representable
  | .global g => RepresentableExpr g.init

theorem wellFormed_of_part (reached : b.Reached) {entity : Entity} {part : Part}
    (made : b.part space entity = .ok part) : part.WellFormed := by
  obtain ⟨kind, id⟩ := entity
  have checked := reached.checked
  unfold ModuleBuilder.part at made
  cases kind with
  | func =>
      simp only at made
      split at made
      · rename_i decl found
        obtain ⟨typeIndex, -, made⟩ := Except.bind_eq_ok.mp made
        split at made
        · cases made
          trivial
        · rename_i body content
          obtain ⟨code, linked, same⟩ := Except.bind_eq_ok.mp made
          cases same
          obtain ⟨calls, built⟩ :=
            reached.bodiesBuilt decl (List.mem_of_getElem? found) body content
          exact wellFormed_of_linkBody built linked
        · cases made
      · cases made
  | table =>
      simp only at made
      split at made
      · rename_i decl found
        have isRef := (checked.tables decl (List.mem_of_getElem? found)).1
        split at made <;> cases made <;> exact isRef
      · cases made
  | memory =>
      simp only at made
      split at made
      · rename_i decl found
        have bounded := checked.memories decl (List.mem_of_getElem? found)
        split at made <;> cases made <;> exact bounded
      · cases made
  | global =>
      simp only at made
      split at made
      · rename_i decl found
        split at made
        · cases made
          trivial
        · rename_i init content
          obtain ⟨code, linked, same⟩ := Except.bind_eq_ok.mp made
          cases same
          have known := checked.globals decl (List.mem_of_getElem? found) init content
          exact representable_of_linkConst known linked
      · cases made

/-! ## Segments -/

theorem representable_zeroOffset : RepresentableExpr zeroOffset :=
  ⟨⟨⟨_, rfl, rfl⟩, trivial⟩, trivial⟩

/-- A segment that the format can represent, but for the number of its entries. -/
structure WellFormedSegment (segment : ElementSegment) : Prop where
  mode : segment.mode.Representable
  type : segment.type.isRef = true
  init : ∀ entry ∈ segment.init, RepresentableExpr entry

theorem wellFormed_of_tableSegment (checked : b.Checked) {entity : Entity}
    {segment : ElementSegment} (made : b.tableSegment space entity = .ok (some segment)) :
    WellFormedSegment segment := by
  unfold tableSegment at made
  split at made
  · rename_i decl found
    obtain ⟨isRef, entries⟩ := checked.tables decl (List.mem_of_getElem? found)
    split at made
    · rename_i elements filled
      obtain ⟨index, -, made⟩ := Except.bind_eq_ok.mp made
      obtain ⟨init, linked, same⟩ := Except.bind_eq_ok.mp made
      cases same
      refine ⟨representable_zeroOffset, isRef, fun entry member => ?_⟩
      obtain ⟨const, known, linked⟩ := Except.exists_of_mem_mapM linked member
      exact representable_of_linkConst (entries const (by rw [filled]; exact known)) linked
    · cases made
  · cases made

theorem wellFormed_of_mentionSegment {mentioned : List Nat} {segment : ElementSegment}
    (made : mentionSegment space mentioned = .ok (some segment)) : WellFormedSegment segment := by
  unfold mentionSegment at made
  split at made
  · cases made
  · obtain ⟨init, linked, same⟩ := Except.bind_eq_ok.mp made
    cases same
    refine ⟨trivial, rfl, fun entry member => ?_⟩
    obtain ⟨id, -, linked⟩ := Except.exists_of_mem_mapM linked member
    obtain ⟨n, -, same⟩ := Except.bind_eq_ok.mp linked
    cases same
    exact ⟨⟨⟨_, rfl, rfl⟩, trivial⟩, trivial⟩

theorem representable_of_memorySegment {entity : Entity} {segment : DataSegment}
    (made : b.memorySegment space entity = .ok (some segment)) : segment.mode.Representable := by
  unfold memorySegment at made
  split at made
  · split at made
    · obtain ⟨index, -, same⟩ := Except.bind_eq_ok.mp made
      cases same
      exact representable_zeroOffset
    · cases made
  · cases made

/-! ## Whole modules -/

/-- A module that the format can represent, but for its size. -/
structure WellFormedModule (m : Module) : Prop where
  imports : ∀ i ∈ m.imports, i.type.Representable
  funcs : ∀ f ∈ m.funcs, Instr.AllWellFormed f.body
  tables : ∀ type ∈ m.tables, type.Representable
  memories : ∀ type ∈ m.memories, type.Representable
  globals : ∀ g ∈ m.globals, RepresentableExpr g.init
  elements : ∀ segment ∈ m.elements, WellFormedSegment segment
  dataCount : m.dataCount = none
  data : ∀ segment ∈ m.data, segment.mode.Representable

theorem wellFormed_of_assemble (reached : b.Reached)
    (assembled : b.assemble roots reach = .ok m) : WellFormedModule m := by
  simp only [assemble, Except.bind_eq_ok, Except.pure_eq_ok, Except.ok.injEq] at assembled
  obtain ⟨funcs, madeFuncs, tables, madeTables, memories, madeMemories, globals, madeGlobals,
    exports, -, start, -, filled, madeFilled, declared, madeDeclared, data, madeData, rfl⟩ :=
    assembled
  have ofClass : ∀ {kind : ExternKind} {parts : List Part},
      b.partsOf (b.indexSpace reach) kind = .ok parts → ∀ part ∈ parts, part.WellFormed := by
    intro kind parts made part member
    obtain ⟨entity, -, made⟩ := Except.exists_of_mem_mapM made member
    exact wellFormed_of_part reached made
  have formed : ∀ part ∈ funcs ++ tables ++ memories ++ globals, part.WellFormed := by
    intro part member
    simp only [List.mem_append] at member
    obtain ((member | member) | member) | member := member
    · exact ofClass madeFuncs part member
    · exact ofClass madeTables part member
    · exact ofClass madeMemories part member
    · exact ofClass madeGlobals part member
  -- Each list of the module keeps the parts of one sort.
  have kept : ∀ {α : Type} {sort : Part → Option α} {P : α → Prop},
      (∀ part x, sort part = some x → part.WellFormed → P x) →
      ∀ x ∈ (funcs ++ tables ++ memories ++ globals).filterMap sort, P x := by
    intro α sort P each x member
    obtain ⟨part, among, same⟩ := List.mem_filterMap.mp member
    exact each part x same (formed part among)
  exact {
    imports := kept fun part _ same h => by cases part <;> cases same; exact h
    funcs := kept fun part _ same h => by cases part <;> cases same; exact h
    tables := kept fun part _ same h => by cases part <;> cases same; exact h
    memories := kept fun part _ same h => by cases part <;> cases same; exact h
    globals := kept fun part _ same h => by cases part <;> cases same; exact h
    elements := by
      intro segment member
      obtain ⟨made, among, rfl⟩ := List.mem_filterMap.mp member
      rcases List.mem_append.mp among with table | last
      · obtain ⟨entity, -, made⟩ := Except.exists_of_mem_mapM madeFilled table
        exact wellFormed_of_tableSegment reached.checked made
      · cases List.mem_singleton.mp last
        exact wellFormed_of_mentionSegment madeDeclared
    dataCount := rfl
    data := by
      intro segment member
      obtain ⟨made, among, rfl⟩ := List.mem_filterMap.mp member
      obtain ⟨entity, -, made⟩ := Except.exists_of_mem_mapM madeData among
      exact representable_of_memorySegment made }

/-- A well-formed module is representable if the decoder takes its sizes. -/
theorem WellFormedModule.representable (formed : WellFormedModule m) (limits : m.WithinLimits) :
    m.ItemsRepresentable where
  typeCount := limits.typeCount
  types := limits.types
  importCount := limits.importCount
  imports := formed.imports
  funcCount := limits.funcCount
  funcs f member := ⟨limits.locals f member, Instr.allRepresentable_of_wellFormed f.body 0
    (formed.funcs f member) (limits.code f member)⟩
  tableCount := limits.tableCount
  tables := formed.tables
  memoryCount := limits.memoryCount
  memories := formed.memories
  globalCount := limits.globalCount
  globals := formed.globals
  exportCount := limits.exportCount
  elementCount := limits.elementCount
  elements segment member := by
    obtain ⟨mode, type, init⟩ := formed.elements segment member
    exact ⟨mode, type, limits.entries segment member, init⟩
  dataCount := limits.dataCount
  data := formed.data

/-- A built module whose sizes the decoder takes has a binary form, and this
form is read back as the same module if its length prefixes have room. -/
theorem decode_encode_of_build (reached : b.Reached) (done : b.build roots = .ok m)
    (limits : m.WithinLimits) :
    ∃ bytes, m.encode = .ok bytes ∧ (bytes.length < 2 ^ 32 → Module.decode bytes = .ok m) := by
  obtain ⟨-, found, -, assembled⟩ := build_eq_ok.mp done
  have formed := wellFormed_of_assemble reached assembled
  have rep := formed.representable limits
  have right : m.DataCountRight := by
    intro count stated
    rw [formed.dataCount] at stated
    cases stated
  obtain ⟨content, encoded, -⟩ := m.encode_sections rep right
  exact ⟨_, encoded, decode_of_encode rep right encoded⟩

theorem decode_encode_of_build_callsImport : ∃ m bytes,
    callsImport.build { exports := [("run", ⟨.func, 1⟩)] } = .ok m ∧ m.WithinLimits ∧
      m.encode = .ok bytes ∧ bytes.length < 2 ^ 32 ∧ Module.decode bytes = .ok m := by
  let m : Module := {
    types := [⟨[.i32], []⟩, ⟨[], []⟩]
    imports := [⟨"m", "f", .func 0⟩]
    funcs := [⟨1, [], [.mk "i32.const" (.i32 7), .mk "call" (.index 0)]⟩]
    exports := [⟨"run", .func, 1⟩] }
  have limits : m.WithinLimits := by
    constructor
    case code => exact List.forall_mem_singleton.mpr ⟨trivial, trivial, trivial⟩
    all_goals decide
  have length : m.encode.toOption.map List.length = some 50 := by
    decide +kernel
  obtain ⟨bytes, encoded, back⟩ :=
    decode_encode_of_build callsImport_reached callsImport_build limits
  have small : bytes.length < 2 ^ 32 := by
    rw [encoded] at length
    have : bytes.length = 50 := Option.some.inj length
    omega
  exact ⟨m, bytes, callsImport_build, limits, encoded, small, back small⟩

end ModuleBuilder

end Wasm
