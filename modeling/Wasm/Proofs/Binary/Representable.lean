import Wasm.Binary.Module

/-!
# What the binary format can represent

A tree of instructions may hold any mnemonic with any immediate, and a module
any number of items. Here is what of it comes back from its binary form:
mnemonics of the instruction set with immediates of their shape, sizes within
the bounds of the decoder, references where only references are possible, and
a maximum for each shared memory. All of it can be said without an encoder
and without a decoder.
-/

namespace Wasm

mutual

/-- An immediate that stands inside `depth` structured instructions. -/
def Immediate.Representable : (depth : Nat) → Immediate → Prop
  | _, .brTable labels _ => labels.length ≤ Bound.branchLabels.toNat
  | _, .valTypes types => types.length ≤ Bound.selectTypes.toNat
  | _, .refType type => type.isRef = true
  | depth, .block _ body =>
      depth < Bound.nesting.toNat ∧ Instr.AllRepresentable (depth + 1) body
  | depth, .ifThen _ thenBody =>
      depth < Bound.nesting.toNat ∧ Instr.AllRepresentable (depth + 1) thenBody
  | depth, .ifElse _ thenBody elseBody =>
      depth < Bound.nesting.toNat ∧ Instr.AllRepresentable (depth + 1) thenBody ∧
        Instr.AllRepresentable (depth + 1) elseBody
  | _, _ => True

/-- An instruction of the standard set with an immediate of its shape. -/
def Instr.Representable : (depth : Nat) → Instr → Prop
  | depth, .mk name immediate =>
      (∃ d, InstrSet.standard.named name = .ok d ∧ d.shape.fits immediate = true) ∧
        immediate.Representable depth

/-- Code of which every instruction is representable. -/
def Instr.AllRepresentable : (depth : Nat) → List Instr → Prop
  | _, [] => True
  | depth, instr :: rest => instr.Representable depth ∧ Instr.AllRepresentable depth rest

end

/-- Code that stands inside no structured instruction. -/
def RepresentableExpr (body : List Instr) : Prop := Instr.AllRepresentable 0 body

/-! ## Deciding it for code -/

instance (name : String) (immediate : Immediate) :
    Decidable (∃ d, InstrSet.standard.named name = .ok d ∧ d.shape.fits immediate = true) :=
  match InstrSet.standard.named name with
  | .ok d => decidable_of_iff (d.shape.fits immediate = true) (by simp)
  | .error _ => isFalse (by simp)

mutual

def Immediate.decRepresentable :
    (depth : Nat) → (immediate : Immediate) → Decidable (immediate.Representable depth)
  | _, .brTable labels _ => inferInstanceAs (Decidable (labels.length ≤ Bound.branchLabels.toNat))
  | _, .valTypes types => inferInstanceAs (Decidable (types.length ≤ Bound.selectTypes.toNat))
  | _, .refType type => inferInstanceAs (Decidable (type.isRef = true))
  | depth, .block _ body =>
      have := Instr.decAllRepresentable (depth + 1) body
      inferInstanceAs (Decidable (depth < Bound.nesting.toNat ∧
        Instr.AllRepresentable (depth + 1) body))
  | depth, .ifThen _ thenBody =>
      have := Instr.decAllRepresentable (depth + 1) thenBody
      inferInstanceAs (Decidable (depth < Bound.nesting.toNat ∧
        Instr.AllRepresentable (depth + 1) thenBody))
  | depth, .ifElse _ thenBody elseBody =>
      have := Instr.decAllRepresentable (depth + 1) thenBody
      have := Instr.decAllRepresentable (depth + 1) elseBody
      inferInstanceAs (Decidable (depth < Bound.nesting.toNat ∧
        Instr.AllRepresentable (depth + 1) thenBody ∧
          Instr.AllRepresentable (depth + 1) elseBody))
  | _, .none | _, .i32 _ | _, .i64 _ | _, .f32 _ | _, .f64 _ | _, .v128 _ | _, .index _
  | _, .indexPair _ _ | _, .memArg _ | _, .lane _ | _, .shuffle _ | _, .callIndirect _ _
  | _, .reserved => inferInstanceAs (Decidable True)

def Instr.decRepresentable : (depth : Nat) → (instr : Instr) → Decidable (instr.Representable depth)
  | depth, .mk name immediate =>
      have := Immediate.decRepresentable depth immediate
      inferInstanceAs (Decidable ((∃ d, InstrSet.standard.named name = .ok d ∧
        d.shape.fits immediate = true) ∧ immediate.Representable depth))

def Instr.decAllRepresentable :
    (depth : Nat) → (code : List Instr) → Decidable (Instr.AllRepresentable depth code)
  | _, [] => inferInstanceAs (Decidable True)
  | depth, instr :: rest =>
      have := Instr.decRepresentable depth instr
      have := Instr.decAllRepresentable depth rest
      inferInstanceAs (Decidable (instr.Representable depth ∧ Instr.AllRepresentable depth rest))

end

instance (code : List Instr) : Decidable (RepresentableExpr code) :=
  Instr.decAllRepresentable 0 code

/-! ## Types -/

/-- A signature with no more values than the decoder takes. -/
def FuncType.Representable (type : FuncType) : Prop :=
  type.params.length ≤ Bound.valueTypes.toNat ∧ type.results.length ≤ Bound.valueTypes.toNat

def TableType.Representable (type : TableType) : Prop := type.element.isRef = true

/-- The binary form of a shared memory always states a maximum. -/
def MemoryType.Representable (type : MemoryType) : Prop :=
  type.shared = true → type.limits.max.isSome = true

/-! ## Items of modules -/

def ImportType.Representable : ImportType → Prop
  | .func _ => True
  | .table type => type.Representable
  | .memory type => type.Representable
  | .global _ => True

structure Func.Representable (f : Func) : Prop where
  locals : f.locals.length ≤ Bound.locals.toNat
  body : RepresentableExpr f.body

def ElementMode.Representable : ElementMode → Prop
  | .active _ start => RepresentableExpr start
  | .passive => True
  | .declarative => True

structure ElementSegment.Representable (segment : ElementSegment) : Prop where
  mode : segment.mode.Representable
  type : segment.type.isRef = true
  entries : segment.init.length ≤ Bound.elementEntries.toNat
  init : ∀ entry ∈ segment.init, RepresentableExpr entry

def DataMode.Representable : DataMode → Prop
  | .active _ start => RepresentableExpr start
  | .passive => True

/-! ## Deciding it for items -/

instance (type : FuncType) : Decidable type.Representable :=
  inferInstanceAs (Decidable (_ ∧ _))

instance (type : TableType) : Decidable type.Representable :=
  inferInstanceAs (Decidable (type.element.isRef = true))

instance (type : MemoryType) : Decidable type.Representable :=
  inferInstanceAs (Decidable (_ → _))

instance : (type : ImportType) → Decidable type.Representable
  | .func _ | .global _ => inferInstanceAs (Decidable True)
  | .table type => inferInstanceAs (Decidable type.Representable)
  | .memory type => inferInstanceAs (Decidable type.Representable)

instance (f : Func) : Decidable f.Representable :=
  decidable_of_iff (f.locals.length ≤ Bound.locals.toNat ∧ RepresentableExpr f.body)
    ⟨fun h => ⟨h.1, h.2⟩, fun h => ⟨h.1, h.2⟩⟩

instance : (mode : ElementMode) → Decidable mode.Representable
  | .active _ start => inferInstanceAs (Decidable (RepresentableExpr start))
  | .passive | .declarative => inferInstanceAs (Decidable True)

instance (segment : ElementSegment) : Decidable segment.Representable :=
  decidable_of_iff (segment.mode.Representable ∧ segment.type.isRef = true ∧
      segment.init.length ≤ Bound.elementEntries.toNat ∧
        ∀ entry ∈ segment.init, RepresentableExpr entry)
    ⟨fun h => ⟨h.1, h.2.1, h.2.2.1, h.2.2.2⟩, fun h => ⟨h.1, h.2, h.3, h.4⟩⟩

instance : (mode : DataMode) → Decidable mode.Representable
  | .active _ start => inferInstanceAs (Decidable (RepresentableExpr start))
  | .passive => inferInstanceAs (Decidable True)

/-! ## Modules -/

/-- The items of the sections of a module are representable, and none of its
vectors is longer than the decoder takes. -/
structure Module.ItemsRepresentable (m : Module) : Prop where
  typeCount : m.types.length ≤ Bound.types.toNat
  types : ∀ type ∈ m.types, type.Representable
  importCount : m.imports.length ≤ Bound.imports.toNat
  imports : ∀ i ∈ m.imports, i.type.Representable
  funcCount : m.funcs.length ≤ Bound.functions.toNat
  funcs : ∀ f ∈ m.funcs, f.Representable
  tableCount : m.tables.length ≤ Bound.tables.toNat
  tables : ∀ type ∈ m.tables, type.Representable
  memoryCount : m.memories.length ≤ Bound.memories.toNat
  memories : ∀ type ∈ m.memories, type.Representable
  globalCount : m.globals.length ≤ Bound.globals.toNat
  globals : ∀ g ∈ m.globals, RepresentableExpr g.init
  exportCount : m.exports.length ≤ Bound.exports.toNat
  elementCount : m.elements.length ≤ Bound.elementSegments.toNat
  elements : ∀ segment ∈ m.elements, segment.Representable
  dataCount : m.data.length ≤ Bound.dataSegments.toNat
  data : ∀ segment ∈ m.data, segment.mode.Representable

/-- A stated number of data segments is the number that there are. -/
def Module.DataCountRight (m : Module) : Prop :=
  ∀ count, m.dataCount = some count → count.toNat = m.data.length

end Wasm
