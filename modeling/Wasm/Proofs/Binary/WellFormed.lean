import Wasm.Proofs.Binary.Representable

/-!
# Well-formed code of any size

What the binary format can represent is limited in two ways. Code has to make
sense: its mnemonics exist and its immediates have the shapes that go with
them. And it has to be small enough for the decoder. Here the two are told
apart, since whoever makes code answers for the first one alone.
-/

namespace Wasm

mutual

/-- An immediate that could be written but for its size. -/
def Immediate.WellFormed : Immediate → Prop
  | .valTypes types => types.length ≤ Bound.selectTypes.toNat
  | .refType type => type.isRef = true
  | .block _ body => Instr.AllWellFormed body
  | .ifThen _ thenBody => Instr.AllWellFormed thenBody
  | .ifElse _ thenBody elseBody => Instr.AllWellFormed thenBody ∧ Instr.AllWellFormed elseBody
  | _ => True

/-- An instruction of the standard set with an immediate of its shape. -/
def Instr.WellFormed : Instr → Prop
  | .mk name immediate =>
      (∃ d, InstrSet.standard.named name = .ok d ∧ d.shape.fits immediate = true) ∧
        immediate.WellFormed

def Instr.AllWellFormed : List Instr → Prop
  | [] => True
  | instr :: rest => instr.WellFormed ∧ Instr.AllWellFormed rest

end

mutual

/-- An immediate inside `depth` structured instructions that is small enough. -/
def Immediate.WithinLimits : (depth : Nat) → Immediate → Prop
  | _, .brTable labels _ => labels.length ≤ Bound.branchLabels.toNat
  | depth, .block _ body =>
      depth < Bound.nesting.toNat ∧ Instr.AllWithinLimits (depth + 1) body
  | depth, .ifThen _ thenBody =>
      depth < Bound.nesting.toNat ∧ Instr.AllWithinLimits (depth + 1) thenBody
  | depth, .ifElse _ thenBody elseBody =>
      depth < Bound.nesting.toNat ∧ Instr.AllWithinLimits (depth + 1) thenBody ∧
        Instr.AllWithinLimits (depth + 1) elseBody
  | _, _ => True

def Instr.WithinLimits : (depth : Nat) → Instr → Prop
  | depth, .mk _ immediate => immediate.WithinLimits depth

/-- Code whose branch tables and whose nesting the decoder takes. -/
def Instr.AllWithinLimits : (depth : Nat) → List Instr → Prop
  | _, [] => True
  | depth, instr :: rest => instr.WithinLimits depth ∧ Instr.AllWithinLimits depth rest

end

mutual

theorem Immediate.representable_of_wellFormed : (i : Immediate) → (depth : Nat) →
    i.WellFormed → i.WithinLimits depth → i.Representable depth
  | .block _ body, depth, formed, ⟨room, small⟩ =>
      ⟨room, Instr.allRepresentable_of_wellFormed body (depth + 1) formed small⟩
  | .ifThen _ body, depth, formed, ⟨room, small⟩ =>
      ⟨room, Instr.allRepresentable_of_wellFormed body (depth + 1) formed small⟩
  | .ifElse _ body elseBody, depth, ⟨formed, formedElse⟩, ⟨room, small, smallElse⟩ =>
      ⟨room, Instr.allRepresentable_of_wellFormed body (depth + 1) formed small,
        Instr.allRepresentable_of_wellFormed elseBody (depth + 1) formedElse smallElse⟩
  | .brTable _ _, _, _, small => small
  | .valTypes _, _, formed, _ | .refType _, _, formed, _ => formed
  | .none, _, _, _ | .i32 _, _, _, _ | .i64 _, _, _, _ | .f32 _, _, _, _ | .f64 _, _, _, _
  | .v128 _, _, _, _ | .index _, _, _, _ | .indexPair _ _, _, _, _ | .memArg _, _, _, _
  | .lane _, _, _, _ | .shuffle _, _, _, _ | .callIndirect _ _, _, _, _ | .reserved, _, _, _ =>
      trivial

/-- Well-formed code is representable if it is small enough. -/
theorem Instr.allRepresentable_of_wellFormed : (code : List Instr) → (depth : Nat) →
    Instr.AllWellFormed code → Instr.AllWithinLimits depth code →
    Instr.AllRepresentable depth code
  | [], _, _, _ => trivial
  | .mk _ i :: rest, depth, ⟨⟨known, formed⟩, others⟩, ⟨small, fewer⟩ =>
      ⟨⟨known, Immediate.representable_of_wellFormed i depth formed small⟩,
        Instr.allRepresentable_of_wellFormed rest depth others fewer⟩

end

mutual

theorem Immediate.withinLimits_of_representable : (i : Immediate) → (depth : Nat) →
    i.Representable depth → i.WithinLimits depth
  | .block _ body, depth, ⟨room, rep⟩ =>
      ⟨room, Instr.allWithinLimits_of_representable body (depth + 1) rep⟩
  | .ifThen _ body, depth, ⟨room, rep⟩ =>
      ⟨room, Instr.allWithinLimits_of_representable body (depth + 1) rep⟩
  | .ifElse _ body elseBody, depth, ⟨room, rep, repElse⟩ =>
      ⟨room, Instr.allWithinLimits_of_representable body (depth + 1) rep,
        Instr.allWithinLimits_of_representable elseBody (depth + 1) repElse⟩
  | .brTable _ _, _, rep => rep
  | .none, _, _ | .i32 _, _, _ | .i64 _, _, _ | .f32 _, _, _ | .f64 _, _, _ | .v128 _, _, _
  | .index _, _, _ | .indexPair _ _, _, _ | .memArg _, _, _ | .lane _, _, _ | .shuffle _, _, _
  | .callIndirect _ _, _, _ | .valTypes _, _, _ | .refType _, _, _ | .reserved, _, _ => trivial

/-- Representable code is small enough. -/
theorem Instr.allWithinLimits_of_representable : (code : List Instr) → (depth : Nat) →
    Instr.AllRepresentable depth code → Instr.AllWithinLimits depth code
  | [], _, _ => trivial
  | .mk _ i :: rest, depth, ⟨⟨_, rep⟩, others⟩ =>
      ⟨Immediate.withinLimits_of_representable i depth rep,
        Instr.allWithinLimits_of_representable rest depth others⟩

end

/-! ## Modules -/

/-- The sizes that the decoder holds against its bounds. -/
structure Module.WithinLimits (m : Module) : Prop where
  typeCount : m.types.length ≤ Bound.types.toNat
  types : ∀ type ∈ m.types, type.Representable
  importCount : m.imports.length ≤ Bound.imports.toNat
  funcCount : m.funcs.length ≤ Bound.functions.toNat
  locals : ∀ f ∈ m.funcs, f.locals.length ≤ Bound.locals.toNat
  code : ∀ f ∈ m.funcs, Instr.AllWithinLimits 0 f.body
  tableCount : m.tables.length ≤ Bound.tables.toNat
  memoryCount : m.memories.length ≤ Bound.memories.toNat
  globalCount : m.globals.length ≤ Bound.globals.toNat
  exportCount : m.exports.length ≤ Bound.exports.toNat
  elementCount : m.elements.length ≤ Bound.elementSegments.toNat
  entries : ∀ segment ∈ m.elements, segment.init.length ≤ Bound.elementEntries.toNat
  dataCount : m.data.length ≤ Bound.dataSegments.toNat

/-- A representable module is small enough. -/
theorem Module.ItemsRepresentable.withinLimits {m : Module} (rep : m.ItemsRepresentable) :
    m.WithinLimits where
  typeCount := rep.typeCount
  types := rep.types
  importCount := rep.importCount
  funcCount := rep.funcCount
  locals f member := (rep.funcs f member).locals
  code f member := Instr.allWithinLimits_of_representable f.body 0 (rep.funcs f member).body
  tableCount := rep.tableCount
  memoryCount := rep.memoryCount
  globalCount := rep.globalCount
  exportCount := rep.exportCount
  elementCount := rep.elementCount
  entries segment member := (rep.elements segment member).entries
  dataCount := rep.dataCount

end Wasm
