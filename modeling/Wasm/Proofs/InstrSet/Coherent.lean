import Wasm.InstrSet.Standard

/-!
# Definitions agree with themselves

A definition has two rules and a shape, and nothing in the type of definitions
ties them together. In the standard set they fit: the linking rule takes as
many numbers as the typing rule refers to, and what is captured has the shape
of the immediate.
-/

namespace Wasm

/-- The linking rule handles what the typing rule refers to and captures. -/
def TypingRule.linksBy : TypingRule → LinkRule → Bool
  | .memoryAccess, rule => rule == .memoryAccess
  | .memory, rule => rule == .index || rule == .memoryCopy
  | .callIndirect, rule => rule == .callIndirect
  | .refFunc, rule => rule == .refFunc
  | .tableCopy, rule => rule == .tableCopy
  | .block, rule => rule == .block
  | .conditional, rule => rule == .conditional
  | .globalGet, rule | .globalSet, rule | .call, rule | .tableGet, rule | .tableSet, rule
  | .tableSize, rule | .tableGrow, rule | .tableFill, rule => rule == .index
  | _, rule => rule == .literal

/-- The shape of the immediates that come out of the two rules. -/
def TypingRule.shapedBy : TypingRule → LinkRule → Shape → Bool
  | .constant, _, .i32 | .constant, _, .i64 | .constant, _, .f32 | .constant, _, .f64
  | .constant, _, .v128 => true
  | .constant, _, _ => false
  | .shuffle, _, shape => shape == .shuffle
  | .lane, _, .lane _ => true
  | .lane, _, _ => false
  | .fence, _, shape => shape == .reserved
  | .memoryAccess, _, .memArg _ => true
  | .memoryAccess, _, _ => false
  | .memory, .memoryCopy, shape => shape == .indexPair
  | .callIndirect, _, shape => shape == .callIndirect
  | .brTable, _, shape => shape == .brTable
  | .selectTyped, _, shape => shape == .selectTypes
  | .refNull, _, shape => shape == .refType
  | .tableCopy, _, shape => shape == .indexPair
  | .block, _, shape => shape == .block
  | .conditional, _, shape => shape == .conditional
  | .memory, _, shape | .localGet, _, shape | .localSet, _, shape | .localTee, _, shape
  | .globalGet, _, shape | .globalSet, _, shape | .call, _, shape | .br, _, shape
  | .brIf, _, shape | .refFunc, _, shape | .tableGet, _, shape | .tableSet, _, shape
  | .tableSize, _, shape | .tableGrow, _, shape | .tableFill, _, shape => shape == .index
  | .fixed, _, shape | .trap, _, shape | .ret, _, shape | .drop, _, shape | .select, _, shape
  | .refIsNull, _, shape => shape == .none

/-- The fields of the definition belong together. -/
structure InstrDef.Coherent (d : InstrDef) : Prop where
  links : d.typing.linksBy d.linking = true
  shapes : d.typing.shapedBy d.linking d.shape = true
  /-- Structured instructions are those that have bodies to check. -/
  structured : d.shape.isStructured = (d.typing == .block || d.typing == .conditional)

theorem InstrSet.standard_coherent : ∀ d ∈ standard.defs, d.Coherent := by
  have checked : ∀ d ∈ standard.defs, d.typing.linksBy d.linking = true ∧
      d.typing.shapedBy d.linking d.shape = true ∧
      d.shape.isStructured = (d.typing == .block || d.typing == .conditional) := by
    decide +kernel
  intro d member
  obtain ⟨links, shapes, structured⟩ := checked d member
  exact ⟨links, shapes, structured⟩

end Wasm
