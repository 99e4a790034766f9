import Wasm.Entity
import Wasm.InstrSet.Definition

/-!
# Draft instructions

A draft is an instruction as it was written: its definition, what it takes
and leaves on the stack, what it refers to, and what is known of its
immediate. It becomes an instruction when the references have numbers.
-/

namespace Wasm

mutual

/-- What was known of an immediate when the instruction was written. -/
inductive Capture where
  | literal (immediate : Immediate)
  | block (type : FuncType) (body : List Draft)
  | ifThen (type : FuncType) (thenBody : List Draft)
  | ifElse (type : FuncType) (thenBody elseBody : List Draft)

/-- An instruction whose references have no numbers yet. -/
structure Draft where
  definition : InstrDef
  /-- What the instruction refers to, in the order in which its linking rule
  expects the numbers. A structured instruction also lists the references of
  its bodies. -/
  references : List Reference
  params : List ValType
  results : List ValType
  capture : Capture

end

instance : Inhabited Capture := ⟨.literal .none⟩

instance : Inhabited Draft := ⟨⟨default, [], [], [], default⟩⟩

/-- The mnemonic. -/
def Draft.name (draft : Draft) : String := draft.definition.name

/-- The references of a body, in order. -/
def Draft.allReferences (body : List Draft) : List Reference :=
  body.flatMap (·.references)

/-- A structured instruction with this signature names it by number; the
others say their type in place. -/
def FuncType.needsIndex (type : FuncType) : Bool :=
  !type.params.isEmpty || 1 < type.results.length

end Wasm
