import Wasm.Body.Draft
import Wasm.Body.Error

/-!
# Linking

Once every reference has a number, a body becomes code. The numbers come as
one list for the whole body, one for each reference in order. Each draft
takes as many from the front as it has references; a structured one splits
its share between its own signature and its bodies. Nothing may be left over.
-/

namespace Wasm

/-- Numbers do not fit the code. -/
def linkFault {α : Type} (fault : LinkFault) : Except BuildError α :=
  .error (.unresolved fault)

namespace InstrDef

/-- The number of numbers must be the one that the linking rule wants. -/
def wantCount (d : InstrDef) (expected : Nat) (indices : List UInt32) :
    Except BuildError Unit :=
  if indices.length = expected then .ok ()
  else linkFault (.wrongCount d.name expected indices.length)

/-- The immediate as it was captured. -/
def captured (d : InstrDef) : Capture → Except BuildError Immediate
  | .literal immediate => .ok immediate
  | _ => .error (.invalidArguments d.name .bodyCaptured)

/-- The type of a structured instruction, and the numbers left for its
bodies. -/
def blockType (d : InstrDef) (type : FuncType) (indices : List UInt32) :
    Except BuildError (BlockType × List UInt32) :=
  if type.needsIndex then
    match indices with
    | index :: rest => .ok (.funcType index, rest)
    | [] => linkFault (.missingBlockType d.name type)
  else
    match type.results with
    | result :: _ => .ok (.value result, indices)
    | [] => .ok (.empty, indices)

/-- Splits the numbers for two bodies behind those that the first one takes. -/
def splitBodies (d : InstrDef) (first : List Draft) (indices : List UInt32) :
    Except BuildError (List UInt32 × List UInt32) :=
  let needed := (Draft.allReferences first).length
  if Bytes.hasAtLeast needed indices then .ok (indices.take needed, indices.drop needed)
  else linkFault (.tooFewForBodies d.name indices.length)

end InstrDef

mutual

/-- The immediate of an instruction, by the linking rule of its definition. -/
def Capture.link (d : InstrDef) (indices : List UInt32) (capture : Capture) :
    Except BuildError Immediate :=
  match d.linking, capture with
  | .literal, capture => do
    d.wantCount 0 indices
    d.captured capture
  | .memoryAccess, capture => do
    d.wantCount 1 indices
    d.captured capture
  | .index, _ =>
    match indices with
    | [index] => .ok (.index index)
    | _ => linkFault (.wrongCount d.name 1 indices.length)
  | .refFunc, _ =>
    match indices with
    | [index, _] => .ok (.index index)
    | _ => linkFault (.wrongCount d.name 2 indices.length)
  | .callIndirect, _ =>
    match indices with
    | [table, type] => .ok (.callIndirect type table)
    | _ => linkFault (.wrongCount d.name 2 indices.length)
  | .memoryCopy, _ =>
    match indices with
    | [memory] => .ok (.indexPair memory memory)
    | _ => linkFault (.wrongCount d.name 1 indices.length)
  | .tableCopy, _ =>
    match indices with
    | [destination, source] => .ok (.indexPair destination source)
    | _ => linkFault (.wrongCount d.name 2 indices.length)
  | .block, .block type body => do
    let (blockType, rest) ← d.blockType type indices
    let body ← Draft.linkAll rest body
    return .block blockType body
  | .block, _ => .error (.invalidArguments d.name .noBlockCaptured)
  | .conditional, .ifThen type thenBody => do
    let (blockType, rest) ← d.blockType type indices
    let (thenIndices, others) ← d.splitBodies thenBody rest
    let thenBody ← Draft.linkAll thenIndices thenBody
    d.wantCount 0 others
    return .ifThen blockType thenBody
  | .conditional, .ifElse type thenBody elseBody => do
    let (blockType, rest) ← d.blockType type indices
    let (thenIndices, elseIndices) ← d.splitBodies thenBody rest
    let thenBody ← Draft.linkAll thenIndices thenBody
    let elseBody ← Draft.linkAll elseIndices elseBody
    return .ifElse blockType thenBody elseBody
  | .conditional, _ => .error (.invalidArguments d.name .noConditionalCaptured)

/-- The instruction that a draft becomes with the given numbers. -/
def Draft.link (indices : List UInt32) : Draft → Except BuildError Instr
  | ⟨d, _, _, _, capture⟩ => do
    let immediate ← capture.link d indices
    return .mk d.name immediate

/-- The code that a body becomes with the given numbers. -/
def Draft.linkAll (indices : List UInt32) : List Draft → Except BuildError (List Instr)
  | [] => do
    unless indices.isEmpty do linkFault (.leftOver indices.length)
    return []
  | draft :: rest => do
    let needed := draft.references.length
    unless Bytes.hasAtLeast needed indices do
      linkFault (.tooFewRemain draft.name needed indices.length)
    let instr ← draft.link (indices.take needed)
    let others ← Draft.linkAll (indices.drop needed) rest
    return instr :: others

end

end Wasm
