import Wasm.Body.Argument
import Wasm.Body.Context
import Wasm.Instr.Text

/-!
# The effect of an instruction

The typing rules. A rule looks at the arguments of an instruction and at the
state of the body, and says what the instruction takes from the stack, what
it leaves there, what it refers to and what is known of its immediate. It
does not check the stack itself, except where a rule asks for more than the
operands it takes.
-/

namespace Wasm

/-- What one use of an instruction does. -/
structure Effect where
  params : List ValType := []
  results : List ValType := []
  references : List Reference := []
  capture : Capture := .literal .none
  /-- Control never gets past the instruction. -/
  diverges : Bool := false
deriving Inhabited

namespace InstrDef

/-- The instruction does not take such an argument. -/
def refuse {α : Type} (d : InstrDef) (argument : Argument) : Except BuildError α :=
  .error (.invalidArguments d.name (.notTaken argument.description))

/-- The signature of an instruction that has one. -/
def signatureOf (d : InstrDef) : Except BuildError FuncType :=
  match d.signature with
  | some type => .ok type
  | none => .error (.invalidArguments d.name .noSignature)

/-- The effect given by the signature of the definition. -/
def fixedEffect (d : InstrDef) (capture : Capture := .literal .none)
    (references : List Reference := []) : Except BuildError Effect := do
  let type ← d.signatureOf
  return { params := type.params, results := type.results, references, capture }

/-- Instructions without arguments and with a fixed signature. -/
def plainEffect (d : InstrDef) (argument : Argument) (references : List Reference := []) :
    Except BuildError Effect :=
  match argument with
  | .none => d.fixedEffect (.literal .none) references
  | other => d.refuse other

/-! ## Literals -/

/-- A constant must have the shape of the immediate. -/
def constantEffect (d : InstrDef) : Argument → Except BuildError Effect
  | .literal immediate =>
    if d.shape.fits immediate then d.fixedEffect (.literal immediate)
    else .error (.invalidArguments d.name (.wrongLiteral immediate.text))
  | other => d.refuse other

/-- A shuffle picks from the lanes of two vectors. -/
def shuffleEffect (d : InstrDef) : Argument → Except BuildError Effect
  | .literal (.shuffle lanes) =>
    match lanes.toList.find? (32 ≤ ·) with
    | some lane => .error (.invalidLane d.name lane 32)
    | none => d.fixedEffect (.literal (.shuffle lanes))
  | other => d.refuse other

def laneEffect (d : InstrDef) : Argument → Except BuildError Effect
  | .lane l =>
    match d.shape with
    | .lane lanes =>
      if l < lanes then d.fixedEffect (.literal (.lane l))
      else .error (.invalidLane d.name l lanes)
    | _ => .error (.invalidArguments d.name .noLaneShape)
  | other => d.refuse other

/-- The alignment is at most the natural one, and exactly that for an atomic
access. -/
def accessEffect (d : InstrDef) (offset : UInt32) (align : Option UInt32) :
    Except BuildError Effect :=
  match d.shape with
  | .memArg natural =>
    let align := align.getD natural
    if natural < align ∨ (d.opcode.isAtomic ∧ align ≠ natural) then
      .error (.badAlignment d.name align natural)
    else d.fixedEffect (.literal (.memArg { align, offset })) [.memoryUse]
  | _ => .error (.invalidArguments d.name .noMemoryShape)

/-! ## Entities -/

/-- An instruction on one table, with the effect that its entry type gives. -/
def tableEffect (d : InstrDef) (params results : ValType → List ValType) :
    Argument → Except BuildError Effect
  | .table table => .ok {
      params := params table.type.element
      results := results table.type.element
      references := [.table table.id] }
  | other => d.refuse other

/-- An instruction on one local, with the effect that its type gives. -/
def localEffect (d : InstrDef) (c : Context) (params results : ValType → List ValType) :
    Argument → Except BuildError Effect
  | .localVar handle => do
    let type ← c.localType handle
    return {
      params := params type
      results := results type
      capture := .literal (.index handle.index) }
  | other => d.refuse other

/-! ## Branches -/

/-- The labels of a branch table as depths. Every target must have the arity
of the fallback, and its types must fit the values under the index. -/
def branchLabels (d : InstrDef) (c : Context) (arity : Nat) :
    List Target → Except BuildError (List UInt32)
  | [] => .ok []
  | target :: rest => do
    let (depth, types) ← c.resolveTarget target
    unless types.length = arity do
      throw (.invalidArguments d.name (.arityMismatch target types.length arity))
    c.checkTop d.name types 1
    let labels ← branchLabels d c arity rest
    return UInt32.ofNat depth :: labels

/-! ## Bodies -/

/-- What a structured instruction refers to: its signature, if that is named
by number, and whatever its bodies refer to. -/
def structuredReferences (type : FuncType) (bodies : List Draft) : List Reference :=
  (if type.needsIndex then [.signature type] else []) ++ Draft.allReferences bodies

/-! ## All rules -/

/-- The effect of an instruction with the given argument, by the typing rule
of its definition. -/
def effect (d : InstrDef) (c : Context) (argument : Argument) : Except BuildError Effect :=
  match d.typing with
  | .fixed => d.plainEffect argument
  | .trap => return { ← d.plainEffect argument with diverges := true }
  | .constant => d.constantEffect argument
  | .shuffle => d.shuffleEffect argument
  | .lane => d.laneEffect argument
  | .fence =>
    match argument with
    | .none => .ok { capture := .literal .reserved }
    | other => d.refuse other
  | .memoryAccess =>
    match argument with
    | .none => d.accessEffect 0 none
    | .memory offset align => d.accessEffect offset align
    | other => d.refuse other
  | .memory => d.plainEffect argument [.memoryUse]
  | .localGet => d.localEffect c (fun _ => []) (fun type => [type]) argument
  | .localSet => d.localEffect c (fun type => [type]) (fun _ => []) argument
  | .localTee => d.localEffect c (fun type => [type]) (fun type => [type]) argument
  | .globalGet =>
    match argument with
    | .globalVar g => .ok { results := [g.type.value], references := [.global g.id] }
    | other => d.refuse other
  | .globalSet =>
    match argument with
    | .globalVar g =>
      if g.type.isMutable then .ok { params := [g.type.value], references := [.global g.id] }
      else .error .immutableGlobal
    | other => d.refuse other
  | .call =>
    match argument with
    | .func f => .ok {
        params := f.type.params
        results := f.type.results
        references := [.func f.id] }
    | other => d.refuse other
  | .callIndirect =>
    match argument with
    | .callIndirect table type =>
      if table.type.element = .funcRef then .ok {
        params := type.params ++ [.i32]
        results := type.results
        references := [.table table.id, .signature type] }
      else .error (.invalidArguments d.name .notFuncTable)
    | other => d.refuse other
  | .ret =>
    match argument with
    | .none => .ok { params := c.returnTypes, diverges := true }
    | other => d.refuse other
  | .br =>
    match argument with
    | .branch target => do
      let (depth, types) ← c.resolveTarget target
      return {
        params := types
        capture := .literal (.index (UInt32.ofNat depth))
        diverges := true }
    | other => d.refuse other
  | .brIf =>
    match argument with
    | .branch target => do
      let (depth, types) ← c.resolveTarget target
      return {
        params := types ++ [.i32]
        results := types
        capture := .literal (.index (UInt32.ofNat depth)) }
    | other => d.refuse other
  | .brTable =>
    match argument with
    | .branchTable targets fallback => do
      let (depth, types) ← c.resolveTarget fallback
      let labels ← d.branchLabels c types.length targets
      return {
        params := types ++ [.i32]
        capture := .literal (.brTable labels (UInt32.ofNat depth))
        diverges := true }
    | other => d.refuse other
  | .drop =>
    match argument with
    | .none => .ok { params := [(c.peekType 0).getD .i32] }
    | other => d.refuse other
  | .select =>
    match argument with
    | .none =>
      let type := (c.peekType 1).getD .i32
      if type.isRef then .error (.invalidOperand d.name .referenceNeedsType)
      else .ok { params := [type, type, .i32], results := [type] }
    | other => d.refuse other
  | .selectTyped =>
    match argument with
    | .type type => .ok {
        params := [type, type, .i32]
        results := [type]
        capture := .literal (.valTypes [type]) }
    | other => d.refuse other
  | .refNull =>
    match argument with
    | .type type =>
      if type.isRef then .ok { results := [type], capture := .literal (.refType type) }
      else .error (.invalidArguments d.name (.notReference type))
    | other => d.refuse other
  | .refIsNull =>
    match argument with
    | .none =>
      let type := ((c.peekType 0).filter (·.isRef)).getD .funcRef
      .ok { params := [type], results := [.i32] }
    | other => d.refuse other
  | .refFunc =>
    match argument with
    | .func f => .ok { results := [.funcRef], references := [.func f.id, .funcMention f.id] }
    | other => d.refuse other
  | .tableGet => d.tableEffect (fun _ => [.i32]) (fun element => [element]) argument
  | .tableSet => d.tableEffect (fun element => [.i32, element]) (fun _ => []) argument
  | .tableSize => d.tableEffect (fun _ => []) (fun _ => [.i32]) argument
  | .tableGrow => d.tableEffect (fun element => [element, .i32]) (fun _ => [.i32]) argument
  | .tableFill => d.tableEffect (fun element => [.i32, element, .i32]) (fun _ => []) argument
  | .tableCopy =>
    match argument with
    | .tablePair destination source =>
      if destination.type.element = source.type.element then .ok {
        params := [.i32, .i32, .i32]
        references := [.table destination.id, .table source.id] }
      else .error (.invalidArguments d.name
        (.copyMismatch source.type.element destination.type.element))
    | other => d.refuse other
  | .block =>
    match argument with
    | .block type body => .ok {
        params := type.params
        results := type.results
        references := structuredReferences type body
        capture := .block type body }
    | other => d.refuse other
  | .conditional =>
    match argument with
    | .ifThen type thenBody => .ok {
        params := type.params ++ [.i32]
        results := type.results
        references := structuredReferences type thenBody
        capture := .ifThen type thenBody }
    | .ifElse type thenBody elseBody => .ok {
        params := type.params ++ [.i32]
        results := type.results
        references := structuredReferences type (thenBody ++ elseBody)
        capture := .ifElse type thenBody elseBody }
    | other => d.refuse other

end InstrDef

end Wasm
