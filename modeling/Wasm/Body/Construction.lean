import Wasm.Body.Effect
import Wasm.InstrSet.Standard

/-!
# Writing a body

The operations that write a body, each of them checked against the operand
stack as it happens. A structured construct takes the construction of its
body as an argument, which is given the label of the construct. An operation
that fails leaves the code and the stack as they were before it; locals that
were declared stay declared, and ids of values and labels stay handed out. In
a body of no more than 2^32 values and labels no id is handed out twice.

A construction may carry a state of the client's own, which no operation
touches and no failure undoes.
-/

namespace Wasm

/-- The body under construction beside the state of the client. -/
structure Workspace (σ : Type) where
  context : Context
  client : σ

/-- A construction: it changes the body, and can fail. -/
abbrev Construction (σ : Type) := EStateM BuildError (Workspace σ)

namespace Construction

variable {σ α : Type}

/-- The state of the body. -/
def context : Construction σ Context := return (← get).context

/-- Looks something up in the body, which stays as it is. -/
def inspect (query : Context → Except BuildError α) : Construction σ α := fun w =>
  match query w.context with
  | .ok a => .ok a w
  | .error e => .error e w

/-- Changes the body. -/
def change (f : Context → α × Context) : Construction σ α := fun ⟨context, client⟩ =>
  let (a, context) := f context
  .ok a ⟨context, client⟩

/-- Changes the body, unless the change is refused. -/
def update (f : Context → Except BuildError (α × Context)) : Construction σ α := fun w =>
  match f w.context with
  | .ok (a, context) => .ok a { w with context }
  | .error e => .error e w

/-- A construction that leaves code and stack alone if it fails. -/
def atomically (act : Construction σ α) : Construction σ α := fun w =>
  match act w with
  | .ok a after => .ok a after
  | .error e after =>
    .error e { after with context := after.context.rollbackTo w.context }

/-- Declares one more local. -/
def addLocal (type : ValType) : Construction σ LocalHandle :=
  change (·.addLocal type)

end Construction

/-! ## Single instructions -/

namespace Context

/-- The draft of an instruction with a known effect. -/
def draftOf (d : InstrDef) (effect : Effect) : Draft where
  definition := d
  references := effect.references
  params := effect.params
  results := effect.results
  capture := effect.capture

/-- Writes one instruction: its operands are taken from the stack and its
results are put there. -/
def perform (c : Context) (d : InstrDef) (argument : Argument) :
    Except BuildError (List StackVar × Context) := do
  let effect ← d.effect c argument
  let popped ← c.pop d.name effect.params
  let (vars, pushed) := popped.push effect.results
  let written := pushed.write (draftOf d effect)
  return (vars, if effect.diverges then written.markUnreachable else written)

/-- Writes a structured instruction whose operands are off the stack already. -/
def conclude (c : Context) (d : InstrDef) (argument : Argument) :
    Except BuildError (List StackVar × Context) := do
  let effect ← d.effect c argument
  let (vars, pushed) := c.push effect.results
  return (vars, pushed.write (draftOf d effect))

/-- Checks operands that are on the stack: with `position` counting from the
first one, and `below` of them above it, each value that is named must be in
its place. -/
def checkPlaces (c : Context) (name : String) :
    (position : Nat) → List Operand → Except BuildError Unit
  | _, [] => .ok ()
  | position, .var v :: rest =>
    if c.frame.values[rest.length]? = some v then checkPlaces c name (position + 1) rest
    else .error (.invalidOperand name (.notInPlace v position))
  | position, _ :: rest => checkPlaces c name (position + 1) rest

end Context

namespace Construction

variable {σ : Type}

/-- The definition of a mnemonic. -/
def definition (name : String) : Construction σ InstrDef := fun w =>
  match InstrSet.standard.named name with
  | .ok d => .ok d w
  | .error e => .error (.unknownInstruction e) w

/-- Writes one instruction of any definition, with all operands on the stack. -/
def perform (d : InstrDef) (argument : Argument) : Construction σ (List StackVar) :=
  update (·.perform d argument)

/-- The instruction that pushes an operand that is not on the stack yet. -/
def pushOperand : Operand → Construction σ Unit
  | .stack | .var _ => return ()
  | .localVar handle => do
    let _ ← perform (← definition "local.get") (.localVar handle)
  | .globalVar handle => do
    let _ ← perform (← definition "global.get") (.globalVar handle)
  | .i32 value => do
    let _ ← perform (← definition "i32.const") (.literal (.i32 value))
  | .i64 value => do
    let _ ← perform (← definition "i64.const") (.literal (.i64 value))
  | .f32 value => do
    let _ ← perform (← definition "f32.const") (.literal (.f32 value))
  | .f64 value => do
    let _ ← perform (← definition "f64.const") (.literal (.f64 value))

/-- Pushes operands, first one first. -/
def pushOperands : List Operand → Construction σ Unit
  | [] => return ()
  | operand :: rest => do
    pushOperand operand
    pushOperands rest

/-- Brings the operands of an instruction into place. Those on the stack come
first and must be its top values in this order; the others are pushed. -/
def bindOperands (name : String) (operands : List Operand) : Construction σ Unit := do
  let onStack := operands.takeWhile (·.isOnStack)
  let explicit := operands.dropWhile (·.isOnStack)
  if explicit.any (·.isOnStack) then
    throw (.invalidOperand name .stackAfterExplicit)
  inspect (·.checkPlaces name 0 onStack)
  pushOperands explicit

/-- Writes the instruction of a mnemonic. The operands are listed in order,
or not at all if they are all on the stack. -/
def instr (name : String) (argument : Argument) (operands : List Operand) :
    Construction σ (List StackVar) := do
  let d ← definition name
  if d.shape.isStructured then throw (.invalidArguments d.name .structured)
  atomically do
    bindOperands d.name operands
    perform d argument

/-- Writes an instruction that takes no argument. -/
def emit (name : String) (operands : List Operand) : Construction σ (List StackVar) :=
  instr name .none operands

/-! ## Structured constructs -/

/-- Opens the frame of a construct. -/
def enter (kind : FrameKind) (type : FuncType) : Construction σ Label :=
  change (·.enter kind type)

/-- Takes the operands of a construct off the stack. -/
def takeOperands (name : String) (types : List ValType) : Construction σ Unit :=
  update fun c => return ((), ← c.pop name types)

/-- Writes the construct that was just closed. -/
def conclude (d : InstrDef) (argument : Argument) : Construction σ (List StackVar) :=
  update (·.conclude d argument)

/-- A construct with one body. -/
def structured (name : String) (kind : FrameKind) (type : FuncType)
    (body : Label → Construction σ Unit) : Construction σ (List StackVar) := do
  let d ← definition name
  atomically do
    takeOperands name type.params
    let label ← enter kind type
    body label
    let body ← update (·.exit)
    conclude d (.block type body)

def block (type : FuncType) (body : Label → Construction σ Unit) :
    Construction σ (List StackVar) :=
  structured "block" .block type body

def loop (type : FuncType) (body : Label → Construction σ Unit) :
    Construction σ (List StackVar) :=
  structured "loop" .loop type body

/-- A conditional with one arm. Where the condition does not hold the
parameters become the results, so the two must agree. -/
def ifThen (type : FuncType) (thenBody : Label → Construction σ Unit) :
    Construction σ (List StackVar) := do
  unless type.params = type.results do
    throw (.unbalancedStack "if without else" type.results type.params)
  let d ← definition "if"
  atomically do
    takeOperands "if" (type.params ++ [.i32])
    let label ← enter .thenArm type
    thenBody label
    let thenBody ← update (·.exit)
    conclude d (.ifThen type thenBody)

/-- A conditional with two arms, which share one label. -/
def ifElse (type : FuncType) (thenBody elseBody : Label → Construction σ Unit) :
    Construction σ (List StackVar) := do
  let d ← definition "if"
  atomically do
    takeOperands "if" (type.params ++ [.i32])
    let label ← enter .thenArm type
    thenBody label
    let thenBody ← update (·.switchToElse)
    elseBody label
    let elseBody ← update (·.exit)
    conclude d (.ifElse type thenBody elseBody)

end Construction

/-! ## Whole bodies -/

/-- The declared locals and the code of a function. -/
structure FuncBody where
  locals : List ValType
  code : List Draft
deriving Inhabited

/-- The body that a construction leaves behind, if nothing is missing. -/
def Context.finish (c : Context) : Except BuildError FuncBody := do
  c.checkEnd
  return { locals := c.declaredLocals, code := c.frame.body }

/-- Runs the construction of a function body, from the given state of the
client to the state that it leaves. -/
def FuncBody.construct {σ : Type} (type : FuncType) (client : σ)
    (build : Construction σ Unit) : Except BuildError FuncBody × σ :=
  match build ⟨Context.forFunction type, client⟩ with
  | .ok _ after => (after.context.finish, after.client)
  | .error e after => (.error e, after.client)

end Wasm
