import Wasm.Body.Draft
import Wasm.Body.Error

/-!
# The state of a body under construction

A body is written from its first instruction to its last, and its state is a
stack of frames: one for each construct that is still open, the function
itself outermost. A frame holds the values that were pushed inside it and the
instructions written inside it, so nothing that happens in a frame can touch
the values or the code of the frames around it. After an instruction that
does not hand on control a frame is unreachable: its values are gone, and
operands that are missing are taken to be there.
-/

namespace Wasm

inductive FrameKind where
  | function
  | block
  | loop
  | thenArm
  | elseArm
deriving DecidableEq, Inhabited, Repr

/-- What an unbalanced construct is called in messages. -/
def FrameKind.text : FrameKind → String
  | .function => "function"
  | .block => "block"
  | .loop => "loop"
  | .thenArm => "if"
  | .elseArm => "else"

/-- An open construct. -/
structure Frame where
  label : Label
  kind : FrameKind
  startTypes : List ValType
  endTypes : List ValType
  unreachable : Bool := false
  /-- The values pushed inside the frame, the top of the stack first. -/
  values : List StackVar := []
  /-- The instructions written inside the frame, the last one first. -/
  written : List Draft := []
deriving Inhabited

namespace Frame

/-- The types that a branch to the frame takes. -/
def labelTypes (frame : Frame) : List ValType :=
  match frame.kind with
  | .loop => frame.startTypes
  | _ => frame.endTypes

/-- The types of the values in the frame, bottom first. -/
def types (frame : Frame) : List ValType :=
  (frame.values.map (·.type)).reverse

/-- The instructions of the frame in the order they were written. -/
def body (frame : Frame) : List Draft := frame.written.reverse

end Frame

/-- A body under construction. -/
structure Context where
  frame : Frame
  /-- The frames around the current one, innermost first. -/
  outer : List Frame := []
  /-- The types of the parameters and the declared locals. -/
  locals : Array ValType
  paramCount : Nat
  /-- How many values were made in this body. The next one has this number for its
  id, modulo 2^32 as it is where overflow is not checked. -/
  varsMade : Nat := 0
  /-- How many labels were made, likewise. The first one is that of the function. -/
  labelsMade : Nat := 1
deriving Inhabited

namespace Context

/-- The start of a function of the given type. -/
def forFunction (type : FuncType) : Context where
  frame := { label := ⟨0⟩, kind := .function, startTypes := [], endTypes := type.results }
  locals := type.params.toArray
  paramCount := type.params.length

/-! ## Locals -/

/-- The parameters of the function. -/
def params (c : Context) : List LocalHandle :=
  (c.locals.toList.take c.paramCount).zipIdx.map fun (type, i) => ⟨UInt32.ofNat i, type⟩

/-- A parameter of the function. -/
def param (c : Context) (index : UInt32) : Except BuildError LocalHandle :=
  match c.params[index.toNat]? with
  | some handle => .ok handle
  | none => .error (.invalidArguments "param" (.noParam index c.paramCount))

/-- Declares one more local. -/
def addLocal (c : Context) (type : ValType) : LocalHandle × Context :=
  (⟨UInt32.ofNat c.locals.size, type⟩, { c with locals := c.locals.push type })

/-- The type of a local that belongs to this body. -/
def localType (c : Context) (handle : LocalHandle) : Except BuildError ValType :=
  if c.locals[handle.index.toNat]? = some handle.type then .ok handle.type
  else .error (.unknownLocal handle)

/-- The types of the locals that are not parameters. -/
def declaredLocals (c : Context) : List ValType := c.locals.toList.drop c.paramCount

/-! ## Looking at the stack -/

/-- All frames, innermost first. -/
def frames (c : Context) : List Frame := c.frame :: c.outer

/-- The whole operand stack, bottom first. -/
def stack (c : Context) : List StackVar := (c.frames.flatMap (·.values)).reverse

/-- The number of frames around the current one. -/
def depth (c : Context) : Nat := c.outer.length

/-- The result types of the function. -/
def returnTypes (c : Context) : List ValType :=
  (c.outer.getLast?.getD c.frame).endTypes

/-- The type of the value `depth` places below the top, if it lies in the
current frame. -/
def peekType (c : Context) (depth : Nat) : Option ValType :=
  c.frame.values[depth]?.map (·.type)

/-- The number of frames between the current one and the target, and the
types that a branch there takes. -/
def resolveTarget (c : Context) (target : Target) : Except BuildError (Nat × List ValType) :=
  let depth := match target with
    | .label l => c.frames.findIdx (·.label = l)
    | .depth d => d.toNat
  match c.frames[depth]? with
  | some frame => .ok (depth, frame.labelTypes)
  | none => .error (.unknownLabel target)

/-- Whether values have the types wanted of them, top first, as far as there
are both. -/
def agree : List StackVar → List ValType → Bool
  | var :: vars, type :: types => var.type == type && agree vars types
  | _, _ => true

/-- Checks that the values below the top `skip` ones have the given types,
the last type for the highest value. In an unreachable frame missing values
have any type. -/
def checkTop (c : Context) (instruction : String) (types : List ValType) (skip : Nat) :
    Except BuildError Unit :=
  let enough := Bytes.hasAtLeast (skip + types.length) c.frame.values
  if (c.frame.unreachable || enough) && agree (c.frame.values.drop skip) types.reverse then
    .ok ()
  else .error (.stackType instruction types c.frame.types)

/-! ## Changing the stack -/

/-- Takes values of the given types off the stack, as far as there are any. -/
def pop (c : Context) (instruction : String) (types : List ValType) :
    Except BuildError Context := do
  c.checkTop instruction types 0
  return { c with frame := { c.frame with values := c.frame.values.drop types.length } }

/-- Fresh values of the given types, behind `made` other ones. -/
def freshVars (made : Nat) (types : List ValType) : List StackVar :=
  types.zipIdx.map fun (type, i) => ⟨UInt32.ofNat (made + i), type⟩

/-- Puts fresh values on the stack, the last one on top. -/
def push (c : Context) (types : List ValType) : List StackVar × Context :=
  let vars := freshVars c.varsMade types
  (vars,
    { c with
      frame := { c.frame with values := vars.reverse ++ c.frame.values }
      varsMade := c.varsMade + types.length })

/-- Writes an instruction. -/
def write (c : Context) (draft : Draft) : Context :=
  { c with frame := { c.frame with written := draft :: c.frame.written } }

/-- Control does not get past this point of the frame. -/
def markUnreachable (c : Context) : Context :=
  { c with frame := { c.frame with values := [], unreachable := true } }

/-! ## Frames -/

/-- The label of the construct that is begun next. -/
def nextLabel (c : Context) : Label := ⟨UInt32.ofNat c.labelsMade⟩

/-- Opens a frame for a construct of the given type, with its parameters on
the stack. -/
def enter (c : Context) (kind : FrameKind) (type : FuncType) : Label × Context :=
  let label := c.nextLabel
  let inner := { c with
    frame := { label, kind, startTypes := type.params, endTypes := type.results }
    outer := c.frame :: c.outer
    labelsMade := c.labelsMade + 1 }
  (label, (inner.push type.params).2)

/-- Whether the values in a frame are what its end asks for. In an
unreachable frame they need only be the last ones of those. -/
def endMatches (frame : Frame) : Bool :=
  if frame.unreachable then frame.types.isSuffixOf frame.endTypes
  else frame.types == frame.endTypes

/-- Checks the end of the current frame. -/
def checkEnd (c : Context) : Except BuildError Unit :=
  if endMatches c.frame then .ok ()
  else .error (.unbalancedStack c.frame.kind.text c.frame.endTypes c.frame.types)

/-- Closes the current frame; the result is the body written in it and the
state of the frame around it. -/
def exit (c : Context) : Except BuildError (List Draft × Context) := do
  c.checkEnd
  match c.outer with
  | parent :: outer => return (c.frame.body, { c with frame := parent, outer })
  | [] => throw (.unknownLabel (.label c.frame.label))

/-- Closes the first arm of a conditional and opens the second one, which has
the same label; the result is the body of the first arm. -/
def switchToElse (c : Context) : Except BuildError (List Draft × Context) := do
  c.checkEnd
  let arm := { c with
    frame := { c.frame with kind := .elseArm, unreachable := false, values := [], written := [] } }
  return (c.frame.body, (arm.push c.frame.startTypes).2)

/-- Undoes everything since the state `before`, but for the locals that were
declared and for the ids that were handed out. -/
def rollbackTo (c before : Context) : Context :=
  { before with locals := c.locals, varsMade := c.varsMade, labelsMade := c.labelsMade }

end Context

end Wasm
