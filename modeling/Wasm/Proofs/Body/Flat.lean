import Wasm.Proofs.Body.Fresh
import Wasm.Proofs.Body.Operands

/-!
# One stack for all frames

In the library every frame owns its values and its code. A machine has one
stack for all frames, and keeps with a frame only how high the stack was when
it was opened and the code around it, which was set aside. To cut a frame off
is to cut the stack short, the values of the current frame are a slice of the
stack, and how many there are is a difference. This is that machine, with each
difference, each slice and each access checked: where one of them goes wrong
there is no result at all. Where the current frame begins within the stack and
the parameters are among the locals, none of them does, and then what an
operation answers is about the values of the current frame alone.
-/

namespace Wasm

/-! ## Computations that can go wrong -/

/-- A computation that can be refused with an error, or go wrong without one. -/
abbrev Guarded (α : Type) := ExceptT BuildError Option α

namespace Guarded

variable {α β : Type}

/-- What does not go wrong. -/
def of (x : Except BuildError α) : Guarded α := ExceptT.mk (some x)

@[simp] theorem pure_eq_of (a : α) : (pure a : Guarded α) = of (.ok a) := rfl

@[simp] theorem of_ok_bind (a : α) (f : α → Guarded β) : (of (.ok a) >>= f) = f a := rfl

@[simp] theorem lift_some_bind (a : α) (f : α → Guarded β) :
    ((liftM (some a) : Guarded α) >>= f) = f a := rfl

/-- Both go on alike. -/
theorem of_bind {x : Except BuildError α} {f : α → Guarded β} {g : α → Except BuildError β}
    (same : ∀ a, f a = of (g a)) : (of x >>= f) = of (x >>= g) := by
  cases x with
  | error e => rfl
  | ok a => exact same a

end Guarded

/-- A difference that must not be negative. -/
def minus (a b : Nat) : Option Nat := if b ≤ a then some (a - b) else none

/-- The items from a place on that must not lie behind the last one. -/
def sliceFrom {α : Type} (items : List α) (start : Nat) : Option (List α) :=
  if start ≤ items.length then some (items.drop start) else none

/-- The items in front of a place that must not lie behind the last one. -/
def sliceTo {α : Type} (items : List α) (stop : Nat) : Option (List α) :=
  if stop ≤ items.length then some (items.take stop) else none

/-! ## The machine -/

/-- An open construct. -/
structure FlatFrame where
  label : Label
  kind : FrameKind
  startTypes : List ValType
  endTypes : List ValType
  unreachable : Bool := false
  /-- The length of the stack when the frame was opened. -/
  height : Nat
  /-- The code written so far in the frame around it. -/
  aside : List Draft

/-- What is seen of a frame besides its values and its code. -/
def FlatFrame.bare (frame : FlatFrame) : Frame where
  label := frame.label
  kind := frame.kind
  startTypes := frame.startTypes
  endTypes := frame.endTypes
  unreachable := frame.unreachable

/-- Why a body cannot be finished. -/
inductive FinishFault where
  | openFrames (count : Nat)
  | refused (e : BuildError)

/-- A body under construction, with the stack bottom first. -/
structure FlatContext where
  body : List Draft := []
  stack : List StackVar := []
  frame : FlatFrame
  /-- The frames around the current one, innermost first. -/
  outer : List FlatFrame := []
  locals : Array ValType
  paramCount : Nat
  varsMade : Nat := 0
  labelsMade : Nat := 1

namespace FlatContext

def forFunction (type : FuncType) : FlatContext where
  frame := { label := ⟨0⟩, kind := .function, startTypes := [], endTypes := type.results,
             height := 0, aside := [] }
  locals := type.params.toArray
  paramCount := type.params.length

/-! ### Locals -/

def params (m : FlatContext) : Option (List LocalHandle) := do
  let types ← sliceTo m.locals.toList m.paramCount
  return types.zipIdx.map fun (type, i) => ⟨UInt32.ofNat i, type⟩

def param (m : FlatContext) (index : UInt32) : Guarded LocalHandle := do
  if m.paramCount ≤ index.toNat then
    throw (.invalidArguments "param" (.noParam index m.paramCount))
  else
    let type ← (m.locals[index.toNat]? : Option ValType)
    return ⟨index, type⟩

def addLocal (m : FlatContext) (type : ValType) : LocalHandle × FlatContext :=
  (⟨UInt32.ofNat m.locals.size, type⟩, { m with locals := m.locals.push type })

/-! ### Looking at the stack -/

/-- The types of the values of the current frame, bottom first. -/
def frameTypes (m : FlatContext) : Option (List ValType) := do
  let values ← sliceFrom m.stack m.frame.height
  return values.map (·.type)

/-- The number of values of the current frame. -/
def available (m : FlatContext) : Option Nat := minus m.stack.length m.frame.height

/-- The type of the value `depth` places below the top of the stack. -/
def typeBelow (m : FlatContext) (depth : Nat) : Option ValType := do
  let top ← minus m.stack.length 1
  let place ← minus top depth
  let var ← m.stack[place]?
  return var.type

def peekType (m : FlatContext) (depth : Nat) : Option (Option ValType) := do
  let available ← m.available
  if depth < available then some <$> m.typeBelow depth else return none

/-- Whether one of the values from `depth` places below the top downwards is not
of its type, as far as these are among the `available` ones. -/
def anyMismatch (m : FlatContext) (available : Nat) : (depth : Nat) → List ValType → Option Bool
  | _, [] => return false
  | depth, type :: rest => do
    let wrong ← if depth < available then (· != type) <$> m.typeBelow depth else some false
    if wrong then return true else m.anyMismatch available (depth + 1) rest

def refuseTypes (m : FlatContext) (instruction : String) (types : List ValType) : Guarded Unit := do
  let found ← m.frameTypes
  throw (.stackType instruction types found)

def checkTop (m : FlatContext) (instruction : String) (types : List ValType) (skip : Nat) :
    Guarded Unit := do
  let available ← m.available
  if !m.frame.unreachable && decide (available < skip + types.length) then
    m.refuseTypes instruction types
  else
    let mismatch ← m.anyMismatch available skip types.reverse
    if mismatch then m.refuseTypes instruction types else return ()

/-! ### Changing the stack -/

def pop (m : FlatContext) (instruction : String) (types : List ValType) : Guarded FlatContext := do
  m.checkTop instruction types 0
  let available ← m.available
  let kept ← minus m.stack.length (min types.length available)
  return { m with stack := m.stack.take kept }

def push (m : FlatContext) (types : List ValType) : List StackVar × FlatContext :=
  let vars := Context.freshVars m.varsMade types
  (vars, { m with stack := m.stack ++ vars, varsMade := m.varsMade + types.length })

def write (m : FlatContext) (draft : Draft) : FlatContext := { m with body := m.body ++ [draft] }

def markUnreachable (m : FlatContext) : FlatContext :=
  { m with
    stack := m.stack.take m.frame.height
    frame := { m.frame with unreachable := true } }

/-! ### Frames -/

def enter (m : FlatContext) (kind : FrameKind) (type : FuncType) : Label × FlatContext :=
  let label : Label := ⟨UInt32.ofNat m.labelsMade⟩
  let inner := { m with
    body := []
    frame := { label, kind, startTypes := type.params, endTypes := type.results,
               height := m.stack.length, aside := m.body }
    outer := m.frame :: m.outer
    labelsMade := m.labelsMade + 1 }
  (label, (inner.push type.params).2)

/-- Whether the values found are what the end of the current frame asks for. -/
def balanced (m : FlatContext) (found : List ValType) : Bool :=
  if m.frame.unreachable then found.isSuffixOf m.frame.endTypes else found == m.frame.endTypes

/-- Checks the end of the current frame and takes its values off the stack. -/
def checkEnd (m : FlatContext) : Guarded FlatContext := do
  let found ← m.frameTypes
  if m.balanced found then return { m with stack := m.stack.take m.frame.height }
  else throw (.unbalancedStack m.frame.kind.text m.frame.endTypes found)

def exit (m : FlatContext) : Guarded (List Draft × FlatContext) := do
  let ended ← m.checkEnd
  match ended.outer with
  | parent :: outer =>
    return (ended.body, { ended with body := ended.frame.aside, frame := parent, outer })
  | [] => throw (.unknownLabel (.label ended.frame.label))

def switchToElse (m : FlatContext) : Guarded (List Draft × FlatContext) := do
  let ended ← m.checkEnd
  let arm := { ended with
    body := []
    frame := { ended.frame with kind := .elseArm, unreachable := false } }
  return (ended.body, (arm.push m.frame.startTypes).2)

/-- The declared locals and the code, unless frames are still open. -/
def finish (m : FlatContext) : ExceptT FinishFault Option FuncBody := do
  if m.outer.isEmpty then
    let ended ← m.checkEnd.adapt .refused
    let declared ← sliceFrom m.locals.toList m.paramCount
    return { locals := declared, code := ended.body }
  else throw (.openFrames m.outer.length)

/-! ### Instructions -/

/-- The body without its values and its code. -/
def bare (m : FlatContext) : Context where
  frame := m.frame.bare
  outer := m.outer.map FlatFrame.bare
  locals := m.locals
  paramCount := m.paramCount
  varsMade := m.varsMade
  labelsMade := m.labelsMade

def branchLabels (m : FlatContext) (d : InstrDef) (arity : Nat) :
    List Target → Guarded (List UInt32)
  | [] => return []
  | target :: rest => do
    let (depth, types) ← Guarded.of (m.bare.resolveTarget target)
    if types.length = arity then
      m.checkTop d.name types 1
      let labels ← m.branchLabels d arity rest
      return UInt32.ofNat depth :: labels
    else throw (.invalidArguments d.name (.arityMismatch target types.length arity))

/-- Four rules look at the stack; the others need not know of it. -/
def effect (m : FlatContext) (d : InstrDef) (argument : Argument) : Guarded Effect :=
  match d.typing with
  | .drop =>
    match argument with
    | .none => do
      let found ← m.peekType 0
      return { params := [found.getD .i32] }
    | other => .of (d.refuse other)
  | .select =>
    match argument with
    | .none => do
      let found ← m.peekType 1
      let type := found.getD .i32
      if type.isRef then throw (.invalidOperand d.name .referenceNeedsType)
      else return { params := [type, type, .i32], results := [type] }
    | other => .of (d.refuse other)
  | .refIsNull =>
    match argument with
    | .none => do
      let found ← m.peekType 0
      let type := (found.filter (·.isRef)).getD .funcRef
      return { params := [type], results := [.i32] }
    | other => .of (d.refuse other)
  | .brTable =>
    match argument with
    | .branchTable targets fallback => do
      let (depth, types) ← Guarded.of (m.bare.resolveTarget fallback)
      let labels ← m.branchLabels d types.length targets
      return {
        params := types ++ [.i32]
        capture := .literal (.brTable labels (UInt32.ofNat depth))
        diverges := true }
    | other => .of (d.refuse other)
  | _ => .of (d.effect m.bare argument)

def perform (m : FlatContext) (d : InstrDef) (argument : Argument) :
    Guarded (List StackVar × FlatContext) := do
  let effect ← m.effect d argument
  let popped ← m.pop d.name effect.params
  let (vars, pushed) := popped.push effect.results
  let written := pushed.write (Context.draftOf d effect)
  return (vars, if effect.diverges then written.markUnreachable else written)

def conclude (m : FlatContext) (d : InstrDef) (argument : Argument) :
    Guarded (List StackVar × FlatContext) := do
  let effect ← m.effect d argument
  let (vars, pushed) := m.push effect.results
  return (vars, pushed.write (Context.draftOf d effect))

/-- Whether a value stands at a place of the current frame: `position` places
above the lowest one of the `count` top ones. -/
def inPlace (m : FlatContext) (count position : Nat) (v : StackVar) : Bool :=
  match minus (m.stack.length + position) count with
  | some slot => decide (m.frame.height ≤ slot ∧ m.stack[slot]? = some v)
  | none => false

def checkPlaces (m : FlatContext) (name : String) (count : Nat) :
    (position : Nat) → List Operand → Except BuildError Unit
  | _, [] => .ok ()
  | position, .var v :: rest =>
    if m.inPlace count position v then m.checkPlaces name count (position + 1) rest
    else .error (.invalidOperand name (.notInPlace v position))
  | position, _ :: rest => m.checkPlaces name count (position + 1) rest

/-! ### Undoing -/

def mark (m : FlatContext) : Context.Mark := ⟨m.outer.length, m.stack, m.body.length⟩

/-- Closes frames until only `depth` are around the current one, taking up the
code that was set aside for each. -/
def closeTo (depth : Nat) (body : List Draft) (frame : FlatFrame) :
    List FlatFrame → List Draft × FlatFrame × List FlatFrame
  | [] => (body, frame, [])
  | parent :: outer =>
    if depth < (parent :: outer).length then closeTo depth frame.aside parent outer
    else (body, frame, parent :: outer)

/-- Undoes a construct. -/
def unwind (m : FlatContext) (mark : Context.Mark) : FlatContext :=
  let (body, frame, outer) := closeTo mark.depth m.body m.frame m.outer
  { m with body := body.take mark.written, stack := mark.stack, frame, outer }

/-- Undoes an instruction. -/
def cutBack (m : FlatContext) (mark : Context.Mark) : FlatContext :=
  { m with body := m.body.take mark.written, stack := m.stack.take mark.stack.length }

/-! ## The machine where the frame lies within the stack -/

/-- The values of the current frame, top first. -/
def own (m : FlatContext) : List StackVar := (m.stack.drop m.frame.height).reverse

section

variable {m : FlatContext} (fits : m.frame.height ≤ m.stack.length)

include fits

theorem frameTypes_eq : m.frameTypes = some (m.own.map (·.type)).reverse := by
  rw [frameTypes, sliceFrom, if_pos fits, own, List.map_reverse, List.reverse_reverse]
  rfl

theorem available_eq : m.available = some m.own.length := by
  rw [available, minus, if_pos fits, own, List.length_reverse, List.length_drop]

theorem typeBelow_eq {depth : Nat} (inside : depth < m.own.length) :
    m.typeBelow depth = m.own[depth]?.map (·.type) := by
  rw [own, List.length_reverse, List.length_drop] at inside
  have place : m.own[depth]? = m.stack[m.stack.length - 1 - depth]? := by
    rw [own, List.getElem?_reverse (by rw [List.length_drop]; exact inside), List.getElem?_drop,
      List.length_drop]
    congr 1
    omega
  have first : minus m.stack.length 1 = some (m.stack.length - 1) := if_pos (by omega)
  have second : minus (m.stack.length - 1) depth = some (m.stack.length - 1 - depth) :=
    if_pos (by omega)
  rw [place]
  simp only [typeBelow, first, second, Option.bind_eq_bind, Option.bind_some]
  cases m.stack[m.stack.length - 1 - depth]? <;> rfl

theorem peekType_eq (depth : Nat) : m.peekType depth = some (m.own[depth]?.map (·.type)) := by
  simp only [peekType, available_eq fits, Option.bind_eq_bind, Option.bind_some]
  split
  · rename_i inside
    rw [typeBelow_eq fits inside, List.getElem?_eq_getElem inside]
    rfl
  · rename_i outside
    rw [List.getElem?_eq_none (Nat.le_of_not_lt outside)]
    rfl

theorem anyMismatch_eq (depth : Nat) (types : List ValType) :
    m.anyMismatch m.own.length depth types =
      some !(Context.agree (m.own.drop depth) types) := by
  induction types generalizing depth with
  | nil => cases m.own.drop depth <;> rfl
  | cons type rest ih =>
      rw [anyMismatch]
      by_cases inside : depth < m.own.length
      · rw [if_pos inside, typeBelow_eq fits inside, ih, List.drop_eq_getElem_cons inside,
          List.getElem?_eq_getElem inside, Context.agree]
        cases same : m.own[depth].type == type <;> simp [bne, same]
      · -- No deeper value is in the frame either.
        have deep := Nat.le_of_not_lt inside
        rw [if_neg inside, ih, List.drop_eq_nil_of_le deep,
          List.drop_eq_nil_of_le (Nat.le_succ_of_le deep)]
        cases rest <;> rfl

theorem refuseTypes_eq (name : String) (types : List ValType) :
    m.refuseTypes name types =
      .of (.error (.stackType name types (m.own.map (·.type)).reverse)) := by
  rw [refuseTypes, frameTypes_eq fits]
  rfl

/-- What is checked is about the values of the frame alone. -/
theorem checkTop_eq (name : String) (types : List ValType) (skip : Nat) :
    m.checkTop name types skip = .of
      (if (m.frame.unreachable || Bytes.hasAtLeast (skip + types.length) m.own) &&
          Context.agree (m.own.drop skip) types.reverse
        then .ok () else .error (.stackType name types (m.own.map (·.type)).reverse)) := by
  have few : decide (m.own.length < skip + types.length) =
      !Bytes.hasAtLeast (skip + types.length) m.own := by
    rw [Bool.eq_iff_iff, decide_eq_true_iff, Bool.not_eq_true', ← Bool.not_eq_true,
      Bytes.hasAtLeast_iff, Nat.not_le]
  simp only [checkTop, available_eq fits, Guarded.lift_some_bind, anyMismatch_eq fits,
    refuseTypes_eq fits, few]
  cases m.frame.unreachable <;> cases Bytes.hasAtLeast (skip + types.length) m.own <;>
    cases Context.agree (m.own.drop skip) types.reverse <;> rfl

/-- As many values as there are types are taken away, but none that are below the frame. -/
theorem pop_eq (name : String) (types : List ValType) :
    m.pop name types = m.checkTop name types 0 >>= fun _ =>
      .of (.ok { m with
        stack := m.stack.take (m.stack.length - min types.length m.own.length) }) := by
  have kept : minus m.stack.length (min types.length m.own.length) =
      some (m.stack.length - min types.length m.own.length) := by
    refine if_pos (Nat.le_trans (Nat.min_le_right _ _) ?_)
    rw [own, List.length_reverse, List.length_drop]
    exact Nat.sub_le _ _
  simp only [pop, available_eq fits, Guarded.lift_some_bind, kept, Guarded.pure_eq_of]

theorem checkEnd_eq : m.checkEnd = .of
    (if m.balanced (m.own.map (·.type)).reverse
      then .ok { m with stack := m.stack.take m.frame.height }
      else .error (.unbalancedStack m.frame.kind.text m.frame.endTypes
        (m.own.map (·.type)).reverse)) := by
  rw [checkEnd, frameTypes_eq fits, Guarded.lift_some_bind]
  split <;> rfl

end

/-! ## The machine where the parameters are among the locals -/

section

variable {m : FlatContext} (declared : m.paramCount ≤ m.locals.size)

include declared

theorem params_eq : m.params = some ((m.locals.toList.take m.paramCount).zipIdx.map
    fun (type, i) => ⟨UInt32.ofNat i, type⟩) := by
  have inside : m.paramCount ≤ m.locals.toList.length := by rwa [Array.length_toList]
  rw [params, sliceTo, if_pos inside]
  rfl

theorem param_eq (index : UInt32) : m.param index = .of
    (match (m.locals.toList.take m.paramCount)[index.toNat]? with
      | some type => .ok ⟨index, type⟩
      | none => .error (.invalidArguments "param" (.noParam index m.paramCount))) := by
  rw [param, List.getElem?_take, Array.getElem?_toList]
  by_cases outside : m.paramCount ≤ index.toNat
  · rw [if_pos outside, if_neg (Nat.not_lt.mpr outside)]
    rfl
  · have inside := Nat.lt_of_not_le outside
    rw [if_neg outside, if_pos inside,
      Array.getElem?_eq_getElem (Nat.lt_of_lt_of_le inside declared)]
    rfl

/-- The locals can be cut where the parameters end. -/
theorem finish_eq : m.finish = if m.outer.isEmpty then do
      let ended ← m.checkEnd.adapt .refused
      return { locals := m.locals.toList.drop m.paramCount, code := ended.body }
    else throw (.openFrames m.outer.length) := by
  have inside : m.paramCount ≤ m.locals.toList.length := by rwa [Array.length_toList]
  rw [finish, sliceFrom, if_pos inside]
  rfl

end

end FlatContext

end Wasm
