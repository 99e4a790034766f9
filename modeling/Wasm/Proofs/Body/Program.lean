import Wasm.Body.Shorthand
import Wasm.Proofs.Monads

/-!
# Programs of construction calls

A construction is any function on the body and the client's state, but a
client can only make one out of the operations of this library. `Program act
calls` says that `act` is made of those that write instructions by their
mnemonics and constructs by closures, and that `calls` gives the calls which a
run of it makes and keeps: what is written by a construct that fails is lost,
and so are its calls, while a call that succeeded before a failure that the
client catches stays.

One operation is left out: `Construction.perform` writes an instruction of any
definition with any code for its bodies, and then what is written is not told
by calls. `Script` has it too, and every program is a script.
-/

namespace Wasm

/-- A call that wrote an instruction. Those made inside a structured
construct belong to it. -/
inductive Call where
  | instr (name : String) (argument : Argument)
  | block (name : String) (type : FuncType) (body : List Call)
  | ifThen (type : FuncType) (thenBody : List Call)
  | ifElse (type : FuncType) (thenBody elseBody : List Call)
deriving Inhabited

namespace Construction

variable {σ α β : Type}

/-! ## The calls of a run -/

/-- The call that brings an operand onto the stack. -/
def operandCalls : Operand → List Call
  | .stack | .var _ => []
  | .localVar handle => [.instr "local.get" (.localVar handle)]
  | .globalVar handle => [.instr "global.get" (.globalVar handle)]
  | .i32 value => [.instr "i32.const" (.literal (.i32 value))]
  | .i64 value => [.instr "i64.const" (.literal (.i64 value))]
  | .f32 value => [.instr "f32.const" (.literal (.f32 value))]
  | .f64 value => [.instr "f64.const" (.literal (.f64 value))]

/-- Nothing is kept of a step that fails. -/
def ifOk (act : Construction σ α) (calls : Workspace σ → List Call) : Workspace σ → List Call :=
  fun w =>
    match act w with
    | .ok _ _ => calls w
    | .error _ _ => []

/-- The calls of a step that is taken where `act` ends. -/
def andThen (act : Construction σ α) (calls : α → Workspace σ → List Call) :
    Workspace σ → List Call :=
  fun w =>
    match act w with
    | .ok a w' => calls a w'
    | .error _ _ => []

/-- The calls of a handler, which runs where `act` failed. -/
def orElse (act : Construction σ α) (calls : BuildError → Workspace σ → List Call) :
    Workspace σ → List Call :=
  fun w =>
    match act w with
    | .ok _ _ => []
    | .error e w' => calls e w'

/-- The calls of an instruction: its operands are pushed first. -/
def instrCalls (name : String) (argument : Argument) (operands : List Operand) :
    Workspace σ → List Call :=
  ifOk (instr name argument operands) fun _ =>
    operands.flatMap operandCalls ++ [.instr name argument]

/-- Up to the first instruction inside a construct. -/
def opening (name : String) (types : List ValType) (kind : FrameKind) (type : FuncType) :
    Construction σ Label := do
  takeOperands name types
  enter kind type

/-- Up to the first instruction of the second arm of a conditional. -/
def openingElse (type : FuncType) (thenBody : Label → Construction σ Unit) :
    Construction σ Label := do
  let label ← opening "if" (type.params ++ [.i32]) .thenArm type
  thenBody label
  let _ ← update (·.switchToElse)
  return label

/-- The calls of a construct with one body. -/
def structuredCalls (name : String) (kind : FrameKind) (type : FuncType)
    (calls : Label → Workspace σ → List Call) : Workspace σ → List Call :=
  andThen (opening name type.params kind type) fun label w => [.block name type (calls label w)]

/-- The calls of a conditional with one arm. -/
def ifThenCalls (type : FuncType) (calls : Label → Workspace σ → List Call) :
    Workspace σ → List Call :=
  andThen (opening "if" (type.params ++ [.i32]) .thenArm type) fun label w =>
    [.ifThen type (calls label w)]

/-- The calls of a conditional with two arms. -/
def ifElseCalls (type : FuncType) (thenBody : Label → Construction σ Unit)
    (thenCalls elseCalls : Label → Workspace σ → List Call) : Workspace σ → List Call :=
  fun w => [.ifElse type
    (andThen (opening "if" (type.params ++ [.i32]) .thenArm type) thenCalls w)
    (andThen (openingElse type thenBody) elseCalls w)]

/-! ## Programs -/

/-- `act` is made of the operations of the library but for `perform`, and `calls`
are those that a run of it makes and keeps. -/
inductive Program : {α : Type} → Construction σ α → (Workspace σ → List Call) → Prop
  | pure {α : Type} (a : α) : Program (Pure.pure a) fun _ => []
  | throw {α : Type} (e : BuildError) : Program (throw e : Construction σ α) fun _ => []
  | bind {α β : Type} {act : Construction σ α} {next : α → Construction σ β}
      {calls : Workspace σ → List Call} {nextCalls : α → Workspace σ → List Call}
      (first : Program act calls) (second : ∀ a, Program (next a) (nextCalls a)) :
      Program (act >>= next) fun w => calls w ++ andThen act nextCalls w
  | tryCatch {α : Type} {act : Construction σ α} {handler : BuildError → Construction σ α}
      {calls : Workspace σ → List Call} {handlerCalls : BuildError → Workspace σ → List Call}
      (first : Program act calls) (second : ∀ e, Program (handler e) (handlerCalls e)) :
      Program (tryCatch act handler) fun w => calls w ++ orElse act handlerCalls w
  /-- A step of the client itself. -/
  | client {α : Type} (step : σ → α × σ) :
      Program (fun w => .ok (step w.client).1 { w with client := (step w.client).2 }) fun _ => []
  | inspect {α : Type} (query : Context → Except BuildError α) :
      Program (Construction.inspect query) fun _ => []
  | addLocal (type : ValType) : Program (Construction.addLocal type) fun _ => []
  | instr (name : String) (argument : Argument) (operands : List Operand) :
      Program (Construction.instr name argument operands) (instrCalls name argument operands)
  | block {type : FuncType} {body : Label → Construction σ Unit}
      {calls : Label → Workspace σ → List Call}
      (inner : ∀ label, Program (body label) (calls label)) :
      Program (Construction.block type body)
        (ifOk (Construction.block type body) (structuredCalls "block" .block type calls))
  | loop {type : FuncType} {body : Label → Construction σ Unit}
      {calls : Label → Workspace σ → List Call}
      (inner : ∀ label, Program (body label) (calls label)) :
      Program (Construction.loop type body)
        (ifOk (Construction.loop type body) (structuredCalls "loop" .loop type calls))
  | ifThen {type : FuncType} {body : Label → Construction σ Unit}
      {calls : Label → Workspace σ → List Call}
      (inner : ∀ label, Program (body label) (calls label)) :
      Program (Construction.ifThen type body)
        (ifOk (Construction.ifThen type body) (ifThenCalls type calls))
  | ifElse {type : FuncType} {thenBody elseBody : Label → Construction σ Unit}
      {thenCalls elseCalls : Label → Workspace σ → List Call}
      (innerThen : ∀ label, Program (thenBody label) (thenCalls label))
      (innerElse : ∀ label, Program (elseBody label) (elseCalls label)) :
      Program (Construction.ifElse type thenBody elseBody)
        (ifOk (Construction.ifElse type thenBody elseBody)
          (ifElseCalls type thenBody thenCalls elseCalls))

/-! ## Shorthands -/

theorem andThen_nothing (act : Construction σ α) : andThen act (fun _ _ => []) = fun _ => [] := by
  funext w
  rw [andThen]
  cases act w <;> rfl

theorem Program.emit (name : String) (operands : List Operand) :
    Program (σ := σ) (emit name operands) (instrCalls name .none operands) :=
  .instr name .none operands

theorem Program.single (name : String) (vars : List StackVar) :
    Program (σ := σ) (single name vars) fun _ => [] := by
  unfold Construction.single
  split
  · exact .pure _
  · exact .throw _

/-- A shorthand with one result makes the same calls. An instruction that
leaves another number of values stays written, although the shorthand fails. -/
theorem Program.value (name : String) (argument : Argument) (operands : List Operand) :
    Program (σ := σ) (value name argument operands) (instrCalls name argument operands) := by
  have both := (Program.instr (σ := σ) name argument operands).bind fun vars =>
    Program.single name vars
  simp only [andThen_nothing, List.append_nil] at both
  exact both

/-- A shorthand without a result makes the same calls. -/
theorem Program.effect (name : String) (argument : Argument) (operands : List Operand) :
    Program (σ := σ) (effect name argument operands) (instrCalls name argument operands) := by
  have both := (Program.instr (σ := σ) name argument operands).bind fun _ => Program.pure ()
  simp only [andThen_nothing, List.append_nil] at both
  exact both

end Construction

end Wasm
