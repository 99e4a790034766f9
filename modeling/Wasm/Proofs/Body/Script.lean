import Wasm.Proofs.Body.Flattened
import Wasm.Proofs.Body.Undo

/-!
# One program for two

A script is a program of construction calls as a tree, so that the same
program can be run by the library and by the machine with one stack. The
machine takes the steps of each call itself and undoes a call that fails by
what it noted before. It does not go wrong, and ends with the answer of the
library, in the state of the library laid out on the stack.
-/

namespace Wasm

/-! ## Constructions of the machine -/

/-- The machine beside the state of the client. -/
structure FlatSpace (σ : Type) where
  machine : FlatContext
  client : σ

/-- A construction of the machine: it can fail, and it can go wrong, which no
handler sees. -/
def FlatConstruction (σ α : Type) :=
  FlatSpace σ → Option (EStateM.Result BuildError (FlatSpace σ) α)

namespace FlatConstruction

variable {σ α β : Type}

def bind (act : FlatConstruction σ α) (next : α → FlatConstruction σ β) :
    FlatConstruction σ β := fun w =>
  match act w with
  | some (.ok a after) => next a after
  | some (.error e after) => some (.error e after)
  | none => none

instance : Monad (FlatConstruction σ) where
  pure a := fun w => some (.ok a w)
  bind := bind

def tryCatch (act : FlatConstruction σ α) (handler : BuildError → FlatConstruction σ α) :
    FlatConstruction σ α := fun w =>
  match act w with
  | some (.ok a after) => some (.ok a after)
  | some (.error e after) => handler e after
  | none => none

instance : MonadExceptOf BuildError (FlatConstruction σ) where
  throw e := fun w => some (.error e w)
  tryCatch := tryCatch

/-- Looks something up in the machine, which stays as it is. -/
def inspect (query : FlatContext → Guarded α) : FlatConstruction σ α := fun w =>
  match (query w.machine).run with
  | some (.ok a) => some (.ok a w)
  | some (.error e) => some (.error e w)
  | none => none

/-- Changes the machine, unless the change is refused. -/
def update (f : FlatContext → Guarded (α × FlatContext)) : FlatConstruction σ α := fun w =>
  match (f w.machine).run with
  | some (.ok (a, machine)) => some (.ok a { w with machine })
  | some (.error e) => some (.error e w)
  | none => none

/-- Takes steps, and undoes them by what was noted before if one of them fails. -/
def undoing (undo : FlatContext → Context.Mark → FlatContext) (steps : FlatConstruction σ α) :
    FlatConstruction σ α := fun w =>
  match steps w with
  | some (.ok a after) => some (.ok a after)
  | some (.error e after) =>
    some (.error e { after with machine := undo after.machine w.machine.mark })
  | none => none

def addLocal (type : ValType) : FlatConstruction σ LocalHandle :=
  update fun m => return m.addLocal type

def definition (name : String) : FlatConstruction σ InstrDef := fun w =>
  match InstrSet.standard.named name with
  | .ok d => some (.ok d w)
  | .error e => some (.error (.unknownInstruction e) w)

def perform (d : InstrDef) (argument : Argument) : FlatConstruction σ (List StackVar) :=
  update (·.perform d argument)

def pushOperand : Operand → FlatConstruction σ Unit
  | .stack | .var _ => return ()
  | .localVar handle => do
    let _ ← perform (← definition "local.get") (.localVar handle)
  | .globalVar handle => do
    let _ ← perform (← definition "global.get") (.globalVar handle)
  | .i32 value => do
    let _ ← perform (← definition "i32.const") (.literal (.i32 value))
  | .i64 value => do
    let _ ← perform (← definition "i64.const") (.literal (.i64 value))
  | .f32 value => do
    let _ ← perform (← definition "f32.const") (.literal (.f32 value))
  | .f64 value => do
    let _ ← perform (← definition "f64.const") (.literal (.f64 value))

def pushOperands : List Operand → FlatConstruction σ Unit
  | [] => return ()
  | operand :: rest => do
    pushOperand operand
    pushOperands rest

def bindOperands (name : String) (operands : List Operand) : FlatConstruction σ Unit := do
  let onStack := operands.takeWhile (·.isOnStack)
  let explicit := operands.dropWhile (·.isOnStack)
  if explicit.any (·.isOnStack) then
    throw (.invalidOperand name .stackAfterExplicit)
  inspect fun m => .of (m.checkPlaces name onStack.length 0 onStack)
  pushOperands explicit

def instrSteps (name : String) (argument : Argument) (operands : List Operand) :
    FlatConstruction σ (List StackVar) := do
  let d ← definition name
  if d.shape.isStructured then throw (.invalidArguments d.name .structured)
  bindOperands d.name operands
  perform d argument

def takeOperands (name : String) (types : List ValType) : FlatConstruction σ Unit :=
  update fun m => return ((), ← m.pop name types)

def enter (kind : FrameKind) (type : FuncType) : FlatConstruction σ Label :=
  update fun m => return m.enter kind type

def conclude (d : InstrDef) (argument : Argument) : FlatConstruction σ (List StackVar) :=
  update (·.conclude d argument)

def structuredSteps (name : String) (kind : FrameKind) (type : FuncType)
    (body : Label → FlatConstruction σ Unit) : FlatConstruction σ (List StackVar) := do
  let d ← definition name
  takeOperands name type.params
  let label ← enter kind type
  body label
  let body ← update (·.exit)
  conclude d (.block type body)

def ifThenSteps (type : FuncType) (thenBody : Label → FlatConstruction σ Unit) :
    FlatConstruction σ (List StackVar) := do
  unless type.params = type.results do
    throw (.unbalancedStack "if without else" type.results type.params)
  let d ← definition "if"
  takeOperands "if" (type.params ++ [.i32])
  let label ← enter .thenArm type
  thenBody label
  let thenBody ← update (·.exit)
  conclude d (.ifThen type thenBody)

def ifElseSteps (type : FuncType) (thenBody elseBody : Label → FlatConstruction σ Unit) :
    FlatConstruction σ (List StackVar) := do
  let d ← definition "if"
  takeOperands "if" (type.params ++ [.i32])
  let label ← enter .thenArm type
  thenBody label
  let thenBody ← update (·.switchToElse)
  elseBody label
  let elseBody ← update (·.exit)
  conclude d (.ifElse type thenBody elseBody)

end FlatConstruction

/-! ## Scripts -/

/-- A question about a body, as the library answers it and as the machine does. -/
structure Query (α : Type) where
  ask : Context → Except BuildError α
  askFlat : FlatContext → Guarded α
  same : ∀ c : Context, c.paramCount ≤ c.locals.size → askFlat c.flat = .of (ask c)

namespace Query

variable {α : Type}

/-- The machine answers by what it looks like taken apart. -/
def of (ask : Context → Except BuildError α) : Query α where
  ask
  askFlat m := .of (ask m.apart)
  same c _ := by rw [c.apart_flat]

def frameTypes : Query (List ValType) where
  ask c := .ok c.frame.types
  askFlat m := liftM m.frameTypes
  same c _ := by
    rw [c.frameTypes_flat]
    rfl

def peekType (depth : Nat) : Query (Option ValType) where
  ask c := .ok (c.peekType depth)
  askFlat m := liftM (m.peekType depth)
  same c _ := by
    rw [c.peekType_flat]
    rfl

def checkTop (name : String) (types : List ValType) (skip : Nat) : Query Unit where
  ask c := c.checkTop name types skip
  askFlat m := m.checkTop name types skip
  same c _ := c.checkTop_flat name types skip

def params : Query (List LocalHandle) where
  ask c := .ok c.params
  askFlat m := liftM m.params
  same c declared := by
    rw [c.params_flat declared]
    rfl

def param (index : UInt32) : Query LocalHandle where
  ask c := c.param index
  askFlat m := m.param index
  same c declared := c.param_flat declared index

end Query

/-- A program of construction calls. An instruction is written by its mnemonic,
with operands, or by any definition, with all operands on the stack. -/
inductive Script (σ : Type) : Type → Type 1
  | pure {α : Type} (a : α) : Script σ α
  | throw {α : Type} (e : BuildError) : Script σ α
  | bind {α β : Type} (first : Script σ α) (next : α → Script σ β) : Script σ β
  | tryCatch {α : Type} (attempt : Script σ α) (handler : BuildError → Script σ α) : Script σ α
  /-- A step of the client itself. -/
  | client {α : Type} (step : σ → α × σ) : Script σ α
  | inspect {α : Type} (query : Query α) : Script σ α
  | addLocal (type : ValType) : Script σ LocalHandle
  | perform (d : InstrDef) (argument : Argument) : Script σ (List StackVar)
  | instr (name : String) (argument : Argument) (operands : List Operand) :
      Script σ (List StackVar)
  | block (type : FuncType) (body : Label → Script σ Unit) : Script σ (List StackVar)
  | loop (type : FuncType) (body : Label → Script σ Unit) : Script σ (List StackVar)
  | ifThen (type : FuncType) (thenBody : Label → Script σ Unit) : Script σ (List StackVar)
  | ifElse (type : FuncType) (thenBody elseBody : Label → Script σ Unit) :
      Script σ (List StackVar)

namespace Script

variable {σ : Type}

/-- A body of one instruction, of any definition. -/
def single (d : InstrDef) (argument : Argument) : Script σ Unit :=
  .bind (.perform d argument) fun _ => .pure ()

/-- The library runs a script. -/
def run : {α : Type} → Script σ α → Construction σ α
  | _, .pure a => Pure.pure a
  | _, .throw e => MonadExcept.throw e
  | _, .bind first next => first.run >>= fun a => (next a).run
  | _, .tryCatch attempt handler => MonadExcept.tryCatch attempt.run fun e => (handler e).run
  | _, .client step => fun w => .ok (step w.client).1 { w with client := (step w.client).2 }
  | _, .inspect query => Construction.inspect query.ask
  | _, .addLocal type => Construction.addLocal type
  | _, .perform d argument => Construction.perform d argument
  | _, .instr name argument operands => Construction.instr name argument operands
  | _, .block type body => Construction.block type fun label => (body label).run
  | _, .loop type body => Construction.loop type fun label => (body label).run
  | _, .ifThen type thenBody => Construction.ifThen type fun label => (thenBody label).run
  | _, .ifElse type thenBody elseBody =>
    Construction.ifElse type (fun label => (thenBody label).run) fun label => (elseBody label).run

/-- The machine runs a script. -/
def runFlat : {α : Type} → Script σ α → FlatConstruction σ α
  | _, .pure a => Pure.pure a
  | _, .throw e => MonadExcept.throw e
  | _, .bind first next => first.runFlat >>= fun a => (next a).runFlat
  | _, .tryCatch attempt handler =>
    MonadExcept.tryCatch attempt.runFlat fun e => (handler e).runFlat
  | _, .client step => fun w =>
    some (.ok (step w.client).1 { w with client := (step w.client).2 })
  | _, .inspect query => FlatConstruction.inspect query.askFlat
  | _, .addLocal type => FlatConstruction.addLocal type
  | _, .perform d argument => FlatConstruction.perform d argument
  | _, .instr name argument operands =>
    .undoing FlatContext.cutBack (.instrSteps name argument operands)
  | _, .block type body =>
    .undoing FlatContext.unwind (.structuredSteps "block" .block type fun label =>
      (body label).runFlat)
  | _, .loop type body =>
    .undoing FlatContext.unwind (.structuredSteps "loop" .loop type fun label =>
      (body label).runFlat)
  | _, .ifThen type thenBody =>
    .undoing FlatContext.unwind (.ifThenSteps type fun label => (thenBody label).runFlat)
  | _, .ifElse type thenBody elseBody =>
    .undoing FlatContext.unwind (.ifElseSteps type (fun label => (thenBody label).runFlat)
      fun label => (elseBody label).runFlat)

end Script

open Construction in
/-- Every program is a script run by the library. -/
theorem Construction.Program.exists_script {σ α : Type} {act : Construction σ α}
    {calls : Workspace σ → List Call} (program : Program act calls) :
    ∃ script : Script σ α, script.run = act := by
  -- What follows a result, and a closure with its label, is a script for each of them.
  induction program with
  | pure a => exact ⟨.pure a, rfl⟩
  | throw e => exact ⟨.throw e, rfl⟩
  | bind _ _ first second =>
      obtain ⟨script, rfl⟩ := first
      choose next same using second
      obtain rfl := funext same
      exact ⟨.bind script next, rfl⟩
  | tryCatch _ _ first second =>
      obtain ⟨script, rfl⟩ := first
      choose handler same using second
      obtain rfl := funext same
      exact ⟨.tryCatch script handler, rfl⟩
  | client step => exact ⟨.client step, rfl⟩
  | inspect query => exact ⟨.inspect (.of query), rfl⟩
  | addLocal type => exact ⟨.addLocal type, rfl⟩
  | instr name argument operands => exact ⟨.instr name argument operands, rfl⟩
  | @block type _ _ _ inner =>
      choose body same using inner
      obtain rfl := funext same
      exact ⟨.block type body, rfl⟩
  | @loop type _ _ _ inner =>
      choose body same using inner
      obtain rfl := funext same
      exact ⟨.loop type body, rfl⟩
  | @ifThen type _ _ _ inner =>
      choose body same using inner
      obtain rfl := funext same
      exact ⟨.ifThen type body, rfl⟩
  | @ifElse type _ _ _ _ _ _ innerThen innerElse =>
      choose thenBody same using innerThen
      choose elseBody sameElse using innerElse
      obtain rfl := funext same
      obtain rfl := funext sameElse
      exact ⟨.ifElse type thenBody elseBody, rfl⟩

/-! ## Where a run ends -/

namespace Context

variable {c c' c'' popped inner after closed : Context}

/-- `c'` is in the frame of `c`, with more code there, and on top of what is
left of the stack there are new values only. -/
structure Continues (c c' : Context) : Prop where
  frame : ∃ drafts, c.Extends drafts c'
  renews : c.Renews c'

theorem Continues.grows (h : c.Continues c') : c.Grows c' := by
  obtain ⟨drafts, written⟩ := h.frame
  exact written.toGrows

theorem Continues.refl (c : Context) : c.Continues c :=
  ⟨⟨[], (Undone.refl c).extends⟩, Renews.refl c⟩

theorem Continues.trans (first : c.Continues c') (second : c'.Continues c'') :
    c.Continues c'' := by
  obtain ⟨drafts, written⟩ := first.frame
  obtain ⟨drafts', written'⟩ := second.frame
  exact ⟨⟨_, written.trans written'⟩, first.renews.trans second.renews⟩

theorem Undone.continues (h : c.Undone c') : c.Continues c' := by
  refine ⟨⟨[], h.extends⟩, .of_kept h.varsMade ?_⟩
  rw [stack, frames, h.frame, h.outer]
  exact List.prefix_rfl

theorem continues_pop {name : String} {types : List ValType}
    (taken : c.pop name types = .ok popped) : c.Continues popped :=
  ⟨⟨[], extends_pop taken⟩, renews_pop taken⟩

theorem continues_perform {d : InstrDef} {argument : Argument} {vars : List StackVar}
    (done : c.perform d argument = .ok (vars, c')) : c.Continues c' := by
  obtain ⟨effect, -, written⟩ := extends_perform done
  exact ⟨⟨_, written⟩, renews_perform done⟩

/-- A construct whose last arm `inner` begins, from where it took its operands. -/
theorem continues_closed {name : String} {types : List ValType} {drafts : List Draft}
    {d : InstrDef} {argument : Argument} {vars : List StackVar}
    (taken : c.pop name types = .ok popped) (inside : popped.Inside inner)
    (renewed : c.Renews inner) (ran : inner.Continues after)
    (left : after.exit = .ok (drafts, closed))
    (written : closed.conclude d argument = .ok (vars, c')) : c.Continues c' := by
  obtain ⟨body, extended⟩ := ran.frame
  obtain ⟨effect, -, concluded⟩ := extends_conclude written
  refine ⟨⟨_, ((extends_pop taken).trans (inside.exit extended left).2).trans concluded⟩, ?_⟩
  exact ((renewed.trans ran.renews).trans (renews_exit left)).trans (renews_conclude written)

end Context

namespace Construction

variable {σ α : Type}

/-- However a run ends, it ends in the frame where it began. -/
def Continuing (act : Construction σ α) : Prop := Along Context.Continues act

namespace Continuing

theorem stays {act : Construction σ α} (h : Continuing act) : Stays act :=
  fun w w' left => (h w w' left).frame

theorem monotone {act : Construction σ α} (h : Continuing act) : Monotone act :=
  fun w w' left => (h w w' left).grows

/-- All calls in a row, whichever they are. -/
theorem traces : Traces fun _ c c' => c.Continues c' where
  nothing := Context.Continues.refl
  append first second := first.trans second
  perform _ _ done := Context.continues_perform done

theorem client (step : σ → α × σ) : Continuing fun w =>
    .ok (step w.client).1 { w with client := (step w.client).2 } :=
  Along.client Context.Continues.refl step

theorem inspect (query : Context → Except BuildError α) :
    Continuing (Construction.inspect query : Construction σ α) :=
  Along.inspect Context.Continues.refl query

theorem addLocal (type : ValType) :
    Continuing (Construction.addLocal type : Construction σ LocalHandle) := by
  rintro w w' (⟨_, same⟩ | ⟨_, same⟩) <;> cases same
  exact (Context.undone_addLocal _ _).continues

theorem perform (d : InstrDef) (argument : Argument) :
    Continuing (Construction.perform d argument : Construction σ _) := by
  rintro w w' (⟨vars, done⟩ | ⟨e, failed⟩)
  · obtain ⟨c, performed, rfl⟩ := update_eq_ok.mp done
    exact Context.continues_perform performed
  · rw [(update_eq_error.mp failed).2]
    exact Context.Continues.refl _

theorem instr (name : String) (argument : Argument) (operands : List Operand) :
    Continuing (Construction.instr name argument operands : Construction σ _) := by
  rintro w w' (⟨vars, done⟩ | ⟨e, failed⟩)
  · exact traces.instr done
  · exact (undone_of_instr_error failed).continues

/-- A construct with one arm that ends. -/
theorem oneArm {name : String} {types : List ValType} {kind : FrameKind} {type : FuncType}
    {label : Label} {d : InstrDef} {argument : Argument} {drafts : List Draft}
    {vars : List StackVar} {w inside after closed w' : Workspace σ}
    (opened : opening name types kind type w = .ok label inside)
    (ran : inside.context.Continues after.context)
    (left : update (·.exit) after = .ok drafts closed)
    (written : conclude d argument closed = .ok vars w') : w.context.Continues w'.context := by
  obtain ⟨popped, taken, -, rfl⟩ := opening_eq_ok.mp opened
  obtain ⟨c, exited, rfl⟩ := update_eq_ok.mp left
  obtain ⟨c', concluded, rfl⟩ := update_eq_ok.mp written
  exact Context.continues_closed taken (Context.inside_enter popped kind type)
    ((Context.renews_pop taken).trans (Context.renews_enter popped kind type)) ran exited concluded

theorem structured {body : Label → Construction σ Unit} (name : String) (kind : FrameKind)
    (type : FuncType) (inner : ∀ label, Continuing (body label)) :
    Continuing (Construction.structured name kind type body) := by
  rintro w w' (⟨vars, done⟩ | ⟨e, failed⟩)
  · obtain ⟨d, label, inside, after, drafts, closed, -, opened, ran, left, written⟩ :=
      structured_eq_ok.mp done
    exact oneArm opened (inner label inside after (.of_ok ran)) left written
  · exact (undone_of_structured_error (fun label => (inner label).monotone) failed).continues

theorem ifThen {body : Label → Construction σ Unit} (type : FuncType)
    (inner : ∀ label, Continuing (body label)) : Continuing (Construction.ifThen type body) := by
  rintro w w' (⟨vars, done⟩ | ⟨e, failed⟩)
  · obtain ⟨-, d, label, inside, after, drafts, closed, -, opened, ran, left, written⟩ :=
      ifThen_eq_ok.mp done
    exact oneArm opened (inner label inside after (.of_ok ran)) left written
  · exact (undone_of_ifThen_error (fun label => (inner label).monotone) failed).continues

theorem ifElse {thenBody elseBody : Label → Construction σ Unit} (type : FuncType)
    (innerThen : ∀ label, Continuing (thenBody label))
    (innerElse : ∀ label, Continuing (elseBody label)) :
    Continuing (Construction.ifElse type thenBody elseBody) := by
  rintro w w' (⟨vars, done⟩ | ⟨e, failed⟩)
  · obtain ⟨d, label, inside, after, drafts, switched, last, elseDrafts, closed, -, opened, ran,
      changed, ranElse, left, written⟩ := ifElse_eq_ok.mp done
    obtain ⟨popped, taken, -, rfl⟩ := opening_eq_ok.mp opened
    obtain ⟨c₁, switched', rfl⟩ := update_eq_ok.mp changed
    obtain ⟨c₂, exited, rfl⟩ := update_eq_ok.mp left
    obtain ⟨c', concluded, rfl⟩ := update_eq_ok.mp written
    have first := innerThen label _ after (.of_ok ran)
    obtain ⟨body, extended⟩ := first.frame
    have arm := ((Context.inside_enter popped .thenArm type).switch extended switched').2
    have renewed := ((Context.renews_pop taken).trans
      (Context.renews_enter popped .thenArm type)).trans first.renews
    exact Context.continues_closed taken arm
      (renewed.trans (Context.renews_switchToElse switched'))
      (innerElse label _ last (.of_ok ranElse)) exited concluded
  · exact (undone_of_ifElse_error (fun label => (innerThen label).monotone)
      (fun label => (innerElse label).monotone) failed).continues

end Continuing

end Construction

open Construction in
theorem Script.continuing {σ α : Type} (script : Script σ α) : Continuing script.run := by
  induction script with
  | pure a => exact Along.pure Context.Continues.refl a
  | throw e => exact Along.throw Context.Continues.refl e
  | bind _ _ first next =>
      exact Along.bind (R := Context.Continues) Context.Continues.trans first next
  | tryCatch _ _ attempt handler =>
      exact Along.tryCatch (R := Context.Continues) Context.Continues.trans attempt handler
  | client step => exact .client step
  | inspect query => exact .inspect query.ask
  | addLocal type => exact .addLocal type
  | perform d argument => exact .perform d argument
  | instr name argument operands => exact .instr name argument operands
  | block type _ inner => exact .structured "block" .block type inner
  | loop type _ inner => exact .structured "loop" .loop type inner
  | ifThen type _ inner => exact .ifThen type inner
  | ifElse type _ _ innerThen innerElse => exact .ifElse type innerThen innerElse

end Wasm
