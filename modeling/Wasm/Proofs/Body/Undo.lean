import Wasm.Proofs.Body.Effects
import Wasm.Proofs.Body.Recorded

/-!
# Undoing what a failed call did

A call that fails gives back the state it started from, whatever it and its
closures did until then. For that it is enough to note three measures at the
start: the number of frames around the current one, the stack, and the number
of instructions written. A construct closes the frames beyond that number,
which brings labels, kinds and enclosing bodies back, cuts the body to its old
length and puts the stack back; an instruction cuts both to their old lengths.
-/

namespace Wasm

namespace Context

/-- What is noted before a call. -/
structure Mark where
  depth : Nat
  stack : List StackVar
  written : Nat

def mark (c : Context) : Mark := ⟨c.depth, c.stack, c.frame.written.length⟩

/-- Closes frames, whatever is in them, until only `depth` are around the
current one. -/
def closeTo (depth : Nat) (frame : Frame) : List Frame → Frame × List Frame
  | [] => (frame, [])
  | parent :: outer =>
    if depth < (parent :: outer).length then closeTo depth parent outer
    else (frame, parent :: outer)

/-- The place on the stack where the values of a frame begin. -/
def height (outer : List Frame) : Nat := (outer.flatMap (·.values)).length

/-- Undoes a construct: closes its frames, puts the stack back and cuts the
body to its old length. -/
def unwind (c : Context) (mark : Mark) : Context :=
  let (frame, outer) := closeTo mark.depth c.frame c.outer
  { c with
    frame := { frame with
      values := (mark.stack.drop (height outer)).reverse
      written := frame.written.drop (frame.written.length - mark.written) }
    outer }

/-- Undoes an instruction: cuts the body and the stack to their old lengths. -/
def cutBack (c : Context) (mark : Mark) : Context :=
  { c with
    frame := { c.frame with
      values := c.frame.values.drop (c.stack.length - mark.stack.length)
      written := c.frame.written.drop (c.frame.written.length - mark.written) } }

variable {c after : Context} {n : Nat}

/-! ## Undoing a construct -/

/-- `after` is `n` frames further in than `c`. Below these only the values of
the frame of `c` may be others, and more may be written there. -/
structure Above (c : Context) (n : Nat) (after : Context) : Prop extends Grows c after where
  frames : ∃ opened values drafts, opened.length = n ∧ after.frames =
    opened ++ { c.frame with values, written := drafts ++ c.frame.written } :: c.outer

theorem Above.refl (c : Context) : c.Above 0 c :=
  ⟨Grows.refl c, [], c.frame.values, [], rfl, rfl⟩

/-- A step that stays in its frame is no way out, nor further in. -/
theorem Above.extend {after' : Context} {drafts : List Draft} (h : c.Above (n + 1) after)
    (step : after.Extends drafts after') : c.Above (n + 1) after' := by
  obtain ⟨opened, values, more, count, frames⟩ := h.frames
  cases opened with
  | nil => cases count
  | cons first opened =>
      obtain ⟨-, around⟩ := List.cons.inj frames
      refine ⟨h.toGrows.trans step.toGrows, after'.frame :: opened, values, more, count, ?_⟩
      show after'.frame :: after'.outer = _
      rw [step.outer, around]
      rfl

theorem Above.pop {popped : Context} {name : String} {types : List ValType} (h : c.Above 0 after)
    (taken : after.pop name types = .ok popped) : c.Above 0 popped := by
  obtain ⟨opened, values, drafts, none, frames⟩ := h.frames
  cases List.length_eq_zero_iff.mp none
  obtain ⟨own, around⟩ := List.cons.inj frames
  obtain ⟨-, rfl⟩ := pop_eq_ok.mp taken
  refine ⟨h.toGrows.trans (Grows.frames after _ _), [], after.frame.values.drop types.length,
    drafts, rfl, ?_⟩
  show after.frame.without types.length :: after.outer = _
  rw [around, own]
  rfl

theorem Above.enter (h : c.Above n after) (kind : FrameKind) (type : FuncType) :
    c.Above (n + 1) (after.enter kind type).2 := by
  obtain ⟨opened, values, drafts, rfl, frames⟩ := h.frames
  have inner := inside_enter after kind type
  refine ⟨h.toGrows.trans inner.toGrows, (after.enter kind type).2.frame :: opened, values, drafts,
    rfl, ?_⟩
  show _ :: (after.enter kind type).2.outer = _
  rw [inner.outer, List.cons_append, ← frames]
  rfl

theorem Above.switch {switched : Context} {body : List Draft} (h : c.Above (n + 1) after)
    (done : after.switchToElse = .ok (body, switched)) : c.Above (n + 1) switched := by
  obtain ⟨opened, values, drafts, count, frames⟩ := h.frames
  have outer : switched.outer = after.outer := by
    obtain ⟨-, -, rfl⟩ := switchToElse_eq_ok.mp done
    rfl
  cases opened with
  | nil => cases count
  | cons first opened =>
      obtain ⟨-, around⟩ := List.cons.inj frames
      refine ⟨h.toGrows.trans (grows_switchToElse done), switched.frame :: opened, values, drafts,
        count, ?_⟩
      show _ :: switched.outer = _
      rw [outer, around]
      rfl

theorem Above.exit {closed : Context} {body : List Draft} (h : c.Above (n + 1) after)
    (done : after.exit = .ok (body, closed)) : c.Above n closed := by
  obtain ⟨opened, values, drafts, count, frames⟩ := h.frames
  have grown := h.toGrows.trans (grows_exit done)
  obtain ⟨-, -, parent, outer, around, rfl⟩ := exit_eq_ok.mp done
  cases opened with
  | nil => cases count
  | cons first opened =>
      obtain ⟨-, rest⟩ := List.cons.inj frames
      exact ⟨grown, opened, values, drafts, Nat.succ.inj count, around.symm.trans rest⟩

theorem Above.conclude {d : InstrDef} {argument : Argument} {vars : List StackVar}
    {written : Context} (h : c.Above 0 after)
    (done : after.conclude d argument = .ok (vars, written)) : c.Above 0 written := by
  obtain ⟨opened, values, drafts, none, frames⟩ := h.frames
  cases List.length_eq_zero_iff.mp none
  obtain ⟨own, around⟩ := List.cons.inj frames
  have grown := h.toGrows.trans (grows_conclude done)
  obtain ⟨effect, -, rfl, rfl⟩ := conclude_eq_ok.mp done
  refine ⟨grown, [], (freshVars after.varsMade effect.results).reverse ++ values,
    draftOf d effect :: drafts, rfl, ?_⟩
  show _ :: after.outer = _
  rw [around, push, own]
  rfl

/-- Closing frames ends at the one that was the current one. -/
theorem closeTo_append {opened outer rest : List Frame} {frame base : Frame}
    (frames : frame :: outer = opened ++ base :: rest) :
    closeTo rest.length frame outer = (base, rest) := by
  induction opened generalizing frame outer with
  | nil =>
      cases frames
      cases rest with
      | nil => rfl
      | cons parent outer => rw [closeTo, if_neg (Nat.lt_irrefl _)]
  | cons first opened ih =>
      obtain ⟨-, around⟩ := List.cons.inj frames
      cases outer with
      | nil => simp at around
      | cons parent outer =>
          have further : rest.length < (parent :: outer).length := by
            have count := congrArg List.length around
            simp only [List.append_eq, List.length_append, List.length_cons] at count ⊢
            omega
          rw [closeTo, if_pos further]
          exact ih around

/-- The stack of `c` above the frames around it. -/
theorem drop_stack (c : Context) : (c.stack.drop (height c.outer)).reverse = c.frame.values := by
  have parts : c.stack = (c.outer.flatMap (·.values)).reverse ++ c.frame.values.reverse := by
    rw [stack, frames, List.flatMap_cons, List.reverse_append]
  rw [parts, height, ← List.length_reverse, List.drop_left, List.reverse_reverse]

/-- However many frames were opened, the three measures give everything back. -/
theorem unwind_mark (h : c.Above n after) : after.unwind c.mark = after.rollbackTo c := by
  obtain ⟨opened, values, drafts, -, frames⟩ := h.frames
  have closed := closeTo_append frames
  have written : (drafts ++ c.frame.written).drop
      ((drafts ++ c.frame.written).length - c.frame.written.length) = c.frame.written := by
    rw [List.length_append, Nat.add_sub_cancel, List.drop_left]
  simp only [unwind, mark, depth, closed, drop_stack, written, rollbackTo, h.paramCount]

/-! ## Undoing an instruction -/

/-- `after` has more values and instructions on top of those of `c`, and
nothing else was done. -/
structure Topped (c after : Context) : Prop extends Grows c after where
  frame : ∃ values drafts, after.frame =
    { c.frame with values := values ++ c.frame.values, written := drafts ++ c.frame.written }
  outer : after.outer = c.outer
  same : after.locals = c.locals

theorem Topped.refl (c : Context) : c.Topped c :=
  ⟨Grows.refl c, ⟨[], [], rfl⟩, rfl, rfl⟩

/-- An instruction that takes nothing and hands on control. -/
theorem Topped.perform {c' : Context} {d : InstrDef} {argument : Argument} {vars : List StackVar}
    (h : c.Topped after) (done : after.perform d argument = .ok (vars, c'))
    (pushes : ∀ effect, d.effect after argument = .ok effect →
      effect.params = [] ∧ effect.diverges = false) : c.Topped c' := by
  obtain ⟨values, drafts, frame⟩ := h.frame
  obtain ⟨effect, allowed, written⟩ := extends_perform done
  have grown := h.toGrows.trans written.toGrows
  obtain ⟨effect', popped, allowed', taken, -, rfl⟩ := perform_eq_ok.mp done
  cases allowed.symm.trans allowed'
  obtain ⟨nothing, goesOn⟩ := pushes effect allowed
  rw [nothing] at taken
  obtain ⟨-, rfl⟩ := pop_eq_ok.mp taken
  rw [goesOn, if_neg Bool.false_ne_true] at grown ⊢
  refine ⟨grown, ⟨(freshVars after.varsMade effect.results).reverse ++ values,
    draftOf d effect :: drafts, ?_⟩, h.outer, h.same⟩
  simp [push, write, without, Frame.without, frame]

theorem cutBack_mark (h : c.Topped after) : after.cutBack c.mark = after.rollbackTo c := by
  obtain ⟨values, drafts, frame⟩ := h.frame
  have cut : ∀ {α : Type} (more items : List α),
      (more ++ items).drop ((more ++ items).length - items.length) = items := by
    intro α more items
    rw [List.length_append, Nat.add_sub_cancel, List.drop_left]
  have above : after.stack.length - c.stack.length =
      (values ++ c.frame.values).length - c.frame.values.length := by
    simp only [stack, frames, frame, h.outer, List.flatMap_cons, List.length_reverse,
      List.length_append]
    omega
  simp only [cutBack, mark, above, frame, cut, rollbackTo, h.outer, h.paramCount]

end Context

namespace Construction

variable {σ α β : Type} {c : Context} {n n' n'' : Nat}

open Context (Above Topped)

/-! ## The frames that a construct opens -/

/-- From `n` frames above `c` the step gets to `n'`, and wherever it fails that
is above `c` as well. -/
def Moves (c : Context) (n n' : Nat) (act : Construction σ α) : Prop :=
  ∀ w, c.Above n w.context → (∀ a w', act w = .ok a w' → c.Above n' w'.context) ∧
    ∀ e w', act w = .error e w' → ∃ m, c.Above m w'.context

theorem Moves.bind {act : Construction σ α} {next : α → Construction σ β}
    (first : Moves c n n' act) (second : ∀ a, Moves c n' n'' (next a)) :
    Moves c n n'' (act >>= next) := by
  intro w above
  refine ⟨fun b w' done => ?_, fun e w' failed => ?_⟩
  · obtain ⟨a, w₁, began, ended⟩ := EStateM.bind_eq_ok.mp done
    exact (second a w₁ ((first w above).1 a w₁ began)).1 b w' ended
  · rcases EStateM.bind_eq_error.mp failed with early | ⟨a, w₁, began, late⟩
    · exact (first w above).2 e w' early
    · exact (second a w₁ ((first w above).1 a w₁ began)).2 e w' late

/-- A change that is refused leaves the state as it is. -/
theorem Moves.update {f : Context → Except BuildError (α × Context)}
    (step : ∀ after a c', c.Above n after → f after = .ok (a, c') → c.Above n' c') :
    Moves c n n' (update f : Construction σ α) := by
  intro w above
  refine ⟨fun a w' done => ?_, fun e w' failed => ?_⟩
  · obtain ⟨c', changed, rfl⟩ := update_eq_ok.mp done
    exact step w.context a c' above changed
  · rw [(update_eq_error.mp failed).2]
    exact ⟨n, above⟩

theorem moves_takeOperands (name : String) (types : List ValType) :
    Moves c 0 0 (takeOperands (σ := σ) name types) := by
  refine Moves.update fun after _ c' above done => ?_
  obtain ⟨popped, taken, same⟩ := Except.bind_eq_ok.mp done
  cases same
  exact above.pop taken

theorem moves_enter (kind : FrameKind) (type : FuncType) :
    Moves c n (n + 1) (enter (σ := σ) kind type) := by
  intro w above
  refine ⟨fun label w' done => ?_, fun e w' failed => ?_⟩
  · cases done
    exact above.enter kind type
  · cases failed

/-- However it ends, `act` is in the frame where it began. -/
def Stays (act : Construction σ α) : Prop :=
  ∀ w w', EStateM.Leaves act w w' → ∃ drafts, w.context.Extends drafts w'.context

theorem Program.stays {act : Construction σ α} {calls : Workspace σ → List Call}
    (program : Program act calls) : Stays act := by
  intro w w' left
  obtain ⟨drafts, recorded⟩ := program.kept w w' left
  exact ⟨drafts, recorded.extends⟩

/-- The closure of a construct stays in the frame that was opened for it,
also where it fails and whatever failures it got over. -/
theorem Stays.moves {body : Construction σ α} (h : Stays body) :
    Moves c (n + 1) (n + 1) body := by
  intro w above
  refine ⟨fun a w' done => ?_, fun e w' failed => ⟨n + 1, ?_⟩⟩
  · obtain ⟨drafts, written⟩ := h w w' (.inl ⟨a, done⟩)
    exact above.extend written
  · obtain ⟨drafts, written⟩ := h w w' (.inr ⟨e, failed⟩)
    exact above.extend written

theorem moves_exit : Moves c (n + 1) n (update (σ := σ) (·.exit)) :=
  Moves.update fun _ _ _ above done => above.exit done

theorem moves_switchToElse : Moves c (n + 1) (n + 1) (update (σ := σ) (·.switchToElse)) :=
  Moves.update fun _ _ _ above done => above.switch done

theorem moves_conclude (d : InstrDef) (argument : Argument) :
    Moves c 0 0 (conclude (σ := σ) d argument) :=
  Moves.update fun _ _ _ above done => above.conclude done

/-! ## What the operands of an instruction leave -/

/-- The step only adds values and instructions, also where it fails. -/
def Tops (c : Context) (act : Construction σ α) : Prop :=
  ∀ w w', c.Topped w.context → EStateM.Leaves act w w' → c.Topped w'.context

theorem tops_iff {act : Construction σ α} :
    Tops c act ↔ Along (fun before after => c.Topped before → c.Topped after) act :=
  ⟨fun h w w' left topped => h w w' topped left, fun h w w' topped left => h w w' left topped⟩

theorem tops_pure (a : α) : Tops c (pure a : Construction σ α) :=
  tops_iff.mpr (Along.pure (fun _ => id) a)

/-- The instruction of a mnemonic that takes nothing from the stack. -/
theorem tops_named {name : String} {d : InstrDef} {argument : Argument}
    (found : InstrSet.standard.named name = .ok d)
    (pushes : ∀ after effect, d.effect after argument = .ok effect →
      effect.params = [] ∧ effect.diverges = false) :
    Tops c (do let _ ← perform (← definition name) argument : Construction σ Unit) := by
  intro w w' topped left
  rcases EStateM.leaves_bind.mp left with ⟨e, unknown⟩ | ⟨d', w₁, looked, rest⟩
  · exact definition_leaves (.inr ⟨e, unknown⟩) ▸ topped
  · obtain ⟨found', rfl⟩ := definition_eq_ok.mp looked
    cases found.symm.trans found'
    rcases EStateM.leaves_bind.mp rest with ⟨e, refused⟩ | ⟨vars, w₂, performed, last⟩
    · exact (update_eq_error.mp refused).2 ▸ topped
    · obtain ⟨c', done, rfl⟩ := update_eq_ok.mp performed
      exact tops_pure () _ _ (topped.perform done (pushes _)) last

theorem tops_pushOperand (operand : Operand) : Tops c (pushOperand (σ := σ) operand) := by
  cases operand with
  | stack | var _ => exact tops_pure ()
  | localVar handle =>
      refine tops_named rfl fun after effect allowed => ?_
      cases (InstrDef.effect_eq_ok rfl).mp allowed
      exact ⟨rfl, rfl⟩
  | globalVar handle =>
      refine tops_named rfl fun after effect allowed => ?_
      cases allowed
      exact ⟨rfl, rfl⟩
  | i32 value | i64 value | f32 value | f64 value =>
      refine tops_named rfl fun after effect allowed => ?_
      cases allowed
      exact ⟨rfl, rfl⟩

theorem tops_bindOperands (name : String) (operands : List Operand) :
    Tops c (bindOperands (σ := σ) name operands) :=
  tops_iff.mpr (Along.bindOperands (R := fun before after => c.Topped before → c.Topped after)
    (fun _ => id) (fun first second => second ∘ first)
    (fun operand => tops_iff.mp (tops_pushOperand operand)) name operands)

/-! ## Calls without their undoing -/

/-- The steps of an instruction. -/
def instrSteps (name : String) (argument : Argument) (operands : List Operand) :
    Construction σ (List StackVar) := do
  let d ← definition name
  if d.shape.isStructured then throw (.invalidArguments d.name .structured)
  bindOperands d.name operands
  perform d argument

theorem Along.instrSteps {R : Context → Context → Prop} (refl : ∀ c, R c c)
    (trans : ∀ {c₁ c₂ c₃ : Context}, R c₁ c₂ → R c₂ c₃ → R c₁ c₃)
    (performed : ∀ d argument, Along R (perform (σ := σ) d argument)) (name : String)
    (argument : Argument) (operands : List Operand) :
    Along R (instrSteps (σ := σ) name argument operands) := by
  refine Along.bind (R := R) trans (Along.definition refl name) fun d => ?_
  have bound := Along.bindOperands refl trans (Along.pushOperand refl trans performed) d.name
    operands
  have rest := Along.bind (R := R) trans bound fun _ => performed d argument
  exact Along.ite (Along.bind (R := R) trans (Along.throw refl _) fun _ => rest) rest

/-- The steps of a construct with one body. -/
def structuredSteps (name : String) (kind : FrameKind) (type : FuncType)
    (body : Label → Construction σ Unit) : Construction σ (List StackVar) := do
  let d ← definition name
  takeOperands name type.params
  let label ← enter kind type
  body label
  let body ← update (·.exit)
  conclude d (.block type body)

/-- The steps of a conditional with one arm. -/
def ifThenSteps (type : FuncType) (thenBody : Label → Construction σ Unit) :
    Construction σ (List StackVar) := do
  unless type.params = type.results do
    throw (.unbalancedStack "if without else" type.results type.params)
  let d ← definition "if"
  takeOperands "if" (type.params ++ [.i32])
  let label ← enter .thenArm type
  thenBody label
  let thenBody ← update (·.exit)
  conclude d (.ifThen type thenBody)

/-- The steps of a conditional with two arms. -/
def ifElseSteps (type : FuncType) (thenBody elseBody : Label → Construction σ Unit) :
    Construction σ (List StackVar) := do
  let d ← definition "if"
  takeOperands "if" (type.params ++ [.i32])
  let label ← enter .thenArm type
  thenBody label
  let thenBody ← update (·.switchToElse)
  elseBody label
  let elseBody ← update (·.exit)
  conclude d (.ifElse type thenBody elseBody)

/-- Takes steps, and undoes them by what was noted before if one of them fails. -/
def undoing (undo : Context → Context.Mark → Context) (steps : Construction σ α) :
    Construction σ α := fun w =>
  match steps w with
  | .ok a after => .ok a after
  | .error e after => .error e { after with context := undo after.context w.context.mark }

/-- A step in front that changes nothing can be undone along with the rest. -/
theorem atomically_bind {first : Construction σ α} {next : α → Construction σ β}
    (quiet : ∀ w w', EStateM.Leaves first w w' → w' = w) :
    (first >>= fun a => atomically (next a)) = atomically (first >>= next) := by
  funext w
  show EStateM.bind _ _ w = atomically (EStateM.bind first next) w
  simp only [EStateM.bind, atomically]
  cases ran : first w with
  | error e w₁ =>
      cases quiet w w₁ (.inr ⟨e, ran⟩)
      rfl
  | ok a w₁ =>
      cases quiet w w₁ (.inl ⟨a, ran⟩)
      rfl

/-- A refusal in front of the steps changes nothing. -/
theorem throw_bind (e : BuildError) (next : α → Construction σ β) :
    ((throw e : Construction σ α) >>= next) = atomically (throw e >>= next) := rfl

theorem instr_eq_atomically (name : String) (argument : Argument) (operands : List Operand) :
    instr (σ := σ) name argument operands = atomically (instrSteps name argument operands) := by
  unfold instr instrSteps
  rw [← atomically_bind fun _ _ => definition_leaves]
  congr 1
  funext d
  split
  · exact throw_bind _ _
  · rfl

theorem structured_eq_atomically (name : String) (kind : FrameKind) (type : FuncType)
    (body : Label → Construction σ Unit) :
    structured name kind type body = atomically (structuredSteps name kind type body) :=
  atomically_bind fun _ _ => definition_leaves

theorem ifThen_eq_atomically (type : FuncType) (thenBody : Label → Construction σ Unit) :
    ifThen type thenBody = atomically (ifThenSteps type thenBody) := by
  unfold ifThen ifThenSteps
  split
  · exact atomically_bind fun _ _ => definition_leaves
  · exact throw_bind _ _

theorem ifElse_eq_atomically (type : FuncType) (thenBody elseBody : Label → Construction σ Unit) :
    ifElse type thenBody elseBody = atomically (ifElseSteps type thenBody elseBody) :=
  atomically_bind fun _ _ => definition_leaves

/-! ## Calls -/

/-- `act` is a call of the library, and `steps` are its steps without the
undoing. It takes closures if `opens` holds, each of them a program. -/
inductive Attempt : (opens : Bool) → (act steps : Construction σ (List StackVar)) → Prop
  | instr (name : String) (argument : Argument) (operands : List Operand) :
      Attempt false (Construction.instr name argument operands) (instrSteps name argument operands)
  | emit (name : String) (operands : List Operand) :
      Attempt false (Construction.emit name operands) (instrSteps name .none operands)
  | block {type : FuncType} {body : Label → Construction σ Unit}
      {calls : Label → Workspace σ → List Call}
      (closure : ∀ label, Program (body label) (calls label)) :
      Attempt true (Construction.block type body) (structuredSteps "block" .block type body)
  | loop {type : FuncType} {body : Label → Construction σ Unit}
      {calls : Label → Workspace σ → List Call}
      (closure : ∀ label, Program (body label) (calls label)) :
      Attempt true (Construction.loop type body) (structuredSteps "loop" .loop type body)
  | ifThen {type : FuncType} {thenBody : Label → Construction σ Unit}
      {calls : Label → Workspace σ → List Call}
      (closure : ∀ label, Program (thenBody label) (calls label)) :
      Attempt true (Construction.ifThen type thenBody) (ifThenSteps type thenBody)
  | ifElse {type : FuncType} {thenBody elseBody : Label → Construction σ Unit}
      {thenCalls elseCalls : Label → Workspace σ → List Call}
      (closure : ∀ label, Program (thenBody label) (thenCalls label))
      (closureElse : ∀ label, Program (elseBody label) (elseCalls label)) :
      Attempt true (Construction.ifElse type thenBody elseBody)
        (ifElseSteps type thenBody elseBody)

theorem Attempt.eq_atomically {opens : Bool} {act steps : Construction σ (List StackVar)}
    (call : Attempt opens act steps) : act = atomically steps := by
  cases call with
  | instr name argument operands => exact instr_eq_atomically name argument operands
  | emit name operands => exact instr_eq_atomically name .none operands
  | block _ => exact structured_eq_atomically _ _ _ _
  | loop _ => exact structured_eq_atomically _ _ _ _
  | ifThen _ => exact ifThen_eq_atomically _ _
  | ifElse _ _ => exact ifElse_eq_atomically _ _ _

theorem Moves.quiet {act : Construction σ α} (h : ∀ w w', EStateM.Leaves act w w' → w' = w) :
    Moves c n n act := by
  intro w above
  refine ⟨fun a w' done => ?_, fun e w' failed => ⟨n, ?_⟩⟩
  · exact h w w' (.inl ⟨a, done⟩) ▸ above
  · exact h w w' (.inr ⟨e, failed⟩) ▸ above

theorem moves_definition (name : String) : Moves c n n (definition (σ := σ) name) :=
  Moves.quiet fun _ _ => definition_leaves

theorem moves_throw (e : BuildError) : Moves c n n (throw e : Construction σ α) :=
  Moves.quiet fun w w' left => by rcases left with ⟨_, same⟩ | ⟨_, same⟩ <;> cases same; rfl

/-- A construct with one body, from the look-up of its mnemonic on. -/
theorem moves_arm {name : String} {types : List ValType} {kind : FrameKind} {type : FuncType}
    {body : Label → Construction σ Unit} {argument : List Draft → Argument}
    (closure : ∀ label, Stays (body label)) : Moves c 0 0 (do
      let d ← definition name
      takeOperands name types
      let label ← enter kind type
      body label
      let body ← update (·.exit)
      conclude d (argument body)) :=
  (moves_definition _).bind fun _ => (moves_takeOperands _ _).bind fun _ =>
    (moves_enter _ _).bind fun label => (closure label).moves.bind fun _ =>
      moves_exit.bind fun _ => moves_conclude _ _

/-- A conditional with one arm. -/
theorem moves_ifThenSteps {type : FuncType} {thenBody : Label → Construction σ Unit}
    (closure : ∀ label, Stays (thenBody label)) : Moves c 0 0 (ifThenSteps type thenBody) := by
  unfold ifThenSteps
  split
  · exact moves_arm closure
  · exact (moves_throw _).bind fun _ => moves_arm closure

/-- A conditional with two arms. -/
theorem moves_ifElseSteps {type : FuncType} {thenBody elseBody : Label → Construction σ Unit}
    (closure : ∀ label, Stays (thenBody label)) (closureElse : ∀ label, Stays (elseBody label)) :
    Moves c 0 0 (ifElseSteps type thenBody elseBody) :=
  (moves_definition _).bind fun _ => (moves_takeOperands _ _).bind fun _ =>
    (moves_enter _ _).bind fun label => (closure label).moves.bind fun _ =>
      moves_switchToElse.bind fun _ => (closureElse label).moves.bind fun _ =>
        moves_exit.bind fun _ => moves_conclude _ _

/-- Wherever a call with closures fails, that is above the state it started from. -/
theorem Attempt.moves {act steps : Construction σ (List StackVar)}
    (call : Attempt true act steps) : Moves c 0 0 steps := by
  cases call with
  | block closure => exact moves_arm fun label => (closure label).stays
  | loop closure => exact moves_arm fun label => (closure label).stays
  | ifThen closure => exact moves_ifThenSteps fun label => (closure label).stays
  | ifElse closure closureElse =>
      exact moves_ifElseSteps (fun label => (closure label).stays)
        fun label => (closureElse label).stays

/-- Where an instruction fails there are only operands that it pushed. -/
theorem topped_of_instrSteps {name : String} {argument : Argument} {operands : List Operand}
    {e : BuildError} {w after : Workspace σ}
    (failed : instrSteps name argument operands w = .error e after) :
    w.context.Topped after.context := by
  have start := Topped.refl w.context
  rcases EStateM.bind_eq_error.mp failed with unknown | ⟨d, w₁, looked, rest⟩
  · exact definition_leaves (.inr ⟨e, unknown⟩) ▸ start
  · obtain ⟨-, rfl⟩ := definition_eq_ok.mp looked
    split at rest
    · rcases EStateM.bind_eq_error.mp rest with refused | ⟨_, _, refused, -⟩
      · cases refused
        exact start
      · cases refused
    · rcases EStateM.bind_eq_error.mp rest with unbound | ⟨_, w₂, bound, refused⟩
      · exact tops_bindOperands _ _ _ _ start (.inr ⟨e, unbound⟩)
      · rw [(update_eq_error.mp refused).2]
        exact tops_bindOperands _ _ _ _ start (.inl ⟨_, bound⟩)

/-- The undoing of a call, from wherever it fails. -/
theorem Attempt.undo_eq_rollbackTo {opens : Bool} {act steps : Construction σ (List StackVar)}
    (call : Attempt opens act steps) {w after : Workspace σ} {e : BuildError}
    (failed : steps w = .error e after) :
    (if opens then Context.unwind else Context.cutBack) after.context w.context.mark =
      after.context.rollbackTo w.context := by
  cases opens with
  | true =>
      obtain ⟨m, above⟩ := (call.moves w (Above.refl _)).2 e after failed
      exact Context.unwind_mark above
  | false => cases call <;> exact Context.cutBack_mark (topped_of_instrSteps failed)

theorem Attempt.grows {opens : Bool} {act steps : Construction σ (List StackVar)}
    (call : Attempt opens act steps) {w after : Workspace σ} {e : BuildError}
    (failed : steps w = .error e after) : w.context.Grows after.context := by
  cases opens with
  | true =>
      obtain ⟨m, above⟩ := (call.moves w (Above.refl _)).2 e after failed
      exact above.toGrows
  | false => cases call <;> exact (topped_of_instrSteps failed).toGrows

/-- Failed calls are atomic. A call is its steps with the undoing by measures:
for an instruction cutting back, for a construct unwinding. If it fails, every
frame is as it was, with its label, kind, types and mark of unreachability, its
values and its code; the parameters are the same, and only locals that a
closure declared may have been added. -/
theorem Attempt.atomic {opens : Bool} {act steps : Construction σ (List StackVar)}
    (call : Attempt opens act steps) :
    act = undoing (if opens then Context.unwind else Context.cutBack) steps ∧
      ∀ w w' e, act w = .error e w' → w.context.Undone w'.context ∧
        (opens = false → w'.context.locals = w.context.locals) := by
  constructor
  · rw [call.eq_atomically]
    funext w
    rw [atomically, undoing]
    cases ran : steps w with
    | ok vars after => rfl
    | error e after =>
        exact congrArg (fun context => EStateM.Result.error e { after with context })
          (call.undo_eq_rollbackTo ran).symm
  · intro w w' e refused
    rw [call.eq_atomically] at refused
    obtain ⟨after, failed, rfl⟩ := atomically_eq_error.mp refused
    refine ⟨(call.grows failed).rollback, fun plain => ?_⟩
    subst plain
    cases call <;> exact (topped_of_instrSteps failed).same

/-! ## An example -/

/-- A conditional whose second arm declares a local and then finds nothing to drop. -/
def failingElse : Construction Unit (List StackVar) :=
  ifElse ⟨[], []⟩ (fun _ => do let _ ← emit "nop" []) fun _ => do
    let _ ← addLocal .i64
    let _ ← emit "drop" []

/-- The condition is on the stack. -/
def onCondition : Context := ((Context.forFunction ⟨[], []⟩).push [.i32]).2

theorem atomic_failingElse :
    failingElse ⟨onCondition, ()⟩ = .error (.stackType "drop" [.i32] [])
      ⟨{ onCondition with locals := #[.i64], labelsMade := 2 }, ()⟩ ∧
    onCondition.Undone { onCondition with locals := #[.i64], labelsMade := 2 } := by
  have call : Attempt true failingElse _ :=
    .ifElse (fun _ => (Program.emit "nop" []).bind fun _ => .pure ()) fun _ =>
      (Program.addLocal .i64).bind fun _ => (Program.emit "drop" []).bind fun _ => .pure ()
  have failed : failingElse ⟨onCondition, ()⟩ = .error (.stackType "drop" [.i32] [])
      ⟨{ onCondition with locals := #[.i64], labelsMade := 2 }, ()⟩ := rfl
  exact ⟨failed, (call.atomic.2 _ _ _ failed).1⟩

end Construction

end Wasm
