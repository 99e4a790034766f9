import Wasm.Proofs.Body.Upright

/-!
# The net effect of a construct

Whatever the closures of a structured construct do, seen from outside the
construct is one instruction: its parameters go, its results come, and nothing
else has changed in the frame around it or further out. It succeeds exactly if
its parameters can be taken, all closures succeed, and each arm ends with the
results in its frame. The second arm of a conditional starts like the first
one, whatever became of that. This holds wherever a script comes through, and
scripts may write code by hand, before the construct and inside it.
-/

namespace Wasm

namespace Context

variable {c base after closed : Context} {types : List ValType} {label : Label}
  {kind : FrameKind} {type : FuncType}

/-! ## Taking operands -/

/-- Values of the given types can be taken off the stack. In an unreachable
frame it is enough if those that are there have the last of the types. -/
def CanTake (c : Context) (types : List ValType) : Prop :=
  types <:+ c.frame.types ∨ c.frame.unreachable = true ∧ c.frame.types <:+ types

/-- What was taken has the types that were asked for, or the last of them if
the frame is unreachable and was emptied. -/
theorem CanTake.taken (h : c.CanTake types) : ∃ taken,
    c.stack = (c.without types.length).stack ++ taken ∧
      (taken.map (·.type) = types ∨ c.frame.unreachable = true ∧
        (c.without types.length).frame.values = [] ∧ taken.map (·.type) <:+ types) := by
  refine ⟨(c.frame.values.take types.length).reverse, ?_, ?_⟩
  · rw [stack_eq, stack_eq (c.without types.length), List.append_assoc]
    refine congrArg (c.below ++ ·) ?_
    show _ = (c.frame.values.drop types.length).reverse ++ _
    rw [← List.reverse_append, List.take_append_drop]
  · have top : (c.frame.values.take types.length).reverse.map (·.type) =
        (c.frame.types.reverse.take types.length).reverse := by
      rw [List.map_reverse, List.map_take, Frame.types, List.reverse_reverse]
    rw [top]
    rcases h with all | ⟨dead, few⟩
    · left
      have first := List.reverse_prefix.mpr all
      rw [← List.length_reverse, ← List.prefix_iff_eq_take.mp first, List.reverse_reverse]
    · right
      have short := few.length_le
      rw [List.take_of_length_le (by rwa [List.length_reverse]), List.reverse_reverse]
      refine ⟨dead, List.drop_eq_nil_of_le ?_, few⟩
      rwa [Frame.types, List.length_reverse, List.length_map] at short

/-! ## Arms -/

/-- The beginning of an arm around `base`: a reachable frame with nothing in it
but fresh values for the parameters. -/
def openArm (base : Context) (label : Label) (kind : FrameKind) (type : FuncType) : Context :=
  (push { base with
    frame := { label, kind, startTypes := type.params, endTypes := type.results }
    outer := base.frame :: base.outer } type.params).2

/-- The first arm has the next label. -/
def firstArm (base : Context) (kind : FrameKind) (type : FuncType) : Context :=
  { base with labelsMade := base.labelsMade + 1 }.openArm base.nextLabel kind type

/-- The second arm has the label of the first one. Of what the first arm did it
sees the locals that were declared and that ids are used up, but nothing of its
frame. -/
def secondArm (base after : Context) (type : FuncType) : Context :=
  (after.rollbackTo base).openArm base.nextLabel .elseArm type

/-- The frame of an arm around `base` is the current one, and the frames around
it are those of `base`. -/
structure InArm (base : Context) (label : Label) (type : FuncType) (after : Context) : Prop extends
    Grows base after where
  label : after.frame.label = label
  startTypes : after.frame.startTypes = type.params
  endTypes : after.frame.endTypes = type.results
  outer : after.outer = base.frame :: base.outer

/-- A run that has only added to the frame of an arm is still in it. -/
theorem InArm.of_extends {begun : Context} {drafts : List Draft} (same : begun.frame = base.frame)
    (around : begun.outer = base.outer) (grown : base.Grows begun)
    (ran : (begun.openArm label kind type).Extends drafts after) : base.InArm label type after := by
  obtain ⟨values, unreachable, frame⟩ := ran.frame
  have opened : begun.Grows (begun.openArm label kind type) :=
    (Grows.frames begun _ _).trans (extends_push _ type.params).toGrows
  refine ⟨(grown.trans opened).trans ran.toGrows, ?_, ?_, ?_, ?_⟩
  · rw [frame]
    rfl
  · rw [frame]
    rfl
  · rw [frame]
    rfl
  · rw [ran.outer]
    show begun.frame :: begun.outer = _
    rw [same, around]

theorem InArm.below_eq (inside : base.InArm label type after) : after.below = base.stack := by
  rw [below, inside.outer]
  rfl

/-- The stack under the values of the arm is that of `base`. -/
theorem InArm.take_stack (inside : base.InArm label type after) :
    after.stack.take base.stack.length = base.stack := by
  rw [stack_eq after, inside.below_eq, List.take_left]

end Context

/-! ## Constructs -/

/-- What was captured, as it was given. -/
def Capture.argument : Capture → Argument
  | .literal i => .literal i
  | .block type body => .block type body
  | .ifThen type thenBody => .ifThen type thenBody
  | .ifElse type thenBody elseBody => .ifElse type thenBody elseBody

/-- A structured construct with the closures that a client gives. -/
inductive Construct (σ : Type) where
  | block (body : Label → Construction σ Unit)
  | loop (body : Label → Construction σ Unit)
  | ifThen (thenBody : Label → Construction σ Unit)
  | ifElse (thenBody elseBody : Label → Construction σ Unit)

namespace Construct

open Context (Grows draftOf extends_push extends_write)

variable {σ : Type} {c base : Context} {client : σ} {type : FuncType} {construct : Construct σ}
  {arms : List Context} {capture : Capture} {last w' : Workspace σ} {vars : List StackVar}

/-- The call that writes the construct. -/
def run (type : FuncType) : Construct σ → Construction σ (List StackVar)
  | .block body => Construction.block type body
  | .loop body => Construction.loop type body
  | .ifThen thenBody => Construction.ifThen type thenBody
  | .ifElse thenBody elseBody => Construction.ifElse type thenBody elseBody

/-- How the construct begins. -/
def stage : Construct σ → Stage
  | .block _ => .block
  | .loop _ => .loop
  | .ifThen _ | .ifElse .. => .thenArm

/-- The parameters, and above them the condition of a conditional. -/
def operands (construct : Construct σ) (type : FuncType) : List ValType :=
  construct.stage.operands type

/-- The state around the construct: its operands are gone. -/
def outside (construct : Construct σ) (type : FuncType) (c : Context) : Context :=
  c.without (construct.operands type).length

/-- A closure that is made of the operations of the library. -/
def IsClosure (body : Label → Construction σ Unit) : Prop :=
  ∃ script : Label → Script σ Unit, ∀ label, (script label).run = body label

def Scripted : Construct σ → Prop
  | .block body | .loop body | .ifThen body => IsClosure body
  | .ifElse thenBody elseBody => IsClosure thenBody ∧ IsClosure elseBody

/-- All closures succeed, run from the beginning of their arms around `base`.
The states at the ends of the arms are listed; the bodies found there are
captured, and the client goes on from `last`. -/
inductive Completes (type : FuncType) (base : Context) (client : σ) :
    Construct σ → List Context → Capture → Workspace σ → Prop
  | block {body : Label → Construction σ Unit} {last : Workspace σ}
      (ran : body base.nextLabel ⟨base.firstArm .block type, client⟩ = .ok () last) :
      Completes type base client (.block body) [last.context]
        (.block type last.context.frame.body) last
  | loop {body : Label → Construction σ Unit} {last : Workspace σ}
      (ran : body base.nextLabel ⟨base.firstArm .loop type, client⟩ = .ok () last) :
      Completes type base client (.loop body) [last.context]
        (.block type last.context.frame.body) last
  | ifThen {thenBody : Label → Construction σ Unit} {last : Workspace σ}
      (ran : thenBody base.nextLabel ⟨base.firstArm .thenArm type, client⟩ = .ok () last) :
      Completes type base client (.ifThen thenBody) [last.context]
        (.ifThen type last.context.frame.body) last
  | ifElse {thenBody elseBody : Label → Construction σ Unit} {middle last : Workspace σ}
      (ran : thenBody base.nextLabel ⟨base.firstArm .thenArm type, client⟩ = .ok () middle)
      (ranElse : elseBody base.nextLabel ⟨base.secondArm middle.context type, middle.client⟩ =
        .ok () last) :
      Completes type base client (.ifElse thenBody elseBody) [middle.context, last.context]
        (.ifElse type middle.context.frame.body last.context.frame.body) last

/-- A closure leaves the frame that it was run in open, and those around it as
they were. -/
theorem IsClosure.inArm {body : Label → Construction σ Unit} {label : Label} {kind : FrameKind}
    (closure : IsClosure body) (begun : Context) (same : begun.frame = base.frame)
    (around : begun.outer = base.outer) (grown : base.Grows begun)
    (ran : body label ⟨begun.openArm label kind type, client⟩ = .ok () last) :
    base.InArm label type last.context := by
  obtain ⟨script, runs⟩ := closure
  rw [← runs label] at ran
  obtain ⟨drafts, written⟩ := ((script label).continuing _ _ (.of_ok ran)).frame
  exact .of_extends same around grown written

theorem IsClosure.inFirstArm {body : Label → Construction σ Unit} {kind : FrameKind}
    (closure : IsClosure body)
    (ran : body base.nextLabel ⟨base.firstArm kind type, client⟩ = .ok () last) :
    base.InArm base.nextLabel type last.context :=
  closure.inArm { base with labelsMade := base.labelsMade + 1 } rfl rfl
    ⟨List.prefix_rfl, rfl, Nat.le_refl _, Nat.le_succ _⟩ ran

theorem IsClosure.inSecondArm {body : Label → Construction σ Unit} {middle : Context}
    (closure : IsClosure body) (inside : base.InArm base.nextLabel type middle)
    (ran : body base.nextLabel ⟨base.secondArm middle type, client⟩ = .ok () last) :
    base.InArm base.nextLabel type last.context :=
  closure.inArm (middle.rollbackTo base) rfl rfl inside.toGrows.rollback.toGrows ran

/-- Each arm ends in the frame that was opened for it. -/
theorem Completes.inArm (scripted : construct.Scripted)
    (completes : Completes type base client construct arms capture last) :
    ∀ arm ∈ arms, base.InArm base.nextLabel type arm := by
  cases completes with
  | block ran | loop ran | ifThen ran =>
      exact List.forall_mem_singleton.mpr (IsClosure.inFirstArm scripted ran)
  | ifElse ran ranElse =>
      have inside := scripted.1.inFirstArm ran
      exact List.forall_mem_cons.mpr
        ⟨inside, List.forall_mem_singleton.mpr (scripted.2.inSecondArm inside ranElse)⟩

open Construction (opening update conclude opening_eq_ok update_eq_ok structured_eq_ok ifThen_eq_ok
  ifElse_eq_ok)

section Completing

variable {body thenBody elseBody : Label → Construction σ Unit}
  {R : List Context → Capture → Workspace σ → Prop}

end Completing

theorem typing_of_named {name : String} {d : InstrDef} {rule : TypingRule}
    (known : ∃ d', InstrSet.standard.named name = .ok d' ∧ d'.typing = rule)
    (found : InstrSet.standard.named name = .ok d) : d.typing = rule := by
  obtain ⟨d', found', typing⟩ := known
  cases found.symm.trans found'
  exact typing

/-- The instruction of a construct has the results of its type. -/
theorem Completes.effect {d : InstrDef}
    (completes : Completes type base client construct arms capture last)
    (found : InstrSet.standard.named construct.stage.name = .ok d) (closed : Context) :
    ∃ effect, d.effect closed capture.argument = .ok effect ∧ effect.results = type.results ∧
      effect.capture = capture := by
  cases completes with
  | block ran | loop ran =>
      exact ⟨_, InstrDef.HasEffect.block.eq_ok (typing_of_named ⟨_, rfl, rfl⟩ found), rfl, rfl⟩
  | ifThen ran =>
      exact ⟨_, InstrDef.HasEffect.ifThen.eq_ok (typing_of_named ⟨_, rfl, rfl⟩ found), rfl, rfl⟩
  | ifElse ran =>
      exact ⟨_, InstrDef.HasEffect.ifElse.eq_ok (typing_of_named ⟨_, rfl, rfl⟩ found), rfl, rfl⟩

end Construct

end Wasm
