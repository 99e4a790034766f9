import Wasm.Proofs.Body.Flat

/-!
# Frames on one stack

A body whose frames own their values is laid out on one stack: the values of a
frame lie on top of those of the frames around it, its height is how many these
are, and its code is set aside in the frame that was opened inside it. Each
operation of the machine does to the laid out body what the operation of the
library does to the body, with the same answer and the same errors, and never
goes wrong. From what is laid out the body can be taken apart again.
-/

namespace Wasm

/-! ## Laying out -/

namespace Frame

/-- The code that is set aside in a frame inside the given ones. -/
def bodyAround : List Frame → List Draft
  | [] => []
  | parent :: _ => parent.body

/-- A frame inside others. -/
def flat (frame : Frame) (outer : List Frame) : FlatFrame where
  label := frame.label
  kind := frame.kind
  startTypes := frame.startTypes
  endTypes := frame.endTypes
  unreachable := frame.unreachable
  height := Context.height outer
  aside := bodyAround outer

variable {frame : Frame} in
/-- Code that was written behind that of a frame. -/
theorem body_append (values : List StackVar) (drafts : List Draft) :
    body { frame with values, written := drafts ++ frame.written } =
      frame.body ++ drafts.reverse :=
  List.reverse_append

theorem take_body (frame : Frame) (drafts : List Draft) :
    (frame.body ++ drafts).take frame.written.length = frame.body := by
  have length : frame.body.length = frame.written.length := List.length_reverse
  rw [← length, List.take_left]

/-- Frames from the innermost one outwards. -/
def flatten : List Frame → List FlatFrame
  | [] => []
  | frame :: outer => frame.flat outer :: flatten outer

@[simp] theorem length_flatten (frames : List Frame) : (flatten frames).length = frames.length := by
  induction frames with
  | nil => rfl
  | cons frame outer ih => rw [flatten, List.length_cons, List.length_cons, ih]

/-- What is seen of a frame besides its values and its code. -/
def cleared (frame : Frame) : Frame := { frame with values := [], written := [] }

theorem map_flatten {β : Type} {f : FlatFrame → β} {g : Frame → β}
    (same : ∀ frame outer, f (Frame.flat frame outer) = g frame) (frames : List Frame) :
    (flatten frames).map f = frames.map g := by
  induction frames with
  | nil => rfl
  | cons frame outer ih => rw [flatten, List.map_cons, List.map_cons, ih, same]

end Frame

namespace Context

def flat (c : Context) : FlatContext where
  body := c.frame.body
  stack := c.stack
  frame := c.frame.flat c.outer
  outer := Frame.flatten c.outer
  locals := c.locals
  paramCount := c.paramCount
  varsMade := c.varsMade
  labelsMade := c.labelsMade

variable (c : Context)

theorem fits_flat : c.flat.frame.height ≤ c.flat.stack.length := by
  show height c.outer ≤ c.stack.length
  rw [stack_eq, List.length_append, length_below]
  exact Nat.le_add_right _ _

theorem own_flat : c.flat.own = c.frame.values := c.drop_stack

theorem take_stack : c.stack.take (height c.outer) = c.below := by
  rw [stack_eq, ← length_below, List.take_left]

/-! ## The stack -/

theorem frameTypes_flat : c.flat.frameTypes = some c.frame.types := by
  rw [FlatContext.frameTypes_eq c.fits_flat, own_flat, Frame.types]

theorem peekType_flat (depth : Nat) : c.flat.peekType depth = some (c.peekType depth) := by
  rw [FlatContext.peekType_eq c.fits_flat, own_flat, peekType]

theorem checkTop_flat (name : String) (types : List ValType) (skip : Nat) :
    c.flat.checkTop name types skip = .of (c.checkTop name types skip) := by
  rw [FlatContext.checkTop_eq c.fits_flat, own_flat]
  rfl

theorem pop_flat (name : String) (types : List ValType) :
    c.flat.pop name types = .of ((c.pop name types).map flat) := by
  rw [FlatContext.pop_eq c.fits_flat, checkTop_flat, own_flat, pop]
  cases c.checkTop name types 0 with
  | error e => rfl
  | ok _ =>
      have kept : c.stack.take (c.stack.length - min types.length c.frame.values.length) =
          (c.without types.length).stack := by
        -- What goes is at the end of the stack, and none of it is below the frame.
        rw [stack_eq, stack_eq, List.length_append, List.length_reverse]
        show _ = c.below ++ (c.frame.values.drop types.length).reverse
        rw [List.reverse_drop, Nat.add_sub_assoc (Nat.min_le_right _ _),
          List.take_length_add_append]
        congr 2
        omega
      exact congrArg (fun stack => Guarded.of (.ok { c.flat with stack })) kept

theorem push_flat (types : List ValType) :
    c.flat.push types = ((c.push types).1, (c.push types).2.flat) := by
  refine Prod.ext rfl ?_
  exact congrArg (fun stack => { c.flat with stack, varsMade := c.varsMade + types.length })
    (stack_push c types).symm

theorem write_flat (draft : Draft) : c.flat.write draft = (c.write draft).flat := by
  refine congrArg (fun body => { c.flat with body }) ?_
  show c.frame.written.reverse ++ [draft] = (draft :: c.frame.written).reverse
  rw [List.reverse_cons]

theorem markUnreachable_flat : c.flat.markUnreachable = c.markUnreachable.flat := by
  refine congrArg (fun stack => { c.flat with
    stack, frame := { c.flat.frame with unreachable := true } }) ?_
  exact c.take_stack.trans c.stack_markUnreachable.symm

/-! ## Parameters -/

section

variable {c} (declared : c.paramCount ≤ c.locals.size)

include declared

theorem params_flat : c.flat.params = some c.params := FlatContext.params_eq declared

theorem param_flat (index : UInt32) : c.flat.param index = .of (c.param index) := by
  have handles : c.params[index.toNat]? =
      (c.locals.toList.take c.paramCount)[index.toNat]?.map fun type => ⟨index, type⟩ := by
    rw [params, List.getElem?_map, List.getElem?_zipIdx, Option.map_map]
    simp [Function.comp_def]
  have types : (c.flat.locals.toList.take c.flat.paramCount)[index.toNat]? =
      (c.locals.toList.take c.paramCount)[index.toNat]? := rfl
  rw [FlatContext.param_eq declared, param, handles, types]
  cases (c.locals.toList.take c.paramCount)[index.toNat]? <;> rfl

end

/-! ## Frames -/

/-- A frame without values begins on top of the whole stack. -/
theorem flat_entered (frame : Frame) (empty : frame.values = []) :
    flat { c with frame, outer := c.frame :: c.outer } = { c.flat with
      body := frame.body
      frame := { frame.flat c.frames with height := c.stack.length }
      outer := c.flat.frame :: c.flat.outer } := by
  have stack : Context.stack { c with frame, outer := c.frame :: c.outer } = c.stack := by
    rw [stack_eq, empty]
    exact List.append_nil _
  have top : height c.frames = c.stack.length := List.length_reverse.symm
  rw [flat, stack, ← top]
  rfl

theorem enter_flat (kind : FrameKind) (type : FuncType) :
    c.flat.enter kind type = ((c.enter kind type).1, (c.enter kind type).2.flat) := by
  refine Prod.ext rfl ?_
  have opened := flat_entered { c with labelsMade := c.labelsMade + 1 }
    { label := c.nextLabel, kind, startTypes := type.params, endTypes := type.results } rfl
  exact (congrArg (fun m => (FlatContext.push m type.params).2) opened.symm).trans
    (congrArg Prod.snd (push_flat _ type.params))

theorem checkEnd_flat :
    c.flat.checkEnd = .of (c.checkEnd.map fun _ => { c.flat with stack := c.below }) := by
  have types : (c.flat.own.map (·.type)).reverse = c.frame.types := by rw [own_flat, Frame.types]
  have balanced : c.flat.balanced c.frame.types = endMatches c.frame := rfl
  have cut : c.flat.stack.take c.flat.frame.height = c.below := c.take_stack
  rw [FlatContext.checkEnd_eq c.fits_flat, types, balanced, cut, checkEnd]
  cases endMatches c.frame <;> rfl

/-- The code that was set aside is that of the frame that comes back. -/
theorem exit_flat :
    c.flat.exit = .of (c.exit.map fun done => (done.1, done.2.flat)) := by
  rw [FlatContext.exit, checkEnd_flat, exit]
  cases c.checkEnd with
  | error e => rfl
  | ok _ =>
      obtain ⟨frame, outer, locals, paramCount, varsMade, labelsMade⟩ := c
      cases outer <;> rfl

theorem switchToElse_flat :
    c.flat.switchToElse = .of (c.switchToElse.map fun done => (done.1, done.2.flat)) := by
  rw [FlatContext.switchToElse, checkEnd_flat, switchToElse]
  cases c.checkEnd with
  | error e => rfl
  | ok _ =>
      let arm : Context := { c with frame := { c.frame with
        kind := .elseArm, unreachable := false, values := [], written := [] } }
      have begun : arm.flat = { c.flat with
          body := []
          stack := c.below
          frame := { c.flat.frame with kind := .elseArm, unreachable := false } } := by
        have stack : arm.stack = c.below := arm.stack_eq.trans (List.append_nil _)
        rw [flat, stack]
        rfl
      have pushed := congrArg Prod.snd (push_flat arm c.frame.startTypes)
      rw [begun] at pushed
      exact congrArg (fun m => Guarded.of (.ok (c.frame.body, m))) pushed

/-- A body can be finished where no construct is open. -/
theorem finish_flat (alone : c.outer = []) (declared : c.paramCount ≤ c.locals.size) :
    c.flat.finish = ExceptT.mk (some (c.finish.mapError FinishFault.refused)) := by
  have closed : c.flat.outer.isEmpty = true := by
    rw [flat, alone]
    rfl
  rw [FlatContext.finish_eq declared, if_pos closed, checkEnd_flat, finish]
  cases c.checkEnd <;> rfl

/-! ## Instructions -/

theorem bare_flat :
    c.flat.bare = { c with frame := c.frame.cleared, outer := c.outer.map Frame.cleared } :=
  congrArg (fun outer => ({ c with frame := c.frame.cleared, outer } : Context))
    (Frame.map_flatten (fun _ _ => rfl) c.outer)

/-- Targets are found by labels and depths, which are there without values. -/
theorem resolveTarget_bare (target : Target) :
    c.flat.bare.resolveTarget target = c.resolveTarget target := by
  have frames : c.flat.bare.frames = c.frames.map Frame.cleared := by
    rw [bare_flat]
    rfl
  have depths : ∀ l : Label, (c.frames.map Frame.cleared).findIdx (·.label = l) =
      c.frames.findIdx (·.label = l) := fun l => by
    rw [List.findIdx_map]
    rfl
  cases target with
  | label l =>
      simp only [resolveTarget, frames, depths, List.getElem?_map]
      cases c.frames[c.frames.findIdx (·.label = l)]? <;> rfl
  | depth d =>
      simp only [resolveTarget, frames, List.getElem?_map]
      cases c.frames[d.toNat]? <;> rfl

theorem returnTypes_bare : c.flat.bare.returnTypes = c.returnTypes := by
  rw [bare_flat, returnTypes, returnTypes, List.getLast?_map]
  cases c.outer.getLast? <;> rfl

theorem branchLabels_flat (d : InstrDef) (arity : Nat) (targets : List Target) :
    c.flat.branchLabels d arity targets = .of (d.branchLabels c arity targets) := by
  induction targets with
  | nil => rfl
  | cons target rest ih =>
      simp only [FlatContext.branchLabels, InstrDef.branchLabels, resolveTarget_bare,
        checkTop_flat, ih]
      refine Guarded.of_bind fun found => ?_
      obtain ⟨depth, types⟩ := found
      dsimp only
      split
      · exact Guarded.of_bind fun _ => Guarded.of_bind fun _ => rfl
      · rfl

/-- A rule that does not look at the stack. -/
theorem effect_bare (d : InstrDef) (argument : Argument)
    (blind : d.typing ∉ [.drop, .select, .refIsNull, .brTable]) :
    d.effect c.flat.bare argument = d.effect c argument := by
  unfold InstrDef.effect
  cases typing : d.typing with
  | drop | select | refIsNull | brTable => simp [typing] at blind
  | ret => simp only [returnTypes_bare]
  | br | brIf => simp only [resolveTarget_bare]
  | _ => rfl

theorem effect_flat (d : InstrDef) (argument : Argument) :
    c.flat.effect d argument = .of (d.effect c argument) := by
  have blind := fun blind => congrArg Guarded.of (c.effect_bare d argument blind)
  unfold FlatContext.effect
  -- The rules that look at the stack ask the machine; all others see a body without values.
  cases typing : d.typing with
  | drop | refIsNull =>
      unfold InstrDef.effect
      rw [typing]
      cases argument with
      | none => simp only [peekType_flat]; rfl
      | _ => rfl
  | select =>
      unfold InstrDef.effect
      rw [typing]
      cases argument with
      | none =>
          simp only [peekType_flat, Guarded.lift_some_bind]
          split <;> rfl
      | _ => rfl
  | brTable =>
      unfold InstrDef.effect
      rw [typing]
      cases argument with
      | branchTable targets fallback =>
          simp only [resolveTarget_bare, branchLabels_flat]
          exact Guarded.of_bind fun _ => Guarded.of_bind fun _ => rfl
      | _ => rfl
  | _ => exact blind (by simp [typing])

theorem perform_flat (d : InstrDef) (argument : Argument) :
    c.flat.perform d argument =
      .of ((c.perform d argument).map fun done => (done.1, done.2.flat)) := by
  rw [FlatContext.perform, effect_flat, perform]
  cases d.effect c argument with
  | error e => rfl
  | ok effect =>
      simp only [Guarded.of_ok_bind, Except.ok_bind, pop_flat]
      cases c.pop d.name effect.params with
      | error e => rfl
      | ok popped =>
          simp only [Except.map, Guarded.of_ok_bind, push_flat, write_flat, markUnreachable_flat]
          cases effect.diverges <;> rfl

theorem conclude_flat (d : InstrDef) (argument : Argument) :
    c.flat.conclude d argument =
      .of ((c.conclude d argument).map fun done => (done.1, done.2.flat)) := by
  rw [FlatContext.conclude, effect_flat, conclude]
  cases d.effect c argument with
  | error e => rfl
  | ok effect =>
      simp only [Guarded.of_ok_bind, push_flat, write_flat]
      rfl

/-! ## Operands -/

/-- A place of the machine's stack is one of the frame. -/
theorem inPlace_flat {count position rest : Nat} (v : StackVar)
    (place : position + rest + 1 = count) :
    c.flat.inPlace count position v = decide (c.frame.values[rest]? = some v) := by
  rw [Bool.eq_iff_iff, decide_eq_true_iff, place_iff_slot]
  have slots : ∀ slot, minus (c.stack.length + position) count = some slot ↔
      slot + (rest + 1) = c.stack.length := by
    intro slot
    rw [minus]
    split
    · rw [Option.some.injEq]
      omega
    · simp only [reduceCtorEq, false_iff]
      omega
  have stack : c.flat.stack = c.stack := rfl
  have start : c.flat.frame.height = height c.outer := rfl
  simp only [FlatContext.inPlace, stack, start, ← slots]
  cases minus (c.stack.length + position) count with
  | none => simp
  | some slot => simp

theorem checkPlaces_flat (name : String) {count : Nat} (position : Nat) (operands : List Operand)
    (places : position + operands.length = count) :
    c.flat.checkPlaces name count position operands = c.checkPlaces name position operands := by
  induction operands generalizing position with
  | nil => rfl
  | cons operand rest ih =>
      rw [List.length_cons] at places
      have later := ih (position + 1) (by omega)
      cases operand with
      | var v =>
          rw [FlatContext.checkPlaces, checkPlaces, later, c.inPlace_flat v (by omega)]
          simp only [decide_eq_true_eq]
      | _ => exact later

/-! ## Undoing -/

theorem mark_flat : c.flat.mark = c.mark := by
  have depth : c.flat.outer.length = c.depth := Frame.length_flatten c.outer
  have written : c.flat.body.length = c.frame.written.length := List.length_reverse
  rw [FlatContext.mark, depth, written]
  rfl

/-- Closing the machine's frames ends at the one that was the current one, with
the code that was set aside there. -/
theorem closeTo_flatten {opened outer rest : List Frame} {frame base : Frame}
    (frames : frame :: outer = opened ++ base :: rest) :
    FlatContext.closeTo rest.length frame.body (frame.flat outer) (Frame.flatten outer) =
      (base.body, base.flat rest, Frame.flatten rest) := by
  -- By induction on the frames to be closed, each of which gives way to its parent.
  induction opened generalizing frame outer with
  | nil =>
      cases frames
      cases rest with
      | nil => rfl
      | cons parent outer =>
          have here : ¬ (parent :: outer).length <
              (parent.flat outer :: Frame.flatten outer).length := by
            rw [List.length_cons, List.length_cons, Frame.length_flatten]
            exact Nat.lt_irrefl _
          rw [Frame.flatten, FlatContext.closeTo, if_neg here]
  | cons first opened ih =>
      obtain ⟨-, around⟩ := List.cons.inj frames
      cases outer with
      | nil => simp at around
      | cons parent outer =>
          have further : rest.length < (parent.flat outer :: Frame.flatten outer).length := by
            have count := congrArg List.length around
            simp only [List.append_eq, List.length_append, List.length_cons,
              Frame.length_flatten] at count ⊢
            omega
          rw [Frame.flatten, FlatContext.closeTo, if_pos further]
          exact ih around

variable {c} {after : Context} {n : Nat}

/-- However many frames were opened, the machine gets back to the same state. -/
theorem unwind_flat (h : c.Above n after) :
    after.flat.unwind c.mark = (after.rollbackTo c).flat := by
  obtain ⟨opened, values, drafts, -, frames⟩ := h.frames
  have reached : FlatContext.closeTo c.mark.depth after.flat.body after.flat.frame
      after.flat.outer =
      (c.frame.body ++ drafts.reverse, c.frame.flat c.outer, Frame.flatten c.outer) := by
    rw [← Frame.body_append values drafts]
    exact closeTo_flatten frames
  rw [FlatContext.unwind, reached]
  dsimp only
  rw [mark, Frame.take_body, rollbackTo, flat, flat, h.paramCount]
  rfl

theorem cutBack_flat (h : c.Topped after) :
    after.flat.cutBack c.mark = (after.rollbackTo c).flat := by
  obtain ⟨values, drafts, frame⟩ := h.frame
  have body : after.flat.body = c.frame.body ++ drafts.reverse := by
    rw [← Frame.body_append (values ++ c.frame.values) drafts, ← frame]
    rfl
  have stack : after.flat.stack = c.stack ++ values.reverse := by
    show after.stack = _
    rw [stack_eq, stack_eq, below, below, h.outer, frame, List.reverse_append, List.append_assoc]
  rw [FlatContext.cutBack, body, stack, mark, Frame.take_body, List.take_left, rollbackTo, flat,
    flat, frame, h.outer, h.paramCount]
  rfl

end Context

/-! ## Taking apart -/

namespace FlatFrame

/-- A frame with its code and its values, which are those above its height. -/
def filled (frame : FlatFrame) (body : List Draft) (stack : List StackVar) : Frame :=
  { frame.bare with values := (stack.drop frame.height).reverse, written := body.reverse }

/-- The frames around one, from the code that it set aside and the values below it. -/
def apart (aside : List Draft) (stack : List StackVar) : List FlatFrame → List Frame
  | [] => []
  | frame :: outer =>
    frame.filled aside stack :: apart frame.aside (stack.take frame.height) outer

end FlatFrame

namespace FlatContext

/-- The body with its values and its code in their frames. -/
def apart (m : FlatContext) : Context where
  frame := m.frame.filled m.body m.stack
  outer := FlatFrame.apart m.frame.aside (m.stack.take m.frame.height) m.outer
  locals := m.locals
  paramCount := m.paramCount
  varsMade := m.varsMade
  labelsMade := m.labelsMade

end FlatContext

theorem Frame.filled_flat (frame : Frame) (outer : List Frame) :
    (frame.flat outer).filled frame.body ((frame :: outer).flatMap (·.values)).reverse = frame := by
  have own : (((frame :: outer).flatMap (·.values)).reverse.drop
      (Context.height outer)).reverse = frame.values :=
    Context.drop_stack { (default : Context) with frame, outer }
  rw [FlatFrame.filled, body, List.reverse_reverse]
  exact congrArg (fun values => { frame with values }) own

/-- What is below a frame is laid out as if it was not there. -/
theorem Frame.apart_flatten (outer : List Frame) :
    FlatFrame.apart (bodyAround outer) (outer.flatMap (·.values)).reverse (flatten outer) =
      outer := by
  induction outer with
  | nil => rfl
  | cons frame outer ih =>
      have below : ((frame :: outer).flatMap (·.values)).reverse.take (Context.height outer) =
          (outer.flatMap (·.values)).reverse :=
        Context.take_stack { (default : Context) with frame, outer }
      rw [flatten, FlatFrame.apart]
      exact congrArg₂ List.cons (frame.filled_flat outer) (below ▸ ih)

theorem Context.apart_flat (c : Context) : c.flat.apart = c := by
  have outer : FlatFrame.apart c.flat.frame.aside (c.flat.stack.take c.flat.frame.height)
      c.flat.outer = c.outer :=
    (congrArg (FlatFrame.apart _ · _) c.take_stack).trans (Frame.apart_flatten c.outer)
  have frame : c.flat.frame.filled c.flat.body c.flat.stack = c.frame :=
    c.frame.filled_flat c.outer
  rw [FlatContext.apart, outer, frame]
  rfl

end Wasm
