import Wasm.Proofs.Body.Steps
import Wasm.Proofs.Validation.Algorithm

/-!
# The stack checker and the validation algorithm side by side

The stack checker keeps the values of each frame apart and knows all their
types; the algorithm has one stack for all frames, remembers heights, and does
not know every type. `Follows frames s` says that the two are in step: each
frame has a part of the operand stack of its own, its values are there in the
same order, and what the algorithm does know about them is right.
-/

namespace Wasm.Validation

open Wasm.Context (agree freshVars map_type_freshVars)

/-! ## One frame -/

/-- The operand types agree with the values of a frame, as far as they are
known. Below them an unreachable frame may have more of unknown type, which
happens where operands were put back that had only been taken to be there. -/
def Covers (unreachable : Bool) : List StackVar → List (Option ValType) → Prop
  | [], values => (∀ value ∈ values, value = none) ∧ (unreachable = false → values = [])
  | var :: vars, value :: values =>
      (value = none ∨ value = some var.type) ∧ Covers unreachable vars values
  | _ :: _, [] => False

theorem covers_nil (unreachable : Bool) : Covers unreachable [] [] :=
  ⟨nofun, fun _ => rfl⟩

theorem Covers.of_dead {unreachable : Bool} {values : List (Option ValType)}
    (unknown : ∀ value ∈ values, value = none) (dead : unreachable = true) :
    Covers unreachable [] values :=
  ⟨unknown, fun alive => absurd (dead.symm.trans alive) nofun⟩

/-- Values whose types are known cover themselves. -/
theorem Covers.append {unreachable : Bool} {vars below : List StackVar}
    {values : List (Option ValType)} (h : Covers unreachable below values) :
    Covers unreachable (vars ++ below) (vars.map (some ·.type) ++ values) := by
  induction vars with
  | nil => exact h
  | cons var rest ih => exact ⟨.inr rfl, ih⟩

/-- The types of fresh values are known to the algorithm, the last one on top. -/
theorem map_some_freshVars (next : Nat) (types : List ValType) :
    (freshVars next types).reverse.map (some ·.type) = (types.map some).reverse := by
  rw [List.map_reverse, ← map_type_freshVars next types, List.map_map, map_type_freshVars]
  rfl

theorem Covers.push {unreachable : Bool} {vars : List StackVar} {values : List (Option ValType)}
    (h : Covers unreachable vars values) (next : Nat) (types : List ValType) :
    Covers unreachable ((freshVars next types).reverse ++ vars)
      ((types.map some).reverse ++ values) := by
  rw [← map_some_freshVars next types]
  exact h.append

section Frame

variable {control : Control} {controls : List Control} {below : List (Option ValType)}

/-- The operands of the innermost construct end at its height. -/
theorem pop_cons (height : control.height = below.length) (value : Option ValType)
    (values : List (Option ValType)) :
    Stacks.pop ⟨value :: values ++ below, control :: controls⟩ =
      some (value, ⟨values ++ below, control :: controls⟩) := by
  have higher : (value :: values ++ below).length ≠ control.height := by
    simp only [List.cons_append, List.length_cons, List.length_append, height]
    omega
  simp only [Stacks.pop]
  rw [if_neg higher]
  rfl

theorem pop_nil (height : control.height = below.length) (dead : control.unreachable = true) :
    Stacks.pop ⟨below, control :: controls⟩ = some (none, ⟨below, control :: controls⟩) := by
  simp only [Stacks.pop]
  rw [if_pos height.symm, if_pos dead]

/-- An operand that is not known to have another type can be taken. -/
theorem popType_of_pop {s s' : Stacks} {value : Option ValType} {type : ValType}
    (popped : s.pop = some (value, s')) (fits : value = none ∨ value = some type) :
    s.popType type = some (value, s') := by
  rw [Stacks.popType, popped]
  exact if_pos fits

theorem popTop_cons {s s₁ s₂ : Stacks} {type : ValType} {types : List ValType}
    {value : Option ValType} {values : List (Option ValType)}
    (first : s.popType type = some (value, s₁)) (rest : s₁.popTop types = some (values, s₂)) :
    s.popTop (type :: types) = some (value :: values, s₂) := by
  rw [Stacks.popTop, first]
  simp [rest]

variable (controls) in
/-- Where the stack checker finds operands of the given types, the algorithm
does so too, and they can be put back. -/
theorem Covers.popTop {vars : List StackVar} {values : List (Option ValType)}
    {types : List ValType} (h : Covers control.unreachable vars values)
    (height : control.height = below.length) (right : agree vars types = true)
    (enough : control.unreachable = true ∨ types.length ≤ vars.length) :
    ∃ taken left, Stacks.popTop ⟨values ++ below, control :: controls⟩ types =
        some (taken, ⟨left ++ below, control :: controls⟩) ∧
      Covers control.unreachable (vars.drop types.length) left ∧
      left.length = values.length - types.length ∧
      Covers control.unreachable vars (taken ++ left) := by
  induction types generalizing vars values with
  | nil => exact ⟨[], values, rfl, h, rfl, h⟩
  | cons type types ih =>
      match vars, values with
      | [], [] =>
          -- The frame is unreachable, and the operand is taken to be there.
          have dead := enough.resolve_right (Nat.not_succ_le_zero _)
          obtain ⟨taken, left, rest, covered, length, whole⟩ := ih h rfl (.inl dead)
          rw [List.drop_nil] at covered
          refine ⟨none :: taken, left, ?_, by rwa [List.drop_nil], by simpa using length, ?_⟩
          · exact popTop_cons (popType_of_pop (pop_nil height dead) (.inl rfl)) rest
          · exact .of_dead (List.forall_mem_cons.mpr ⟨rfl, whole.1⟩) dead
      | [], value :: values =>
          -- An operand of unknown type is left from before, and will do.
          have dead := enough.resolve_right (Nat.not_succ_le_zero _)
          obtain ⟨unknown, others⟩ := List.forall_mem_cons.mp h.1
          obtain ⟨taken, left, rest, covered, length, whole⟩ :=
            ih (.of_dead others dead) rfl (.inl dead)
          rw [List.drop_nil] at covered
          refine ⟨value :: taken, left, ?_, by rwa [List.drop_nil], by simpa using length, ?_⟩
          · exact popTop_cons (popType_of_pop (pop_cons height value values) (.inl unknown)) rest
          · exact .of_dead (List.forall_mem_cons.mpr ⟨unknown, whole.1⟩) dead
      | var :: vars, value :: values =>
          obtain ⟨known, covers⟩ := h
          obtain ⟨same, others⟩ := Bool.and_eq_true_iff.mp right
          obtain ⟨taken, left, rest, covered, length, whole⟩ :=
            ih covers others (enough.imp_right Nat.le_of_succ_le_succ)
          refine ⟨value :: taken, left, ?_, covered, by simpa using length, known, whole⟩
          rw [beq_iff_eq.mp same] at known
          exact popTop_cons (popType_of_pop (pop_cons height value values) known) rest

variable (controls) in
/-- What `checkTop` lets through is there for the algorithm to take. -/
theorem Covers.checked {c : Context} {name : String} {types : List ValType} {skip : Nat}
    {values : List (Option ValType)}
    (h : Covers control.unreachable (c.frame.values.drop skip) values)
    (height : control.height = below.length) (flag : control.unreachable = c.frame.unreachable)
    (checked : c.checkTop name types skip = .ok ()) :
    ∃ taken left, Stacks.popTypes ⟨values ++ below, control :: controls⟩ types =
        some (taken, ⟨left ++ below, control :: controls⟩) ∧
      Covers control.unreachable ((c.frame.values.drop skip).drop types.length) left ∧
      left.length = values.length - types.length ∧
      Covers control.unreachable (c.frame.values.drop skip) (taken ++ left) := by
  simp only [Context.checkTop] at checked
  split at checked
  · rename_i allowed
    obtain ⟨enough, right⟩ := Bool.and_eq_true_iff.mp allowed
    have there : control.unreachable = true ∨
        types.reverse.length ≤ (c.frame.values.drop skip).length := by
      rw [flag, List.length_reverse, List.length_drop]
      rcases Bool.or_eq_true_iff.mp enough with dead | many
      · exact .inl dead
      · have := (Bytes.hasAtLeast_iff _ _).mp many
        exact .inr (by omega)
    have popped := h.popTop controls height right there
    rwa [List.length_reverse] at popped
  · cases checked

end Frame

/-! ## All frames -/

/-- The control frame of an open construct. -/
structure Tracks (frame : Frame) (control : Control) : Prop where
  isLoop : control.isLoop = (frame.kind == .loop)
  startTypes : control.startTypes = frame.startTypes
  endTypes : control.endTypes = frame.endTypes
  unreachable : control.unreachable = frame.unreachable

theorem Tracks.labelTypes {frame : Frame} {control : Control} (h : Tracks frame control) :
    control.labelTypes = frame.labelTypes := by
  rw [Control.labelTypes, h.isLoop, h.startTypes, h.endTypes, Frame.labelTypes]
  cases frame.kind <;> rfl

/-- Two runs are in step. -/
inductive Follows : List Frame → Stacks → Prop
  | nil : Follows [] {}
  | cons {frame : Frame} {frames : List Frame} {control : Control} {controls : List Control}
      {values below : List (Option ValType)} (tracks : Tracks frame control)
      (height : control.height = below.length)
      (covers : Covers control.unreachable frame.values values)
      (level : values.length = frame.values.length)
      (outer : Follows frames ⟨below, controls⟩) :
      Follows (frame :: frames) ⟨values ++ below, control :: controls⟩

/-- A frame without values. -/
theorem Follows.empty {frame : Frame} {frames : List Frame} {control : Control}
    {controls : List Control} {below : List (Option ValType)} (tracks : Tracks frame control)
    (height : control.height = below.length) (nothing : frame.values = [])
    (outer : Follows frames ⟨below, controls⟩) :
    Follows (frame :: frames) ⟨below, control :: controls⟩ := by
  have covers : Covers control.unreachable frame.values [] := by
    rw [nothing]
    exact covers_nil _
  show Follows (frame :: frames) ⟨[] ++ below, control :: controls⟩
  exact .cons tracks height covers (by rw [nothing]; rfl) outer

variable {c c' : Context} {s : Stacks}

/-- What is written in a frame is not compared. -/
theorem Follows.write (h : Follows c.frames s) (draft : Draft) :
    Follows (c.write draft).frames s := by
  obtain ⟨frame, outer, locals, paramCount, varsMade, labelsMade⟩ := c
  cases h with
  | cons tracks height covers level outer =>
      exact .cons ⟨tracks.isLoop, tracks.startTypes, tracks.endTypes, tracks.unreachable⟩ height
        covers level outer

theorem Follows.pop {name : String} {types : List ValType} (h : Follows c.frames s)
    (popped : c.pop name types = .ok c') :
    ∃ taken s', s.popTypes types = some (taken, s') ∧ Follows c'.frames s' := by
  obtain ⟨checked, rfl⟩ := Context.pop_eq_ok.mp popped
  cases h with
  | @cons _ _ control controls values below tracks height covers level outer =>
      obtain ⟨taken, left, same, covered, length, -⟩ :=
        Covers.checked controls covers height tracks.unreachable checked
      refine ⟨taken, _, same, .cons ?_ height covered ?_ outer⟩
      · exact ⟨tracks.isLoop, tracks.startTypes, tracks.endTypes, tracks.unreachable⟩
      · rw [length, Context.values_without, List.length_drop, level]

theorem Follows.push (h : Follows c.frames s) (types : List ValType) :
    Follows (c.push types).2.frames (s.pushTypes types) := by
  obtain ⟨frame, outer, locals, paramCount, varsMade, labelsMade⟩ := c
  cases h with
  | cons tracks height covers level outer =>
      rw [Stacks.pushTypes, Stacks.putBack, ← List.append_assoc]
      refine .cons ?_ height (covers.push varsMade types) ?_ outer
      · exact ⟨tracks.isLoop, tracks.startTypes, tracks.endTypes, tracks.unreachable⟩
      · have pushed : (freshVars varsMade types).length = types.length := by simp [freshVars]
        simp only [Context.push, List.length_append, List.length_reverse, List.length_map, pushed,
          level]

/-- The algorithm need not know the type of a value that is pushed. -/
theorem Follows.pushOne {value : Option ValType} {type : ValType} (h : Follows c.frames s)
    (known : value = none ∨ value = some type) :
    Follows (c.push [type]).2.frames (s.putBack [value]) := by
  obtain ⟨frame, outer, locals, paramCount, varsMade, labelsMade⟩ := c
  cases h with
  | @cons _ _ control controls values below tracks height covers level outer =>
      have covered : Covers control.unreachable
          (⟨UInt32.ofNat (varsMade + 0), type⟩ :: frame.values) (value :: values) := ⟨known, covers⟩
      show Follows _ ⟨(value :: values) ++ below, control :: controls⟩
      refine .cons ?_ height covered (congrArg Nat.succ level) outer
      exact ⟨tracks.isLoop, tracks.startTypes, tracks.endTypes, tracks.unreachable⟩

theorem diverge_cons {control : Control} {controls : List Control}
    {values below : List (Option ValType)} (height : control.height = below.length) :
    Stacks.diverge ⟨values ++ below, control :: controls⟩ =
      ⟨below, { control with unreachable := true } :: controls⟩ := by
  simp only [Stacks.diverge]
  rw [List.length_append, height, Nat.add_sub_cancel, List.drop_left]

theorem Follows.diverge (h : Follows c.frames s) : Follows c.markUnreachable.frames s.diverge := by
  obtain ⟨frame, outer, locals, paramCount, varsMade, labelsMade⟩ := c
  cases h with
  | cons tracks height covers level outer =>
      rw [diverge_cons height]
      exact .empty ⟨tracks.isLoop, tracks.startTypes, tracks.endTypes, rfl⟩ height rfl outer

/-! ## Constructs -/

/-- A construct that opens has its operands on the stack. -/
theorem Follows.enter (h : Follows c.frames s) (kind : FrameKind) (type : FuncType) :
    Follows (c.enter kind type).2.frames (s.enter (kind == .loop) type) := by
  let inner : Context := { c with
    frame := { label := c.nextLabel, kind, startTypes := type.params, endTypes := type.results }
    outer := c.frame :: c.outer
    labelsMade := c.labelsMade + 1 }
  have opened : Follows inner.frames { s with controls :=
      ⟨kind == .loop, type.params, type.results, s.values.length, false⟩ :: s.controls } :=
    .empty ⟨rfl, rfl, rfl, rfl⟩ rfl rfl h
  exact opened.push type.params

theorem agree_map (vars : List StackVar) (more : List ValType) :
    agree vars (vars.map (·.type) ++ more) = true := by
  induction vars with
  | nil => cases more <;> rfl
  | cons var rest ih => simp [agree, ih]

/-- The values that the end of a frame lets through are the last of its end types. -/
theorem endTypes_of_endMatches {frame : Frame} (h : Context.endMatches frame = true) :
    ∃ more, frame.endTypes.reverse = frame.values.map (·.type) ++ more ∧
      (frame.unreachable = true ∨ more = []) := by
  rw [Context.endMatches] at h
  split at h
  · rename_i dead
    obtain ⟨front, whole⟩ := List.isSuffixOf_iff_suffix.mp h
    refine ⟨front.reverse, ?_, .inl dead⟩
    rw [← whole, Frame.types, List.reverse_append, List.reverse_reverse]
  · refine ⟨[], ?_, .inr rfl⟩
    rw [← beq_iff_eq.mp h, Frame.types, List.reverse_reverse, List.append_nil]

/-- A construct whose end is right can be left. -/
theorem Follows.leave (h : Follows c.frames s) (checked : c.checkEnd = .ok ()) :
    ∃ s', s.leave = some s' ∧ Follows c.outer s' := by
  have ends : Context.endMatches c.frame = true := by
    by_contra wrong
    rw [Context.checkEnd, if_neg wrong] at checked
    cases checked
  obtain ⟨more, types, short⟩ := endTypes_of_endMatches ends
  cases h with
  | @cons _ _ control controls values below tracks height covers level outer =>
      have right : agree c.frame.values control.endTypes.reverse = true := by
        rw [tracks.endTypes, types]
        exact agree_map _ _
      have enough : control.unreachable = true ∨
          control.endTypes.reverse.length ≤ c.frame.values.length := by
        rw [tracks.unreachable, tracks.endTypes, types]
        exact short.imp_right fun nothing => by simp [nothing]
      obtain ⟨taken, left, popped, -, length, -⟩ :=
        covers.popTop controls height right enough
      -- The frame has no more values than end types, so none is left.
      have nothing : left = [] := by
        have := congrArg List.length types
        rw [tracks.endTypes, this, level, List.length_append, List.length_map] at length
        exact List.eq_nil_of_length_eq_zero (by omega)
      subst nothing
      refine ⟨⟨below, controls⟩, ?_, outer⟩
      simp only [Stacks.leave, Stacks.popTypes, popped]
      exact if_pos height.symm

/-- The second arm of a conditional starts like the first one. -/
theorem Follows.switch {body : List Draft} (h : Follows c.frames s)
    (switched : c.switchToElse = .ok (body, c')) : ∃ s', s.leave = some s' ∧
      Follows c'.frames (s'.enter false ⟨c.frame.startTypes, c.frame.endTypes⟩) := by
  obtain ⟨checked, -, rfl⟩ := Context.switchToElse_eq_ok.mp switched
  obtain ⟨s', left, outer⟩ := h.leave checked
  refine ⟨s', left, ?_⟩
  let arm : Context := { c with
    frame := { c.frame with kind := .elseArm, unreachable := false, values := [], written := [] } }
  have opened : Follows arm.frames { s' with controls :=
      ⟨false, c.frame.startTypes, c.frame.endTypes, s'.values.length, false⟩ :: s'.controls } :=
    .empty ⟨rfl, rfl, rfl, rfl⟩ rfl rfl outer
  exact opened.push c.frame.startTypes

/-! ## Branches -/

theorem Follows.control (h : Follows c.frames s) {depth : Nat} {frame : Frame}
    (found : c.frames[depth]? = some frame) :
    ∃ control, s.controls[depth]? = some control ∧ Tracks frame control := by
  generalize c.frames = frames at h found
  induction h generalizing depth with
  | nil => cases found
  | cons tracks _ _ _ _ ih =>
      cases depth with
      | zero =>
          cases found
          exact ⟨_, rfl, tracks⟩
      | succ depth => exact ih found

/-- A target is a frame that is open. -/
theorem frame_of_resolveTarget {target : Target} {depth : Nat} {types : List ValType}
    (found : c.resolveTarget target = .ok (depth, types)) :
    ∃ frame, c.frames[depth]? = some frame ∧ types = frame.labelTypes := by
  cases target with
  | label l | depth d =>
      simp only [Context.resolveTarget] at found
      split at found
      · rename_i frame place
        cases found
        exact ⟨frame, place, rfl⟩
      · cases found

/-- A target that the stack checker finds has the same types for the algorithm. -/
theorem Follows.labelTypes {target : Target} {depth : Nat} {types : List ValType}
    (h : Follows c.frames s) (shallow : c.outer.length < 2 ^ 32)
    (found : c.resolveTarget target = .ok (depth, types)) :
    s.labelTypes (UInt32.ofNat depth) = some types := by
  obtain ⟨frame, place, rfl⟩ := frame_of_resolveTarget found
  obtain ⟨control, there, tracks⟩ := h.control place
  -- The label of a frame that is open fits into its 32 bits.
  have inside : depth < c.outer.length + 1 := (List.getElem?_eq_some_iff.mp place).1
  have fits : depth < UInt32.size := by
    rw [UInt32.size]
    omega
  rw [Stacks.labelTypes, UInt32.toNat_ofNat_of_lt' fits, there, Option.map_some,
    tracks.labelTypes]

theorem Follows.length {frames : List Frame} (h : Follows frames s) :
    s.controls.length = frames.length := by
  induction h with
  | nil => rfl
  | cons _ _ _ _ _ ih => exact congrArg Nat.succ ih

theorem Follows.returnTypes (h : Follows c.frames s) : s.returnTypes = some c.returnTypes := by
  have last : c.frames[c.frames.length - 1]? = some (c.outer.getLast?.getD c.frame) := by
    rw [← List.getLast?_eq_getElem?, Context.frames, List.getLast?_cons]
  obtain ⟨control, there, tracks⟩ := h.control last
  rw [Stacks.returnTypes, List.getLast?_eq_getElem?, h.length, there, Option.map_some,
    tracks.endTypes, Context.returnTypes]

end Wasm.Validation
