import Wasm.Proofs.Validation.Follows
import Wasm.Proofs.Validation.Replay

/-!
# The stack checker as an algorithm that knows all types

The state of a body is one of the validation algorithm in which no operand has
an unknown type: the values of all frames on one stack, and a control frame
for each frame. What the stack checker does to a body, the algorithm does to
that state. The statements are equations, so that they tell where both fail
as well.
-/

namespace Wasm

open Validation

/-! ## Frames as stacks -/

namespace Frame

/-- The types of the values in a frame, the top first. -/
def known (frame : Frame) : List (Option ValType) := frame.values.map (some ·.type)

theorem known_without (frame : Frame) (count : Nat) :
    (frame.without count).known = frame.known.drop count :=
  List.map_drop

end Frame

namespace Validation

/-- The control frame for a frame above that many operands. -/
def Control.ofFrame (frame : Frame) (height : Nat) : Control where
  isLoop := frame.kind == .loop
  startTypes := frame.startTypes
  endTypes := frame.endTypes
  height
  unreachable := frame.unreachable

namespace Stacks

/-- A frame on top of what is below it. -/
def onto (frame : Frame) (s : Stacks) : Stacks where
  values := frame.known ++ s.values
  controls := .ofFrame frame s.values.length :: s.controls

def ofFrames : List Frame → Stacks
  | [] => {}
  | frame :: outer => onto frame (ofFrames outer)

end Stacks

/-! ## Taking operands -/

/-- Operands of these types, the top first, can be taken from a frame with
these values. Where the frame is unreachable, what is missing is there. -/
def offers (unreachable : Bool) : List (Option ValType) → List ValType → Bool
  | _, [] => true
  | [], _ :: _ => unreachable
  | value :: values, type :: types =>
    (value == none || value == some type) && offers unreachable values types

theorem offers_known (unreachable : Bool) (vars : List StackVar) (types : List ValType) :
    offers unreachable (vars.map (some ·.type)) types =
      ((unreachable || Bytes.hasAtLeast types.length vars) && Context.agree vars types) := by
  induction types generalizing vars with
  | nil => cases vars <;> simp [offers, Context.agree, Bytes.hasAtLeast]
  | cons type types ih =>
      cases vars with
      | nil => simp [offers, Context.agree, Bytes.hasAtLeast]
      | cons var vars =>
          have known : (some var.type == none || some var.type == some type) =
              (var.type == type) := by simp
          rw [List.map_cons, offers, known, ih, Context.agree, List.length_cons, Bytes.hasAtLeast]
          exact Bool.and_left_comm _ _ _

section Height

variable {control : Control} {controls : List Control} {below : List (Option ValType)}

theorem pop_missing (height : control.height = below.length)
    (alive : control.unreachable = false) : Stacks.pop ⟨below, control :: controls⟩ = none := by
  simp only [Stacks.pop]
  rw [if_pos height.symm, alive]
  rfl

theorem popType_cons (height : control.height = below.length) (value : Option ValType)
    (values : List (Option ValType)) (type : ValType) :
    Stacks.popType ⟨value :: values ++ below, control :: controls⟩ type =
      if value == none || value == some type then
        some (value, ⟨values ++ below, control :: controls⟩)
      else none := by
  rw [Stacks.popType, pop_cons height]
  simp [Bool.or_eq_true]

/-- The operands that were taken and those that are left are the values of the
frame, with unknown ones for those that are missing. -/
theorem popTop_eq (height : control.height = below.length) (values : List (Option ValType))
    (types : List ValType) :
    Stacks.popTop ⟨values ++ below, control :: controls⟩ types =
      if offers control.unreachable values types then
        some (values.take types.length ++ List.replicate (types.length - values.length) none,
          ⟨values.drop types.length ++ below, control :: controls⟩)
      else none := by
  induction types generalizing values with
  | nil => simp [Stacks.popTop, offers]
  | cons type types ih =>
      cases values with
      | nil =>
          cases dead : control.unreachable with
          | true =>
              have rest := ih []
              have there : offers control.unreachable [] types = true := by
                rw [dead]
                cases types <;> rfl
              rw [if_pos there] at rest
              have first : Stacks.popType ⟨below, control :: controls⟩ type =
                  some (none, ⟨below, control :: controls⟩) :=
                popType_of_pop (pop_nil height dead) (.inl rfl)
              rw [List.nil_append, popTop_cons first rest]
              simp [offers, List.replicate_succ]
          | false => simp [Stacks.popTop, Stacks.popType, pop_missing height dead, offers]
      | cons value values =>
          rw [Stacks.popTop, popType_cons height, offers]
          cases fits : value == none || value == some type with
          | false => simp
          | true =>
              simp only [if_true, Option.bind_eq_bind, Option.bind_some, ih, Bool.true_and]
              split <;> simp

end Height

/-! ## Frames -/

section Frame

variable (frame : Frame) (s : Stacks)

theorem onto_without (count : Nat) : Stacks.onto (frame.without count) s =
    ⟨frame.known.drop count ++ s.values, .ofFrame frame s.values.length :: s.controls⟩ := by
  rw [← Frame.known_without]
  rfl

theorem popTypes_onto (types : List ValType) : ((Stacks.onto frame s).popTypes types).map (·.2) =
    if offers frame.unreachable frame.known types.reverse then
      some (.onto (frame.without types.length) s)
    else none := by
  rw [Stacks.popTypes, Stacks.onto, popTop_eq rfl, onto_without, List.length_reverse]
  show Option.map _ (if offers frame.unreachable _ _ = true then _ else _) = _
  split <;> rfl

theorem pop_onto : (Stacks.onto frame s).pop =
    if frame.unreachable = true ∨ frame.values ≠ [] then
      some (frame.values[0]?.map (·.type), .onto (frame.without 1) s)
    else none := by
  obtain ⟨label, kind, startTypes, endTypes, unreachable, values, written⟩ := frame
  cases values with
  | nil =>
      cases unreachable with
      | true => exact pop_nil rfl rfl
      | false => exact pop_missing rfl rfl
  | cons var vars =>
      rw [if_pos (.inr (List.cons_ne_nil _ _))]
      exact pop_cons rfl _ _

/-- Values that agree with at least as many types are the first of them. -/
theorem agree_iff_initial {vars : List StackVar} {types : List ValType}
    (short : vars.length ≤ types.length) :
    Context.agree vars types = true ↔ vars.map (·.type) <+: types := by
  rw [Context.agree_iff]
  constructor
  · rintro (first | whole)
    · exact first
    · have same := whole.eq_of_length_le (by rwa [List.length_map])
      exact same ▸ List.prefix_rfl
  · exact .inl

/-- The end of a frame is right if the end types can be taken and nothing is left. -/
theorem endMatches_iff : Context.endMatches frame = true ↔
    offers frame.unreachable frame.known frame.endTypes.reverse = true ∧
      frame.values.length ≤ frame.endTypes.length := by
  have reversed : frame.types.reverse = frame.values.map (·.type) := List.reverse_reverse _
  rw [Frame.known, offers_known, Context.endMatches, Bool.and_eq_true, Bool.or_eq_true,
    Bytes.hasAtLeast_iff, List.length_reverse]
  cases frame.unreachable with
  | true =>
      rw [if_pos rfl, List.isSuffixOf_iff_suffix, ← List.reverse_prefix, reversed]
      constructor
      · intro first
        have short := first.length_le
        rw [List.length_map, List.length_reverse] at short
        exact ⟨⟨.inl rfl, (agree_iff_initial (by rwa [List.length_reverse])).mpr first⟩, short⟩
      · rintro ⟨⟨-, same⟩, short⟩
        exact (agree_iff_initial (by rwa [List.length_reverse])).mp same
  | false =>
      rw [if_neg Bool.false_ne_true, beq_iff_eq, ← List.reverse_inj, reversed]
      constructor
      · intro whole
        have length := congrArg List.length whole
        rw [List.length_map, List.length_reverse] at length
        have few : frame.values.length ≤ frame.endTypes.reverse.length := by
          rw [List.length_reverse]
          exact Nat.le_of_eq length
        exact ⟨⟨.inr (Nat.le_of_eq length.symm), (agree_iff_initial few).mpr
          (whole ▸ List.prefix_rfl)⟩, Nat.le_of_eq length⟩
      · rintro ⟨⟨many, same⟩, short⟩
        have many := many.resolve_left Bool.false_ne_true
        have first := (agree_iff_initial (by rwa [List.length_reverse])).mp same
        exact first.eq_of_length (by rw [List.length_map, List.length_reverse]; omega)

/-- What is left of the frame is compared once its end types are taken. -/
theorem leave_onto :
    (Stacks.onto frame s).leave = if Context.endMatches frame then some s else none := by
  have parts : (Stacks.onto frame s).leave =
      (((Stacks.onto frame s).popTypes frame.endTypes).map (·.2)).bind fun left =>
        if left.values.length = s.values.length then some { left with controls := s.controls }
        else none := by
    show Option.bind (Stacks.popTypes _ frame.endTypes) _ = _
    cases (Stacks.onto frame s).popTypes frame.endTypes <;> rfl
  have length : (Stacks.onto (frame.without frame.endTypes.length) s).values.length =
      frame.values.length - frame.endTypes.length + s.values.length := by
    simp [Stacks.onto, Frame.known, Frame.without]
  rw [parts, popTypes_onto]
  by_cases there : offers frame.unreachable frame.known frame.endTypes.reverse = true
  · rw [if_pos there, Option.bind_some, length]
    by_cases short : frame.values.length ≤ frame.endTypes.length
    · have nothing : (frame.without frame.endTypes.length).known = [] := by
        rw [Frame.known, Frame.without, List.drop_eq_nil_of_le short]
        rfl
      rw [if_pos (by omega), if_pos ((endMatches_iff frame).mpr ⟨there, short⟩), Stacks.onto,
        nothing]
      rfl
    · rw [if_neg (by omega), if_neg fun ends => short ((endMatches_iff frame).mp ends).2]
  · rw [if_neg there, if_neg fun ends => there ((endMatches_iff frame).mp ends).1]
    rfl

/-- A construct that is left as soon as it is entered. -/
theorem leave_enter (type : FuncType) : (s.enter false type).leave =
    if type.params = type.results then some s else none := by
  let frame : Frame := {
    label := ⟨0⟩
    kind := .thenArm
    startTypes := type.params
    endTypes := type.results
    values := (Context.freshVars 0 type.params).reverse }
  have opened : s.enter false type = .onto frame s := by
    have known : frame.known = (type.params.map some).reverse := map_some_freshVars 0 type.params
    rw [Stacks.onto, known]
    rfl
  have types : frame.types = type.params := by
    rw [Frame.types, ← List.map_reverse, List.reverse_reverse, Context.map_type_freshVars]
  have ends : Context.endMatches frame = true ↔ type.params = type.results := by
    rw [Context.endMatches, if_neg Bool.false_ne_true, beq_iff_eq, types]
  rw [opened, leave_onto]
  by_cases same : type.params = type.results
  · rw [if_pos same, if_pos (ends.mpr same)]
  · rw [if_neg same, if_neg (mt ends.mp same)]

end Frame

/-- Control frames are those of the frames, except for their heights. -/
theorem map_controls_ofFrames {β : Type} {f : Control → β} {g : Frame → β}
    (same : ∀ frame height, f (.ofFrame frame height) = g frame) (frames : List Frame) :
    (Stacks.ofFrames frames).controls.map f = frames.map g := by
  induction frames with
  | nil => rfl
  | cons frame outer ih => exact congrArg₂ List.cons (same frame _) ih

end Validation

/-! ## The body -/

namespace Context

variable {c : Context} {name : String} {types : List ValType}

/-- The state of a body, as the validation algorithm sees it. -/
def asStacks (c : Context) : Stacks := .ofFrames c.frames

/-- What the algorithm has below the current frame. -/
def around (c : Context) : Stacks := .ofFrames c.outer

theorem known_without (c : Context) (count : Nat) :
    (c.without count).frame.known = c.frame.known.drop count :=
  c.frame.known_without count

/-- Where a step leads, if it is allowed. -/
def reached {α : Type} (x : Except BuildError (α × Context)) : Option Stacks :=
  x.toOption.map (·.2.asStacks)

/-! ### Taking and leaving operands -/

theorem checkTop_eq_ok {skip : Nat}
    (there : c.frame.unreachable = true ∨ skip ≤ c.frame.values.length) :
    c.checkTop name types skip = .ok () ↔
      offers c.frame.unreachable (c.frame.known.drop skip) types.reverse = true := by
  have enough : (c.frame.unreachable || Bytes.hasAtLeast (skip + types.length) c.frame.values) =
      (c.frame.unreachable ||
        Bytes.hasAtLeast types.reverse.length (c.frame.values.drop skip)) := by
    rw [Bool.eq_iff_iff]
    simp only [Bool.or_eq_true, Bytes.hasAtLeast_iff, List.length_reverse, List.length_drop]
    rcases there with dead | inside
    · simp [dead]
    · rw [Nat.le_sub_iff_add_le' inside]
  rw [Frame.known, ← List.map_drop, offers_known, ← enough, checkTop]
  split <;> simp_all

theorem pop_known : (c.pop name types).toOption =
    if offers c.frame.unreachable c.frame.known types.reverse then some (c.without types.length)
    else none := by
  have allowed : c.checkTop name types 0 = .ok () ↔ _ :=
    checkTop_eq_ok (.inr (Nat.zero_le c.frame.values.length))
  rw [List.drop_zero] at allowed
  rw [pop]
  split
  · rename_i there
    rw [allowed.mpr there]
    rfl
  · rename_i missing
    cases checked : c.checkTop name types 0 with
    | ok _ => exact absurd (allowed.mp checked) missing
    | error e => rfl

theorem popTypes_known (c : Context) (types : List ValType) :
    (c.asStacks.popTypes types).map (·.2) =
      if offers c.frame.unreachable c.frame.known types.reverse then
        some (c.without types.length).asStacks
      else none :=
  popTypes_onto c.frame c.around types

/-- Both take the same operands. -/
theorem popTypes_asStacks (name : String) : (c.asStacks.popTypes types).map (·.2) =
    (c.pop name types).toOption.map (·.asStacks) := by
  rw [pop_known, popTypes_known]
  split <;> rfl

/-- The algorithm does not know the type of an operand that is missing. -/
theorem pop_asStacks (c : Context) : c.asStacks.pop =
    if c.frame.unreachable = true ∨ c.frame.values ≠ [] then
      some (c.peekType 0, (c.without 1).asStacks)
    else none :=
  pop_onto c.frame c.around

theorem asStacks_push (c : Context) (types : List ValType) :
    (c.push types).2.asStacks = c.asStacks.pushTypes types := by
  have pushed : (c.push types).2.frame.known = (types.map some).reverse ++ c.frame.known := by
    rw [Frame.known, ← map_some_freshVars c.varsMade types, Frame.known, ← List.map_append]
    rfl
  show Stacks.onto (c.push types).2.frame c.around = _
  rw [Stacks.onto, pushed, List.append_assoc]
  rfl

theorem asStacks_markUnreachable (c : Context) :
    c.markUnreachable.asStacks = c.asStacks.diverge := by
  show _ = Stacks.diverge ⟨c.frame.known ++ c.around.values, _ :: c.around.controls⟩
  rw [diverge_cons rfl]
  rfl

/-! ### Constructs -/

theorem asStacks_enter (c : Context) (kind : FrameKind) (type : FuncType) :
    (c.enter kind type).2.asStacks = c.asStacks.enter (kind == .loop) type :=
  asStacks_push _ type.params

theorem leave_asStacks (c : Context) :
    c.asStacks.leave = if endMatches c.frame then some c.around else none :=
  leave_onto c.frame c.around

/-- Closing a frame that is not the outermost one. -/
theorem reached_exit (inner : c.outer ≠ []) : reached c.exit = c.asStacks.leave := by
  rw [leave_asStacks, exit, checkEnd]
  split
  · obtain ⟨frame, outer, locals, paramCount, varsMade, labelsMade⟩ := c
    cases outer with
    | nil => exact absurd rfl inner
    | cons parent outer => rfl
  · rfl

theorem reached_switchToElse (c : Context) : reached c.switchToElse =
    c.asStacks.leave.map (·.enter false ⟨c.frame.startTypes, c.frame.endTypes⟩) := by
  rw [leave_asStacks, switchToElse, checkEnd]
  split
  · exact congrArg some (asStacks_push _ c.frame.startTypes)
  · rfl

theorem checkEnd_eq_ok : c.checkEnd = .ok () ↔ c.asStacks.leave.isSome = true := by
  rw [leave_asStacks, checkEnd]
  split <;> simp

/-! ### Branches -/

theorem labelTypes_asStacks (c : Context) (label : UInt32) : c.asStacks.labelTypes label =
    (c.resolveTarget (.depth label)).toOption.map (·.2) := by
  have same (frame : Frame) (height : Nat) :
      (Control.ofFrame frame height).labelTypes = frame.labelTypes :=
    Tracks.labelTypes ⟨rfl, rfl, rfl, rfl⟩
  have labels := map_controls_ofFrames (f := (·.labelTypes)) same c.frames
  rw [Stacks.labelTypes, ← List.getElem?_map]
  show ((Stacks.ofFrames c.frames).controls.map _)[label.toNat]? = _
  rw [labels, List.getElem?_map, resolveTarget]
  cases c.frames[label.toNat]? <;> rfl

theorem returnTypes_asStacks (c : Context) : c.asStacks.returnTypes = some c.returnTypes := by
  have ends := map_controls_ofFrames (f := (·.endTypes)) (g := (·.endTypes)) (fun _ _ => rfl)
    c.frames
  rw [Stacks.returnTypes, ← List.getLast?_map]
  show ((Stacks.ofFrames c.frames).controls.map _).getLast? = _
  rw [ends, List.getLast?_map, frames, List.getLast?_cons]
  rfl

end Context

/-! ### Whole instructions -/

/-- What an effect does to the stacks of the algorithm. -/
def Validation.Stacks.undergo (s : Stacks) (effect : Effect) : Option Stacks :=
  ((s.popTypes effect.params).map (·.2)).map fun s =>
    if effect.diverges then (s.pushTypes effect.results).diverge else s.pushTypes effect.results

namespace Context

variable {c : Context} {d : InstrDef} {argument : Argument}

theorem reached_perform : reached (c.perform d argument) =
    (d.effect c argument).toOption.bind c.asStacks.undergo := by
  rw [perform]
  cases d.effect c argument with
  | error e => rfl
  | ok effect =>
      show reached (c.pop d.name effect.params >>= _) = c.asStacks.undergo effect
      rw [Stacks.undergo, popTypes_asStacks d.name]
      cases c.pop d.name effect.params with
      | error e => rfl
      | ok popped =>
          have pushed : ((popped.push effect.results).2.write (draftOf d effect)).asStacks =
              popped.asStacks.pushTypes effect.results := asStacks_push popped effect.results
          show some _ = some _
          cases effect.diverges with
          | true => exact congrArg some ((asStacks_markUnreachable _).trans (congrArg _ pushed))
          | false => exact congrArg some pushed

theorem reached_conclude : reached (c.conclude d argument) =
    (d.effect c argument).toOption.map (c.asStacks.pushTypes ·.results) := by
  rw [conclude]
  cases d.effect c argument with
  | error e => rfl
  | ok effect => exact congrArg some (asStacks_push c effect.results)

end Context

end Wasm
