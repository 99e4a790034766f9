import Wasm.Proofs.Body.Simulated

/-!
# What holds of the machine wherever a script comes through

The frames on the machine's stack begin no lower than those around them and
within the stack, and the first locals are the parameters. As long as ids have
not started over, those of values increase from the bottom of the stack to its
top and those of labels from the function inwards, all of them used ones. That
is so in every state that a script comes through, at every point inside its
closures and behind calls that failed. With it no difference is negative and no
slice reaches out of what it is cut from.
-/

namespace Wasm

namespace FlatContext

/-- All open frames, outermost first. -/
def frames (m : FlatContext) : List FlatFrame := m.outer.reverse ++ [m.frame]

/-- The state of a body of the given type is well formed. Ids of values are in order as
long as they have not started over, and so are labels. -/
structure Sound (type : FuncType) (m : FlatContext) : Prop where
  heights : (m.frames.map (·.height)).Pairwise (· ≤ ·)
  fits : m.frame.height ≤ m.stack.length
  vars : m.varsMade ≤ 2 ^ 32 → (m.stack.map (·.id)).Pairwise (· < ·)
  varsUsed : m.varsMade ≤ 2 ^ 32 → ∀ v ∈ m.stack, v.id.toNat < m.varsMade
  labels : m.labelsMade ≤ 2 ^ 32 → (m.frames.map (·.label.id)).Pairwise (· < ·)
  labelsUsed : m.labelsMade ≤ 2 ^ 32 → ∀ frame ∈ m.frames, frame.label.id.toNat < m.labelsMade
  paramCount : m.paramCount ≤ m.locals.size
  params : m.locals.toList.take m.paramCount = type.params

/-- Nothing that is looked up or taken away goes wrong. -/
structure Safe (m : FlatContext) : Prop where
  frameTypes : ∃ types, m.frameTypes = some types
  peekType : ∀ depth, ∃ found, m.peekType depth = some found
  checkTop : ∀ name types skip, ∃ result, m.checkTop name types skip = .of result
  pop : ∀ name types, ∃ result, m.pop name types = .of result
  params : ∃ handles, m.params = some handles
  param : ∀ index, ∃ result, m.param index = .of result
  checkEnd : ∃ result, m.checkEnd = .of result
  finish : ∃ result, m.finish.run = some result

theorem Sound.safe {type : FuncType} {m : FlatContext} (h : m.Sound type) : m.Safe where
  frameTypes := ⟨_, frameTypes_eq h.fits⟩
  peekType depth := ⟨_, peekType_eq h.fits depth⟩
  checkTop name types skip := ⟨_, checkTop_eq h.fits name types skip⟩
  pop name types := by
    rw [pop_eq h.fits, checkTop_eq h.fits]
    exact ⟨_, Guarded.of_bind fun _ => rfl⟩
  params := ⟨_, params_eq h.paramCount⟩
  param index := ⟨_, param_eq h.paramCount index⟩
  checkEnd := ⟨_, checkEnd_eq h.fits⟩
  finish := by
    rw [finish_eq h.paramCount, checkEnd_eq h.fits]
    split
    · split <;> exact ⟨_, rfl⟩
    · exact ⟨_, rfl⟩

end FlatContext

namespace Context

variable {type : FuncType} {c c' : Context}

/-- What carries the well-formedness of the machine. -/
structure Regular (type : FuncType) (c : Context) : Prop where
  ordered : c.Ordered
  labels : c.labelsMade ≤ 2 ^ 32 → (c.frames.map (·.label.id)).Pairwise (· > ·)
  labelsUsed : c.labelsMade ≤ 2 ^ 32 → ∀ frame ∈ c.frames, frame.label.id.toNat < c.labelsMade
  paramCount : c.paramCount = type.params.length
  params : type.params <+: c.locals.toList

theorem regular_forFunction (type : FuncType) : (forFunction type).Regular type where
  ordered := Numbered.nil
  labels := fun _ => List.pairwise_singleton _ _
  labelsUsed := by
    intro _ frame member
    obtain rfl := List.mem_singleton.mp member
    exact Nat.zero_lt_one
  paramCount := rfl
  params := List.prefix_rfl

/-- A step between the same frames. -/
theorem Regular.step (h : c.Regular type) (grown : c.Grows c') (renewed : c.Renews c')
    (same : c'.frames.map (·.label.id) = c.frames.map (·.label.id)) : c'.Regular type where
  ordered := renewed.ordered h.ordered
  labels few := same ▸ h.labels (Nat.le_trans grown.labelsMade few)
  labelsUsed := by
    intro few frame member
    have label := List.mem_map_of_mem (f := (·.label.id)) member
    rw [same] at label
    obtain ⟨old, known, id⟩ := List.mem_map.mp label
    have used := h.labelsUsed (Nat.le_trans grown.labelsMade few) old known
    exact id ▸ Nat.lt_of_lt_of_le used grown.labelsMade
  paramCount := grown.paramCount.trans h.paramCount
  params := h.params.trans grown.locals

theorem Continues.regular (h : c.Continues c') (regular : c.Regular type) : c'.Regular type := by
  obtain ⟨drafts, written⟩ := h.frame
  refine regular.step h.grows h.renews ?_
  obtain ⟨values, unreachable, frame⟩ := written.frame
  rw [frames, frames, frame, written.outer]
  rfl

/-- The frame that is opened has the newest label. -/
theorem Regular.enter (h : c.Regular type) (kind : FrameKind) (inner : FuncType) :
    (c.enter kind inner).2.Regular type where
  ordered := (renews_enter c kind inner).ordered h.ordered
  labels := by
    intro few
    have older : c.labelsMade < 2 ^ 32 := few
    refine List.pairwise_cons.mpr ⟨?_, h.labels older.le⟩
    intro id member
    obtain ⟨frame, known, rfl⟩ := List.mem_map.mp member
    have used := h.labelsUsed older.le frame known
    rw [← toNat_nextLabel older] at used
    exact UInt32.lt_iff_toNat_lt.mpr used
  labelsUsed := by
    intro few
    have older : c.labelsMade < 2 ^ 32 := few
    refine List.forall_mem_cons.mpr ⟨?_, fun frame member => ?_⟩
    · exact (toNat_nextLabel older).trans_lt (Nat.lt_succ_self _)
    · exact Nat.lt_succ_of_lt (h.labelsUsed older.le frame member)
  paramCount := h.paramCount
  params := h.params

theorem Regular.switchToElse {drafts : List Draft} (h : c.Regular type)
    (done : c.switchToElse = .ok (drafts, c')) : c'.Regular type := by
  refine h.step (grows_switchToElse done) (renews_switchToElse done) ?_
  obtain ⟨-, -, rfl⟩ := switchToElse_eq_ok.mp done
  rfl

theorem frames_flat (c : Context) : c.flat.frames = (Frame.flatten c.frames).reverse :=
  List.reverse_cons.symm

theorem height_cons (frame : Frame) (outer : List Frame) :
    height (frame :: outer) = frame.values.length + height outer := by
  rw [height, List.flatMap_cons, List.length_append, height]

/-- Frames begin no lower than those around them, which are all of the values below. -/
theorem height_le_of_mem_flatten {frames : List Frame} {frame : FlatFrame}
    (member : frame ∈ Frame.flatten frames) : frame.height ≤ height frames := by
  induction frames with
  | nil => cases member
  | cons first outer ih =>
      rw [height_cons]
      rcases List.mem_cons.mp member with rfl | around
      · exact Nat.le_add_left _ _
      · exact Nat.le_add_left_of_le (ih around)

theorem heights_flatten (frames : List Frame) :
    ((Frame.flatten frames).map (·.height)).Pairwise (· ≥ ·) := by
  induction frames with
  | nil => exact List.Pairwise.nil
  | cons frame outer ih =>
      refine List.pairwise_cons.mpr ⟨fun below member => ?_, ih⟩
      obtain ⟨parent, around, rfl⟩ := List.mem_map.mp member
      exact height_le_of_mem_flatten around

theorem Regular.sound (h : c.Regular type) : c.flat.Sound type where
  heights := by
    rw [frames_flat, List.map_reverse, List.pairwise_reverse]
    exact heights_flatten c.frames
  fits := c.fits_flat
  vars := h.ordered.increasing
  varsUsed few v there := h.ordered.bounded few there
  labels := by
    intro few
    rw [frames_flat, List.map_reverse, List.pairwise_reverse,
      Frame.map_flatten (g := (·.label.id)) fun _ _ => rfl]
    exact h.labels few
  labelsUsed := by
    intro few frame member
    rw [frames_flat, List.mem_reverse] at member
    have label := List.mem_map_of_mem (f := (·.label.id)) member
    rw [Frame.map_flatten (g := (·.label.id)) fun _ _ => rfl] at label
    obtain ⟨own, known, id⟩ := List.mem_map.mp label
    exact id ▸ h.labelsUsed few own known
  paramCount := by
    have longer := h.params.length_le
    rw [← h.paramCount, Array.length_toList] at longer
    exact longer
  params := by
    show c.locals.toList.take c.paramCount = type.params
    rw [h.paramCount]
    exact (List.prefix_iff_eq_take.mp h.params).symm

end Context

/-! ## Points of a run -/

namespace FlatConstruction

variable {σ : Type}

/-- Up to the first instruction inside a construct. -/
def opening (name : String) (types : List ValType) (kind : FrameKind) (type : FuncType) :
    FlatConstruction σ Label := do
  takeOperands name types
  enter kind type

/-- Up to the first instruction of the second arm of a conditional. -/
def openingElse (type : FuncType) (thenBody : Label → FlatConstruction σ Unit) :
    FlatConstruction σ Label := do
  let label ← opening "if" (type.params ++ [.i32]) .thenArm type
  thenBody label
  let _ ← update (·.switchToElse)
  return label

end FlatConstruction

namespace Script

variable {σ α : Type}

open FlatConstruction (opening openingElse)

/-- A run of the script by the machine from the first state comes through the
second one: where it starts, where it ends or fails, between its calls, and
inside the closures of its constructs, whether these end well or not. -/
inductive Visits : {α : Type} → Script σ α → FlatSpace σ → FlatSpace σ → Prop
  | start {α : Type} (script : Script σ α) (m : FlatSpace σ) : Visits script m m
  | finish {α : Type} {script : Script σ α} {m m' : FlatSpace σ} {a : α}
      (done : script.runFlat m = some (.ok a m')) : Visits script m m'
  | failed {α : Type} {script : Script σ α} {m m' : FlatSpace σ} {e : BuildError}
      (refused : script.runFlat m = some (.error e m')) : Visits script m m'
  | first {α β : Type} {act : Script σ α} {next : α → Script σ β} {m m' : FlatSpace σ}
      (inner : Visits act m m') : Visits (.bind act next) m m'
  | second {α β : Type} {act : Script σ α} {next : α → Script σ β} {m m₁ m' : FlatSpace σ}
      {a : α} (done : act.runFlat m = some (.ok a m₁)) (inner : Visits (next a) m₁ m') :
      Visits (.bind act next) m m'
  | attempt {α : Type} {act : Script σ α} {handler : BuildError → Script σ α}
      {m m' : FlatSpace σ} (inner : Visits act m m') : Visits (.tryCatch act handler) m m'
  | handler {α : Type} {act : Script σ α} {handler : BuildError → Script σ α}
      {m m₁ m' : FlatSpace σ} {e : BuildError} (refused : act.runFlat m = some (.error e m₁))
      (inner : Visits (handler e) m₁ m') : Visits (.tryCatch act handler) m m'
  | block {type : FuncType} {body : Label → Script σ Unit} {m m₁ m' : FlatSpace σ}
      {label : Label} (opened : opening "block" type.params .block type m = some (.ok label m₁))
      (inner : Visits (body label) m₁ m') : Visits (.block type body) m m'
  | loop {type : FuncType} {body : Label → Script σ Unit} {m m₁ m' : FlatSpace σ}
      {label : Label} (opened : opening "loop" type.params .loop type m = some (.ok label m₁))
      (inner : Visits (body label) m₁ m') : Visits (.loop type body) m m'
  | ifThen {type : FuncType} {body : Label → Script σ Unit} {m m₁ m' : FlatSpace σ}
      {label : Label}
      (opened : opening "if" (type.params ++ [.i32]) .thenArm type m = some (.ok label m₁))
      (inner : Visits (body label) m₁ m') : Visits (.ifThen type body) m m'
  | thenArm {type : FuncType} {thenBody elseBody : Label → Script σ Unit}
      {m m₁ m' : FlatSpace σ} {label : Label}
      (opened : opening "if" (type.params ++ [.i32]) .thenArm type m = some (.ok label m₁))
      (inner : Visits (thenBody label) m₁ m') : Visits (.ifElse type thenBody elseBody) m m'
  | elseArm {type : FuncType} {thenBody elseBody : Label → Script σ Unit}
      {m m₁ m' : FlatSpace σ} {label : Label}
      (opened : openingElse type (fun label => (thenBody label).runFlat) m = some (.ok label m₁))
      (inner : Visits (elseBody label) m₁ m') : Visits (.ifElse type thenBody elseBody) m m'

end Script

namespace Construction

variable {σ α : Type} {type : FuncType}

namespace Mirrors

variable {act : Construction σ α} {act' : FlatConstruction σ α} {w : Workspace σ}
  {m : FlatSpace σ}

/-- Where the machine gets to, the library gets to as well. -/
theorem of_ok {a : α} (h : Mirrors act act') (declared : w.context.Declared)
    (done : act' w.flat = some (.ok a m)) : ∃ w', act w = .ok a w' ∧ m = w'.flat := by
  rw [h.same w declared] at done
  cases ran : act w with
  | ok b w' =>
      rw [ran] at done
      cases done
      exact ⟨w', rfl, rfl⟩
  | error e w' =>
      rw [ran] at done
      cases done

theorem of_error {e : BuildError} (h : Mirrors act act') (declared : w.context.Declared)
    (refused : act' w.flat = some (.error e m)) : ∃ w', act w = .error e w' ∧ m = w'.flat := by
  rw [h.same w declared] at refused
  cases ran : act w with
  | ok b w' =>
      rw [ran] at refused
      cases refused
  | error e' w' =>
      rw [ran] at refused
      cases refused
      exact ⟨w', rfl, rfl⟩

theorem opening (name : String) (types : List ValType) (kind : FrameKind) (type : FuncType) :
    Mirrors (Construction.opening name types kind type : Construction σ Label)
      (.opening name types kind type) :=
  (takeOperands name types).bind fun _ => enter kind type

theorem openingElse (type : FuncType) {thenBody : Label → Construction σ Unit}
    {thenBody' : Label → FlatConstruction σ Unit}
    (inner : ∀ label, Mirrors (thenBody label) (thenBody' label)) :
    Mirrors (Construction.openingElse type thenBody) (.openingElse type thenBody') :=
  (opening "if" _ .thenArm type).bind fun label => (inner label).bind fun _ =>
    switchToElse.bind fun _ => pure label

end Mirrors

/-- Inside a construct. -/
theorem regular_opening {name : String} {types : List ValType} {kind : FrameKind}
    {inner : FuncType} {label : Label} {w w' : Workspace σ} (regular : w.context.Regular type)
    (opened : opening name types kind inner w = .ok label w') : w'.context.Regular type := by
  obtain ⟨popped, taken, -, rfl⟩ := opening_eq_ok.mp opened
  exact ((Context.continues_pop taken).regular regular).enter kind inner

/-- Inside the second arm of a conditional. -/
theorem regular_openingElse {inner : FuncType} {thenBody : Label → Construction σ Unit}
    {label : Label} {w w' : Workspace σ} (continuing : ∀ label, Continuing (thenBody label))
    (regular : w.context.Regular type) (opened : openingElse inner thenBody w = .ok label w') :
    w'.context.Regular type := by
  obtain ⟨inside, after, drafts, entered, ran, changed⟩ := openingElse_eq_ok.mp opened
  obtain ⟨c, switched, rfl⟩ := update_eq_ok.mp changed
  have behind := (continuing label inside after (.of_ok ran)).regular
    (regular_opening regular entered)
  exact behind.switchToElse switched

end Construction

theorem Context.Regular.declared {type : FuncType} {c : Context} (h : c.Regular type) :
    c.Declared :=
  h.sound.paramCount

namespace Script

variable {σ α : Type} {type : FuncType}

open Construction (Mirrors regular_opening regular_openingElse)

/-- Each point of a run of the machine is a state of the library laid out. -/
theorem Visits.regular {script : Script σ α} {m m' : FlatSpace σ} (visits : script.Visits m m')
    {w : Workspace σ} (same : m = w.flat) (regular : w.context.Regular type) :
    ∃ w' : Workspace σ, m' = w'.flat ∧ w'.context.Regular type := by
  -- By induction on the way to the point, from the state where each part of the run begins.
  induction visits generalizing w with
  | start script m => exact ⟨w, same, regular⟩
  | @finish _ script _ _ _ done =>
      subst same
      obtain ⟨w', ran, rfl⟩ := script.mirrors.of_ok regular.declared done
      exact ⟨w', rfl, (script.continuing w w' (.of_ok ran)).regular regular⟩
  | @failed _ script _ _ _ refused =>
      subst same
      obtain ⟨w', ran, rfl⟩ := script.mirrors.of_error regular.declared refused
      exact ⟨w', rfl, (script.continuing w w' (.inr ⟨_, ran⟩)).regular regular⟩
  | first _ ih => exact ih same regular
  | @second _ _ act _ _ _ _ _ done _ ih =>
      subst same
      obtain ⟨w₁, ran, rfl⟩ := act.mirrors.of_ok regular.declared done
      exact ih rfl ((act.continuing w w₁ (.of_ok ran)).regular regular)
  | attempt _ ih => exact ih same regular
  | @handler _ act _ _ _ _ _ refused _ ih =>
      subst same
      obtain ⟨w₁, ran, rfl⟩ := act.mirrors.of_error regular.declared refused
      exact ih rfl ((act.continuing w w₁ (.inr ⟨_, ran⟩)).regular regular)
  | block opened _ ih | loop opened _ ih | ifThen opened _ ih | thenArm opened _ ih =>
      subst same
      obtain ⟨w₁, entered, rfl⟩ := (Mirrors.opening _ _ _ _).of_ok regular.declared opened
      exact ih rfl (regular_opening regular entered)
  | @elseArm inner thenBody _ _ _ _ _ opened _ ih =>
      subst same
      obtain ⟨w₁, entered, rfl⟩ :=
        (Mirrors.openingElse inner fun label => (thenBody label).mirrors).of_ok
          regular.declared opened
      exact ih rfl (regular_openingElse (fun label => (thenBody label).continuing) regular entered)

/-- The machine runs every script and builds every function without going wrong,
as the library does, and in each state that a run comes through it is sound, so
that nothing there is looked up or taken away where there is nothing. -/
theorem visits_sound (type : FuncType) (client : σ) (build : Script σ Unit) :
    build.runFlat ⟨FlatContext.forFunction type, client⟩ =
        some (flatResult (build.run ⟨Context.forFunction type, client⟩)) ∧
      FuncBody.constructFlat type client build.runFlat =
        some ((FuncBody.construct type client build.run).1.mapError .refused,
          (FuncBody.construct type client build.run).2) ∧
      ∀ m, build.Visits ⟨FlatContext.forFunction type, client⟩ m →
        (∃ w : Workspace σ, m = w.flat) ∧ m.machine.Sound type ∧ m.machine.Safe := by
  have start : (Context.forFunction type).Declared := Context.declared_forFunction type
  refine ⟨build.mirrors.same ⟨Context.forFunction type, client⟩ start,
    build.constructFlat_eq type client, fun m visits => ?_⟩
  obtain ⟨w, rfl, regular⟩ := visits.regular
    (w := ⟨Context.forFunction type, client⟩) rfl (Context.regular_forFunction type)
  exact ⟨⟨w, rfl⟩, regular.sound, regular.sound.safe⟩

/-! ## An example -/

/-- A loop in a block, above a value of the function. The loop takes an operand
that is pushed inside the block, and drops one value more than it has. -/
def loopInBlock : Script Unit Unit :=
  .bind (.instr "i32.const" (.literal (.i32 7)) []) fun _ =>
    .bind (.block ⟨[], []⟩ fun _ =>
      .bind (.instr "i64.const" (.literal (.i64 8)) []) fun _ =>
        .bind (.loop ⟨[.i64], []⟩ fun _ =>
          .bind (.instr "drop" .none []) fun _ =>
            .bind (.instr "drop" .none []) fun _ => .pure ()) fun _ => .pure ()) fun _ =>
      .pure ()

theorem visits_sound_loopInBlock : ∃ m,
    loopInBlock.Visits ⟨FlatContext.forFunction ⟨[], []⟩, ()⟩ m ∧
      m.machine.frames.map (·.height) = [0, 1, 1] ∧ m.machine.stack.map (·.id) = [0, 2] ∧
      m.machine.frames.map (·.label.id) = [0, 1, 2] ∧ m.machine.Sound ⟨[], []⟩ ∧
      m.machine.Safe := by
  have visits : ∃ m, loopInBlock.Visits ⟨FlatContext.forFunction ⟨[], []⟩, ()⟩ m ∧
      m.machine.frames.map (·.height) = [0, 1, 1] ∧ m.machine.stack.map (·.id) = [0, 2] ∧
      m.machine.frames.map (·.label.id) = [0, 1, 2] :=
    ⟨_, .second rfl (.first (.block rfl (.second rfl (.first (.loop rfl (.start _ _)))))),
      rfl, rfl, rfl⟩
  obtain ⟨m, visited, heights, vars, labels⟩ := visits
  have sound := (visits_sound ⟨[], []⟩ () loopInBlock).2.2 m visited
  exact ⟨m, visited, heights, vars, labels, sound.2⟩

end Script

end Wasm
