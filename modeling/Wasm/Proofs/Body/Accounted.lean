import Mathlib.Data.List.Perm.Subperm
import Wasm.Proofs.Body.Branches
import Wasm.Proofs.Body.Covered

/-!
# All labels are accounted for

The invariant behind the meaning of labels. It ties each frame to its level, and
each label that was handed out to the one construct that was given it, be that
open or not. It is shown of the start and of one step, and so holds of every
session in which labels have not started over.
-/

namespace Wasm

open Context (draftOf)

/-! ## Frames and levels -/

/-- The frame is that of the level, and the notes are those of what was written
in it inside the constructs of `scope`. -/
structure Level.Fits (scope : List Label) (level : Level) (frame : Frame) : Prop where
  label : frame.label = level.label
  kind : frame.kind = level.stage.kind
  types : frame.labelTypes = level.opened.labelTypes
  notes : Note.AllRecord scope level.notes frame.body
  first : ∀ notes drafts, level.stage = .elseArm notes drafts → Note.AllRecord scope notes drafts

/-- The labels of levels, innermost first. -/
def Level.scope (levels : List Level) : List Label := levels.map (·.label)

namespace Session

/-- Frames and levels belong together one by one, and so do the frames that a
construct would go back to. -/
def Tally : List Frame → List Level → Prop
  | [], [] => True
  | frame :: frames, level :: levels => level.Fits (Level.scope (level :: levels)) frame ∧
      Tally frames levels ∧ (levels ≠ [] → Tally level.before.frames levels)
  | _, _ => False

namespace Tally

variable {c c' : Context} {frames : List Frame} {level parent : Level} {levels rest : List Level}

theorem scope_eq (h : Tally frames levels) : frames.map (·.label) = Level.scope levels := by
  induction levels generalizing frames with
  | nil =>
      cases frames with
      | nil => rfl
      | cons frame frames => exact h.elim
  | cons level levels ih =>
      cases frames with
      | nil => exact h.elim
      | cons frame frames =>
          obtain ⟨fits, inner, -⟩ := h
          exact congrArg₂ List.cons fits.label (ih inner)

theorem length_eq (h : Tally frames levels) : frames.length = levels.length := by
  have same := congrArg List.length h.scope_eq
  rwa [List.length_map, Level.scope, List.length_map] at same

/-- Frames fit in the scope of the levels from theirs outwards. -/
theorem fits {i : Nat} {frame : Frame} (h : Tally frames levels)
    (there : levels[i]? = some level) (found : frames[i]? = some frame) :
    level.Fits ((Level.scope levels).drop i) frame := by
  induction levels generalizing frames i with
  | nil => cases there
  | cons first levels ih =>
      cases frames with
      | nil => exact h.elim
      | cons frame' frames =>
          obtain ⟨fits, inner, -⟩ := h
          cases i with
          | zero =>
              cases there
              cases found
              exact fits
          | succ i => exact ih inner there found

/-- More is written in the current frame. -/
theorem extend {drafts : List Draft} {notes : List Note} (h : Tally c.frames (level :: rest))
    (step : c.Extends drafts c')
    (recorded : Note.AllRecord (Level.scope (level :: rest)) notes drafts) :
    Tally c'.frames (level.add notes :: rest) := by
  obtain ⟨fits, inner, back⟩ := h
  obtain ⟨values, unreachable, frame⟩ := step.frame
  refine ⟨?_, step.outer ▸ inner, back⟩
  rw [frame]
  constructor
  case label => exact fits.label
  case kind => exact fits.kind
  case types => exact fits.types
  case first => exact fits.first
  case notes =>
    have body : ({ c.frame with values, unreachable, written := drafts.reverse ++ c.frame.written }
        : Frame).body = c.frame.body ++ drafts := by
      simp [Frame.body]
    rw [body]
    exact Note.allRecord_append fits.notes recorded

/-- Nothing is written in the current frame. -/
theorem unwritten (h : Tally c.frames (level :: rest)) (step : c.Extends [] c') :
    Tally c'.frames (level :: rest) := by
  have nothing : Note.AllRecord (Level.scope (level :: rest)) [] [] := rfl
  have same := h.extend step nothing
  rwa [Level.add_nil] at same

/-- A construct begins in a frame of its own. -/
theorem enter {popped : Context} {stage : Stage} {type : FuncType} {name : String}
    {types : List ValType} (h : Tally c.frames levels) (begins : stage.Begins)
    (taken : c.pop name types = .ok popped) :
    Tally (popped.enter stage.kind type).2.frames
      (⟨(popped.enter stage.kind type).1, stage, type, [], c⟩ :: levels) := by
  cases levels with
  | nil => exact h.elim
  | cons level rest =>
      have around : Tally popped.frames (level :: rest) := h.unwritten (Context.extends_pop taken)
      refine ⟨?_, around, fun _ => h⟩
      constructor
      case label => rfl
      case kind => rfl
      case types => rcases begins with rfl | rfl | rfl <;> rfl
      case notes => rfl
      case first => rcases begins with rfl | rfl | rfl <;> exact nofun

/-- The second arm of a conditional begins, with the first one behind it. -/
theorem switch {drafts : List Draft} (h : Tally c.frames (level :: rest))
    (first : level.stage = .thenArm) (done : c.switchToElse = .ok (drafts, c')) :
    Tally c'.frames ({ level with stage := .elseArm level.notes drafts, notes := [] } :: rest) := by
  obtain ⟨fits, inner, back⟩ := h
  obtain ⟨-, rfl, rfl⟩ := Context.switchToElse_eq_ok.mp done
  refine ⟨?_, inner, back⟩
  constructor
  case label => exact fits.label
  case kind => rfl
  case types =>
    have types := fits.types
    simp only [Frame.labelTypes, fits.kind, Opened.labelTypes, Level.opened, first] at types
    exact types
  case notes => rfl
  case first =>
    intro notes drafts same
    cases same
    exact fits.notes

/-- A construct that ended is a draft of its note. -/
theorem records_note {d : InstrDef} {effect : Effect} {frame : Frame} {scope : List Label}
    (fits : level.Fits (level.label :: scope) frame)
    (found : InstrSet.standard.named level.stage.name = .ok d)
    (allowed : d.effect c (level.argument frame.body) = .ok effect) :
    level.note.Records scope (draftOf d effect) := by
  obtain ⟨label, stage, type, notes, before⟩ := level
  cases stage with
  | function | block | loop => exact ⟨d, c, effect, _, found, fits.notes, allowed, rfl⟩
  | thenArm => exact ⟨d, c, effect, _, found, fits.notes, allowed, rfl⟩
  | elseArm first drafts =>
      exact ⟨d, c, effect, _, _, found, fits.first first drafts rfl, fits.notes, allowed, rfl⟩

/-- A construct ends and is written in the frame around it. -/
theorem close {closed : Context} {d : InstrDef} {drafts : List Draft} {vars : List StackVar}
    (h : Tally c.frames (level :: parent :: rest))
    (found : InstrSet.standard.named level.stage.name = .ok d)
    (left : c.exit = .ok (drafts, closed))
    (done : closed.conclude d (level.argument drafts) = .ok (vars, c')) :
    Tally c'.frames (parent.add [level.note] :: rest) := by
  obtain ⟨fits, inner, -⟩ := h
  obtain ⟨-, rfl, frame, outer, around, same⟩ := Context.exit_eq_ok.mp left
  have inner' : Tally closed.frames (parent :: rest) := by
    rw [around] at inner
    rw [same]
    exact inner
  obtain ⟨effect, allowed, written⟩ := Context.extends_conclude done
  exact inner'.extend written (Note.allRecord_single (records_note fits found allowed))

/-- A construct is undone. -/
theorem abort (h : Tally c.frames (level :: parent :: rest)) :
    Tally (c.rollbackTo level.before).frames (parent :: rest) :=
  h.2.2 (List.cons_ne_nil _ _)

end Tally

/-! ## All labels that were handed out -/

/-- Each label that was handed out is that of one open construct or is gone,
and the labels of all constructs that were kept are different ones. -/
structure Accounted (levels : List Level) (gone : List Label) (next : Nat) : Prop where
  distinct : (levels.flatMap (·.note.labels)).Nodup
  ended : ∀ level ∈ levels, ∀ l ∈ level.note.labels, l = level.label ∨ l ∈ gone
  parted : ∀ level ∈ levels, level.label ∉ gone
  given : ∀ l, l.id.toNat < next ↔ l ∈ gone ∨ l ∈ Level.scope levels

theorem label_mem_labels (level : Level) : level.label ∈ level.note.labels := by
  rw [Level.note]
  cases level.stage <;> exact List.mem_cons_self

theorem scope_sublist (levels : List Level) :
    (Level.scope levels).Sublist (levels.flatMap (·.note.labels)) := by
  induction levels with
  | nil => exact List.Sublist.slnil
  | cons level rest ih =>
      rw [List.flatMap_cons]
      exact (List.singleton_sublist.mpr (label_mem_labels level)).append ih

theorem labels_add (level : Level) (notes : List Note) :
    (level.add notes).note.labels = level.note.labels ++ Note.allLabels notes := by
  rw [Level.note, Level.note, Level.add]
  cases level.stage <;> simp [Note.labels]

namespace Accounted

variable {level : Level} {levels rest : List Level} {gone : List Label} {next : Nat}

theorem start (type : FuncType) :
    Accounted (Session.start type).levels (Session.start type).gone 1 where
  distinct := List.nodup_singleton _
  ended := by
    intro level member l inside
    cases List.mem_singleton.mp member
    exact .inl (List.mem_singleton.mp inside)
  parted := by
    intro level member
    exact List.not_mem_nil
  given := by
    rintro ⟨id⟩
    simp [Session.start, Level.scope, ← UInt32.toNat_inj]

/-- The label that is handed out next is none of those before. -/
theorem enter (h : Accounted levels gone next) (label : level.label.id.toNat = next)
    (bare : level.note.labels = [level.label]) : Accounted (level :: levels) gone (next + 1) := by
  have fresh : ∀ l, l ∈ gone ∨ l ∈ Level.scope levels → l ≠ level.label := by
    rintro l known rfl
    have older := (h.given _).mpr known
    exact Nat.lt_irrefl _ (label ▸ older)
  constructor
  case distinct =>
    rw [List.flatMap_cons, bare, List.singleton_append, List.nodup_cons]
    refine ⟨fun member => ?_, h.distinct⟩
    obtain ⟨other, there, inside⟩ := List.mem_flatMap.mp member
    rcases h.ended other there _ inside with same | ended
    · exact fresh other.label (.inr (List.mem_map_of_mem there)) same.symm
    · exact fresh _ (.inl ended) rfl
  case ended =>
    refine List.forall_mem_cons.mpr ⟨fun l inside => ?_, h.ended⟩
    rw [bare] at inside
    exact .inl (List.mem_singleton.mp inside)
  case parted =>
    exact List.forall_mem_cons.mpr ⟨fun ended => fresh _ (.inl ended) rfl, h.parted⟩
  case given =>
    intro l
    have newest : l.id.toNat = next ↔ l = level.label := by
      rw [← label, UInt32.toNat_inj]
      exact (Label.mk.injEq l.id level.label.id).symm.to_iff
    rw [Nat.lt_succ_iff_lt_or_eq, h.given, newest, Level.scope, Level.scope, List.map_cons,
      List.mem_cons]
    exact or_assoc.trans (or_congr_right or_comm)

/-- Constructs of which nothing is left but their labels, which are gone. -/
theorem add (h : Accounted (level :: rest) gone next) {notes : List Note}
    (distinct : (Note.allLabels notes ++ (level :: rest).flatMap (·.note.labels)).Nodup)
    (ended : ∀ l ∈ Note.allLabels notes, l ∈ gone) :
    Accounted (level.add notes :: rest) gone next := by
  constructor
  case distinct =>
    rw [List.flatMap_cons, labels_add, List.append_assoc]
    rw [List.flatMap_cons] at distinct
    refine (List.Perm.nodup_iff ?_).mp distinct
    rw [← List.append_assoc, ← List.append_assoc]
    exact List.Perm.append_right _ List.perm_append_comm
  case ended =>
    obtain ⟨own, others⟩ := List.forall_mem_cons.mp h.ended
    refine List.forall_mem_cons.mpr ⟨fun l inside => ?_, others⟩
    rw [labels_add] at inside
    rcases List.mem_append.mp inside with before | added
    · exact own l before
    · exact .inr (ended l added)
  case parted => exact List.forall_mem_cons.mpr (List.forall_mem_cons.mp h.parted)
  case given => exact h.given

/-- A construct that goes on with the same labels. -/
theorem congr {level' : Level} (h : Accounted (level :: rest) gone next)
    (label : level'.label = level.label) (labels : level'.note.labels = level.note.labels) :
    Accounted (level' :: rest) gone next := by
  constructor
  case distinct =>
    have distinct := h.distinct
    rwa [List.flatMap_cons, ← labels] at distinct
  case ended =>
    obtain ⟨own, others⟩ := List.forall_mem_cons.mp h.ended
    refine List.forall_mem_cons.mpr ⟨?_, others⟩
    rwa [labels, label]
  case parted =>
    obtain ⟨own, others⟩ := List.forall_mem_cons.mp h.parted
    refine List.forall_mem_cons.mpr ⟨?_, others⟩
    rwa [label]
  case given =>
    have given := h.given
    rwa [Level.scope, List.map_cons, ← label] at given

/-- The innermost construct is no longer open. -/
theorem leave (h : Accounted (level :: rest) gone next) :
    Accounted rest (level.label :: gone) next := by
  have distinct := h.distinct
  rw [List.flatMap_cons] at distinct
  constructor
  case distinct => exact (List.nodup_append.mp distinct).2.1
  case ended =>
    intro other member l inside
    rcases h.ended other (List.mem_cons_of_mem _ member) l inside with same | ended
    · exact .inl same
    · exact .inr (List.mem_cons_of_mem _ ended)
  case parted =>
    intro other member ended
    rcases List.mem_cons.mp ended with same | before
    · have there : other.label ∈ rest.flatMap (·.note.labels) :=
        List.mem_flatMap.mpr ⟨other, member, label_mem_labels other⟩
      exact (List.nodup_append.mp distinct).2.2 _ (label_mem_labels level) _ there same.symm
    · exact h.parted other (List.mem_cons_of_mem _ member) before
  case given =>
    intro l
    rw [h.given, Level.scope, List.map_cons, List.mem_cons, List.mem_cons, or_assoc, or_left_comm]
    rfl

/-- It is kept in the construct around it. -/
theorem close {parent : Level} (h : Accounted (level :: parent :: rest) gone next) :
    Accounted (parent.add [level.note] :: rest) (level.label :: gone) next := by
  have labels : Note.allLabels [level.note] = level.note.labels := by
    rw [Note.allLabels, Note.allLabels, List.append_nil]
  refine h.leave.add ?_ ?_ <;> rw [labels]
  · exact h.distinct
  · intro l inside
    rcases h.ended level List.mem_cons_self l inside with same | ended
    · exact same ▸ List.mem_cons_self
    · exact List.mem_cons_of_mem _ ended

/-- There are no more open constructs than labels. -/
theorem length_scope_le (h : Accounted levels gone next) : (Level.scope levels).length ≤ next := by
  have distinct : (Level.scope levels).Nodup := h.distinct.sublist (scope_sublist levels)
  have ids : ((Level.scope levels).map (·.id.toNat)).Nodup :=
    distinct.map fun l l' same => congrArg Label.mk (UInt32.toNat_inj.mp same)
  have below : (Level.scope levels).map (·.id.toNat) ⊆ List.range next := by
    intro id member
    obtain ⟨l, isOpen, rfl⟩ := List.mem_map.mp member
    exact List.mem_range.mpr ((h.given l).mpr (.inr isOpen))
  have fewer := (List.subperm_of_subset ids below).length_le
  rwa [List.length_map, List.length_range] at fewer

end Accounted

/-! ## The invariant -/

structure Sound (s : Session) : Prop where
  tally : Tally s.context.frames s.levels
  accounted : Accounted s.levels s.gone s.context.labelsMade

theorem sound_start (type : FuncType) : (start type).Sound where
  tally := by
    refine ⟨?_, trivial, fun inner => absurd rfl inner⟩
    constructor <;> first | rfl | exact nofun
  accounted := Accounted.start type

/-- No step gives a label back. -/
theorem Step.labelsMade {s s' : Session} (step : Step s s') :
    s.context.labelsMade ≤ s'.context.labelsMade := by
  cases step with
  | quiet undone same => exact same.ge
  | instr found plain done => exact (Context.labelsMade_perform done).ge
  | enter stage begins taken =>
      obtain ⟨-, rfl⟩ := Context.pop_eq_ok.mp taken
      exact Nat.le_succ _
  | switch first done => exact (Context.grows_switchToElse done).labelsMade
  | close found left done =>
      exact (Context.grows_exit left).labelsMade.trans (Context.labelsMade_conclude done).ge
  | abort => exact Nat.le_refl _

/-- One step keeps the invariant, if labels have not started over. -/
theorem Step.sound {s s' : Session} (step : Step s s') (few : s'.context.labelsMade ≤ 2 ^ 32)
    (h : s.Sound) : s'.Sound := by
  obtain ⟨tally, accounted⟩ := h
  cases step with
  | quiet undone same =>
      constructor
      case tally =>
        rw [Context.frames, undone.frame, undone.outer]
        exact tally
      case accounted => exact same ▸ accounted
  | instr found plain done =>
      obtain ⟨effect, allowed, written⟩ := Context.extends_perform done
      rw [Context.labelsMade_perform done] at few
      have short := accounted.length_scope_le.trans few
      constructor
      case tally =>
        exact tally.extend written
          (Note.allRecord_single ⟨short, _, _, effect, found, tally.scope_eq, allowed, rfl⟩)
      case accounted =>
        rw [Context.labelsMade_perform done]
        exact accounted.add accounted.distinct (List.forall_mem_nil _)
  | enter stage begins taken =>
      obtain ⟨-, rfl⟩ := Context.pop_eq_ok.mp taken
      constructor
      case tally => exact tally.enter begins taken
      case accounted =>
        refine accounted.enter (Context.toNat_nextLabel few) ?_
        rcases begins with rfl | rfl | rfl <;> rfl
  | switch first done =>
      constructor
      case tally => exact tally.switch first done
      case accounted =>
        obtain ⟨-, -, rfl⟩ := Context.switchToElse_eq_ok.mp done
        refine accounted.congr rfl ?_
        simp only [Level.note, first, Note.labels, Note.allLabels, List.append_nil]
  | close found left done =>
      constructor
      case tally => exact tally.close found left done
      case accounted =>
        obtain ⟨-, -, frame, outer, -, rfl⟩ := Context.exit_eq_ok.mp left
        rw [Context.labelsMade_conclude done]
        exact accounted.close
  | abort =>
      constructor
      case tally => exact tally.abort
      case accounted => exact accounted.leave

theorem Reached.sound {type : FuncType} {s : Session} (h : Reached type s)
    (few : s.context.labelsMade ≤ 2 ^ 32) : s.Sound := by
  induction h with
  | refl => exact sound_start type
  | tail _ step ih => exact step.sound few (ih (step.labelsMade.trans few))

end Session

end Wasm
