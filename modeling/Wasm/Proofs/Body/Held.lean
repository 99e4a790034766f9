import Wasm.Proofs.Body.Directly
import Wasm.Proofs.Body.Upright

/-!
# The code that a body holds

Each draft that a script records was allowed by a typing rule, and so were those
in its bodies, at any depth: a construct captures what was recorded inside it.
Only where a script writes an instruction of any definition does it bring bodies
of its own, and then these have to be code that was recorded somewhere. So it is
with all code that is held in the frames, in every state that a run comes through.
-/

namespace Wasm

namespace Context

variable {c c' : Context}

/-- All code in the frames of the body was written. -/
def AllWritten (c : Context) : Prop :=
  ∀ frame ∈ c.frames, ∀ draft ∈ frame.written, draft.Written

theorem allWritten_forFunction (type : FuncType) : (forFunction type).AllWritten := by
  intro frame member draft recorded
  obtain rfl := List.mem_singleton.mp member
  cases recorded

namespace AllWritten

theorem extend {drafts : List Draft} (h : c.AllWritten) (extended : c.Extends drafts c')
    (written : ∀ draft ∈ drafts, draft.Written) : c'.AllWritten := by
  obtain ⟨current, around⟩ := List.forall_mem_cons.mp h
  obtain ⟨values, unreachable, frame⟩ := extended.frame
  refine List.forall_mem_cons.mpr ⟨?_, extended.outer ▸ around⟩
  intro draft recorded
  rw [frame] at recorded
  rcases List.mem_append.mp recorded with new | old
  · exact written draft (List.mem_reverse.mp new)
  · exact current draft old

theorem undone (h : c.AllWritten) (same : c.Undone c') : c'.AllWritten :=
  h.extend same.extends (List.forall_mem_nil _)

theorem pop {name : String} {types : List ValType} (h : c.AllWritten)
    (taken : c.pop name types = .ok c') : c'.AllWritten :=
  h.extend (extends_pop taken) (List.forall_mem_nil _)

theorem perform {d : InstrDef} {argument : Argument} {vars : List StackVar} (h : c.AllWritten)
    (bodies : ∀ draft ∈ argument.bodies, draft.Written)
    (done : c.perform d argument = .ok (vars, c')) : c'.AllWritten := by
  obtain ⟨effect, allowed, extended⟩ := extends_perform done
  exact h.extend extended (List.forall_mem_singleton.mpr (.intro bodies allowed))

theorem conclude {d : InstrDef} {argument : Argument} {vars : List StackVar} (h : c.AllWritten)
    (bodies : ∀ draft ∈ argument.bodies, draft.Written)
    (done : c.conclude d argument = .ok (vars, c')) : c'.AllWritten := by
  obtain ⟨effect, allowed, extended⟩ := extends_conclude done
  exact h.extend extended (List.forall_mem_singleton.mpr (.intro bodies allowed))

/-- A frame is opened without code. -/
theorem enter (h : c.AllWritten) (kind : FrameKind) (type : FuncType) :
    (c.enter kind type).2.AllWritten :=
  List.forall_mem_cons.mpr ⟨List.forall_mem_nil _, h⟩

theorem body (h : c.AllWritten) : ∀ draft ∈ c.frame.body, draft.Written :=
  fun draft recorded => h c.frame List.mem_cons_self draft (List.mem_reverse.mp recorded)

/-- What is taken out of a frame that is closed was written, and so is what stays. -/
theorem exit {drafts : List Draft} (h : c.AllWritten) (left : c.exit = .ok (drafts, c')) :
    (∀ draft ∈ drafts, draft.Written) ∧ c'.AllWritten := by
  obtain ⟨-, rfl, parent, outer, around, rfl⟩ := exit_eq_ok.mp left
  refine ⟨h.body, fun frame member => h frame (List.mem_cons_of_mem _ ?_)⟩
  rw [around]
  exact member

theorem switchToElse {drafts : List Draft} (h : c.AllWritten)
    (changed : c.switchToElse = .ok (drafts, c')) :
    (∀ draft ∈ drafts, draft.Written) ∧ c'.AllWritten := by
  obtain ⟨-, rfl, rfl⟩ := switchToElse_eq_ok.mp changed
  exact ⟨h.body, List.forall_mem_cons.mpr ⟨List.forall_mem_nil _, (List.forall_mem_cons.mp h).2⟩⟩

end AllWritten

end Context

/-! ## Constructions -/

/-- No other code comes in. -/
def Context.KeepsWritten (c c' : Context) : Prop := c.AllWritten → c'.AllWritten

namespace Construction

variable {σ : Type}

open Context (KeepsWritten)

/-- Calls in a row keep to written code. -/
theorem traces_keepsWritten : Traces fun _ c c' => c.KeepsWritten c' where
  nothing _ := id
  append first second := second ∘ first
  perform := by
    intro name d argument vars c c' found plain performed h
    obtain ⟨effect, allowed, -⟩ := Context.extends_perform performed
    have coherent := InstrSet.standard_coherent d (InstrSet.mem_of_named found).1
    refine h.perform ?_ performed
    rw [coherent.bodies_of_plain plain allowed]
    exact List.forall_mem_nil _

theorem keepsWritten_instr (name : String) (argument : Argument) (operands : List Operand) :
    Along KeepsWritten (instr (σ := σ) name argument operands) := by
  rintro w w' (⟨vars, done⟩ | ⟨e, failed⟩) h
  · exact traces_keepsWritten.instr done h
  · exact h.undone (undone_of_instr_error failed)

theorem keepsWritten_perform (d : InstrDef) {argument : Argument}
    (bodies : ∀ draft ∈ argument.bodies, draft.Written) :
    Along KeepsWritten (perform (σ := σ) d argument) := by
  rintro w w' (⟨vars, done⟩ | ⟨e, failed⟩) h
  · obtain ⟨c, performed, rfl⟩ := update_eq_ok.mp done
    exact h.perform bodies performed
  · rw [(update_eq_error.mp failed).2]
    exact h

theorem keepsWritten_addLocal (type : ValType) :
    Along KeepsWritten (addLocal (σ := σ) type) := by
  rintro w w' (⟨_, same⟩ | ⟨_, same⟩) h <;> cases same
  exact h.undone (Context.undone_addLocal _ _)

theorem allWritten_opening {name : String} {types : List ValType} {kind : FrameKind}
    {type : FuncType} {label : Label} {w w' : Workspace σ} (h : w.context.AllWritten)
    (opened : opening name types kind type w = .ok label w') : w'.context.AllWritten := by
  obtain ⟨popped, taken, -, rfl⟩ := opening_eq_ok.mp opened
  exact (h.pop taken).enter kind type

/-- A construct captures the code of its last arm, among others. -/
theorem allWritten_closing {d : InstrDef} {argument : Argument} {drafts : List Draft}
    {vars : List StackVar} {w closed w' : Workspace σ} (h : w.context.AllWritten)
    (left : update (·.exit) w = .ok drafts closed)
    (concluded : conclude d argument closed = .ok vars w')
    (bodies : (∀ draft ∈ drafts, draft.Written) → ∀ draft ∈ argument.bodies, draft.Written) :
    w'.context.AllWritten := by
  obtain ⟨c, exited, rfl⟩ := update_eq_ok.mp left
  obtain ⟨c', done, rfl⟩ := update_eq_ok.mp concluded
  obtain ⟨written, kept⟩ := h.exit exited
  exact kept.conclude (bodies written) done

end Construction

namespace Script

variable {σ α : Type} {type : FuncType}

open Construction
open EStateM (Leaves leaves_bind leaves_tryCatch)

/-- Where the script, run from `w`, writes an instruction of any definition, the
bodies that it hands over are made of written drafts. -/
def OnlyWritten : {α : Type} → Script σ α → Workspace σ → Prop
  | _, .pure _, _ | _, .throw _, _ | _, .client _, _ | _, .inspect _, _ | _, .addLocal _, _
  | _, .instr .., _ => True
  | _, .perform _ argument, _ => ∀ draft ∈ argument.bodies, draft.Written
  | _, .bind first next, w => first.OnlyWritten w ∧
      ∀ a w', first.run w = .ok a w' → (next a).OnlyWritten w'
  | _, .tryCatch attempt handler, w => attempt.OnlyWritten w ∧
      ∀ e w', attempt.run w = .error e w' → (handler e).OnlyWritten w'
  | _, .block type body, w => ∀ label inner,
      opening "block" type.params .block type w = .ok label inner → (body label).OnlyWritten inner
  | _, .loop type body, w => ∀ label inner,
      opening "loop" type.params .loop type w = .ok label inner → (body label).OnlyWritten inner
  | _, .ifThen type body, w => ∀ label inner,
      opening "if" (type.params ++ [.i32]) .thenArm type w = .ok label inner →
        (body label).OnlyWritten inner
  | _, .ifElse type thenBody elseBody, w =>
      (∀ label inner, opening "if" (type.params ++ [.i32]) .thenArm type w = .ok label inner →
        (thenBody label).OnlyWritten inner) ∧
      ∀ label switched, openingElse type (fun label => (thenBody label).run) w =
        .ok label switched → (elseBody label).OnlyWritten switched

/-- However a run ends, all code that is held then was written. -/
theorem OnlyWritten.keeps {script : Script σ α} {w w' : Workspace σ} (only : script.OnlyWritten w)
    (left : Leaves script.run w w') : w.context.KeepsWritten w'.context := by
  have refl : ∀ c : Context, c.KeepsWritten c := fun _ => id
  induction script generalizing w w' with
  | pure a => exact Along.pure refl a w w' left
  | throw e => exact Along.throw refl e w w' left
  | bind first next ihFirst ihNext =>
      rcases leaves_bind.mp left with ⟨e, failed⟩ | ⟨a, w₁, done, rest⟩
      · exact ihFirst only.1 (.inr ⟨e, failed⟩)
      · exact ihNext a (only.2 a w₁ done) rest ∘ ihFirst only.1 (.of_ok done)
  | tryCatch attempt handler ihAttempt ihHandler =>
      rcases leaves_tryCatch.mp left with ⟨a, done⟩ | ⟨e, w₁, failed, rest⟩
      · exact ihAttempt only.1 (.of_ok done)
      · exact ihHandler e (only.2 e w₁ failed) rest ∘ ihAttempt only.1 (.inr ⟨e, failed⟩)
  | client step => exact Along.client refl step w w' left
  | inspect query => exact Along.inspect refl query.ask w w' left
  | addLocal type => exact keepsWritten_addLocal type w w' left
  | perform d argument => exact keepsWritten_perform d only w w' left
  | instr name argument operands => exact keepsWritten_instr name argument operands w w' left
  | block type body ih | loop type body ih =>
      intro h
      rcases left with ⟨vars, done⟩ | ⟨e, failed⟩
      · obtain ⟨d, label, inner, after, drafts, closed, -, opened, ran, exited, concluded⟩ :=
          structured_eq_ok.mp done
        have inside := ih label (only label inner opened) (.of_ok ran) (allWritten_opening h opened)
        exact allWritten_closing inside exited concluded id
      · exact h.undone
          (undone_of_structured_error (fun label => (body label).continuing.monotone) failed)
  | ifThen type body ih =>
      intro h
      rcases left with ⟨vars, done⟩ | ⟨e, failed⟩
      · obtain ⟨-, d, label, inner, after, drafts, closed, -, opened, ran, exited, concluded⟩ :=
          ifThen_eq_ok.mp done
        have inside := ih label (only label inner opened) (.of_ok ran) (allWritten_opening h opened)
        exact allWritten_closing inside exited concluded id
      · exact h.undone
          (undone_of_ifThen_error (fun label => (body label).continuing.monotone) failed)
  | ifElse type thenBody elseBody ihThen ihElse =>
      intro h
      rcases left with ⟨vars, done⟩ | ⟨e, failed⟩
      · obtain ⟨d, label, inner, after, drafts, switched, last, elseDrafts, closed, -, opened, ran,
          changed, ranElse, exited, concluded⟩ := ifElse_eq_ok.mp done
        have entered : openingElse type (fun label => (thenBody label).run) w =
            .ok label switched :=
          openingElse_eq_ok.mpr ⟨inner, after, drafts, opened, ran, changed⟩
        have inside := ihThen label (only.1 label inner opened) (.of_ok ran)
          (allWritten_opening h opened)
        obtain ⟨c, switched', rfl⟩ := update_eq_ok.mp changed
        obtain ⟨written, second⟩ := inside.switchToElse switched'
        have insideElse := ihElse label (only.2 label _ entered) (.of_ok ranElse) second
        exact allWritten_closing insideElse exited concluded fun others =>
          List.forall_mem_append.mpr ⟨written, others⟩
      · exact h.undone (undone_of_ifElse_error
          (fun label => (thenBody label).continuing.monotone)
          (fun label => (elseBody label).continuing.monotone) failed)

/-- Each point of a run of the machine is a state of the library laid out, which
holds written code only. -/
theorem Visits.allWritten {script : Script σ α} {m m' : FlatSpace σ} (visits : script.Visits m m')
    {w : Workspace σ} (same : m = w.flat) (regular : w.context.Regular type)
    (only : script.OnlyWritten w) (h : w.context.AllWritten) :
    ∃ w' : Workspace σ, m' = w'.flat ∧ w'.context.AllWritten := by
  -- By induction on the way to the point, from the state where each part of the run begins.
  induction visits generalizing w with
  | start script m => exact ⟨w, same, h⟩
  | @finish _ script _ _ _ done =>
      subst same
      obtain ⟨w', ran, rfl⟩ := script.mirrors.of_ok regular.declared done
      exact ⟨w', rfl, only.keeps (.of_ok ran) h⟩
  | @failed _ script _ _ _ refused =>
      subst same
      obtain ⟨w', ran, rfl⟩ := script.mirrors.of_error regular.declared refused
      exact ⟨w', rfl, only.keeps (.inr ⟨_, ran⟩) h⟩
  | first _ ih => exact ih same regular only.1 h
  | @second _ _ act _ _ _ _ _ done _ ih =>
      subst same
      obtain ⟨w₁, ran, rfl⟩ := act.mirrors.of_ok regular.declared done
      exact ih rfl ((act.continuing w w₁ (.of_ok ran)).regular regular) (only.2 _ w₁ ran)
        (only.1.keeps (.of_ok ran) h)
  | attempt _ ih => exact ih same regular only.1 h
  | @handler _ act _ _ _ _ _ refused _ ih =>
      subst same
      obtain ⟨w₁, ran, rfl⟩ := act.mirrors.of_error regular.declared refused
      exact ih rfl ((act.continuing w w₁ (.inr ⟨_, ran⟩)).regular regular) (only.2 _ w₁ ran)
        (only.1.keeps (.inr ⟨_, ran⟩) h)
  | block opened _ ih | loop opened _ ih | ifThen opened _ ih =>
      subst same
      obtain ⟨w₁, entered, rfl⟩ := (Mirrors.opening _ _ _ _).of_ok regular.declared opened
      exact ih rfl (regular_opening regular entered) (only _ w₁ entered)
        (allWritten_opening h entered)
  | thenArm opened _ ih =>
      subst same
      obtain ⟨w₁, entered, rfl⟩ := (Mirrors.opening _ _ _ _).of_ok regular.declared opened
      exact ih rfl (regular_opening regular entered) (only.1 _ w₁ entered)
        (allWritten_opening h entered)
  | @elseArm inner thenBody _ _ _ _ _ opened _ ih =>
      subst same
      obtain ⟨w₁, entered, rfl⟩ :=
        (Mirrors.openingElse inner fun label => (thenBody label).mirrors).of_ok
          regular.declared opened
      obtain ⟨inside, after, drafts, opened, ran, changed⟩ := openingElse_eq_ok.mp entered
      have first := (only.1 _ inside opened).keeps (.of_ok ran) (allWritten_opening h opened)
      refine ih rfl (regular_openingElse (fun label => (thenBody label).continuing) regular entered)
        (only.2 _ w₁ entered) ?_
      obtain ⟨c, switched, rfl⟩ := update_eq_ok.mp changed
      exact (first.switchToElse switched).2

end Script

/-! ## Bodies of the machine -/

/-- The code of the current frame, and what is set aside in all frames. -/
def FlatContext.bodies (m : FlatContext) : List (List Draft) :=
  m.body :: m.frames.map (·.aside)

/-- Code that is set aside is that of a frame around. -/
theorem Frame.exists_of_mem_flatten {frames : List Frame} {frame : FlatFrame} {draft : Draft}
    (member : frame ∈ flatten frames) (recorded : draft ∈ frame.aside) :
    ∃ parent ∈ frames, draft ∈ parent.written := by
  induction frames with
  | nil => cases member
  | cons first outer ih =>
      rcases List.mem_cons.mp member with rfl | around
      · cases outer with
        | nil => cases recorded
        | cons parent outer =>
            exact ⟨parent, List.mem_cons_of_mem _ List.mem_cons_self, List.mem_reverse.mp recorded⟩
      · obtain ⟨parent, known, there⟩ := ih around
        exact ⟨parent, List.mem_cons_of_mem _ known, there⟩

theorem Context.AllWritten.bodies {c : Context} (h : c.AllWritten) {body : List Draft}
    (held : body ∈ c.flat.bodies) : ∀ draft ∈ body, draft.Written := by
  intro draft recorded
  rcases List.mem_cons.mp held with rfl | aside
  · exact h.body draft recorded
  · obtain ⟨frame, known, rfl⟩ := List.mem_map.mp aside
    rw [frames_flat, List.mem_reverse] at known
    obtain ⟨parent, member, there⟩ := Frame.exists_of_mem_flatten known recorded
    exact h parent member draft there

/-- All code that a body holds, wherever a run comes through. -/
theorem Script.Visits.written {σ : Type} {type : FuncType} {client : σ} {build : Script σ Unit}
    {m : FlatSpace σ} (only : build.OnlyWritten ⟨Context.forFunction type, client⟩)
    (visits : build.Visits ⟨FlatContext.forFunction type, client⟩ m) {body : List Draft}
    (held : body ∈ m.machine.bodies) : ∀ draft ∈ body, draft.Written := by
  obtain ⟨w, rfl, written⟩ := visits.allWritten (w := ⟨Context.forFunction type, client⟩) rfl
    (Context.regular_forFunction type) only (Context.allWritten_forFunction type)
  exact written.bodies held

end Wasm
