import Wasm.Proofs.Body.Recorded
import Wasm.Proofs.Validation.Known
import Wasm.Proofs.Validation.Step

/-!
# Where constructions lead

The stacks behind a construction, or none where it fails, as an equation for
each operation that writes code: one for an instruction, and one for each
construct, given what its bodies do. The frames around a construct come back
because whatever is done inside of it leaves them alone.
-/

namespace Wasm

open Validation

/-! ## The calls keep their frame -/

mutual

theorem Call.program_run {σ : Type} : (call : Call) →
    ∃ made, Construction.Program (σ := σ) call.run made
  | .instr name argument => by
      rw [Call.run]
      exact ⟨_, (Construction.Program.instr name argument []).bind fun _ => .pure ()⟩
  | .block name type body => by
      obtain ⟨made, inner⟩ := Call.program_runAll body
      rw [Call.run]
      split
      · exact ⟨_, (Construction.Program.loop fun _ => inner).bind fun _ => .pure ()⟩
      · exact ⟨_, (Construction.Program.block fun _ => inner).bind fun _ => .pure ()⟩
  | .ifThen type thenBody => by
      obtain ⟨made, inner⟩ := Call.program_runAll thenBody
      rw [Call.run]
      exact ⟨_, (Construction.Program.ifThen fun _ => inner).bind fun _ => .pure ()⟩
  | .ifElse type thenBody elseBody => by
      obtain ⟨made, inner⟩ := Call.program_runAll thenBody
      obtain ⟨made', innerElse⟩ := Call.program_runAll elseBody
      rw [Call.run]
      exact ⟨_, (Construction.Program.ifElse (fun _ => inner) fun _ => innerElse).bind fun _ =>
        .pure ()⟩

/-- Calls that are made again are a program. -/
theorem Call.program_runAll {σ : Type} : (calls : List Call) →
    ∃ made, Construction.Program (σ := σ) (Call.runAll calls) made
  | [] => by
      rw [Call.runAll]
      exact ⟨_, .pure ()⟩
  | call :: rest => by
      obtain ⟨made, first⟩ := Call.program_run call
      obtain ⟨made', others⟩ := Call.program_runAll rest
      rw [Call.runAll]
      exact ⟨_, first.bind fun _ => others⟩

end

namespace Construction

variable {σ α β : Type}

/-- What succeeds has only added to the frame where it began. -/
def Extends (act : Construction σ α) : Prop :=
  ∀ w a w', act w = .ok a w' → ∃ drafts, w.context.Extends drafts w'.context

theorem Program.extends {act : Construction σ α} {calls : Workspace σ → List Call}
    (h : Program act calls) : Extends act := by
  intro w a w' done
  obtain ⟨drafts, recorded⟩ := h.kept w w' (.of_ok done)
  exact ⟨drafts, recorded.extends⟩

theorem extends_run (call : Call) : Extends (σ := σ) call.run := by
  obtain ⟨made, program⟩ := Call.program_run call
  exact program.extends

theorem extends_runAll (calls : List Call) : Extends (σ := σ) (Call.runAll calls) := by
  obtain ⟨made, program⟩ := Call.program_runAll calls
  exact program.extends

/-! ## Where a construction leads -/

/-- The stacks behind a construction that succeeds. -/
def reached : EStateM.Result BuildError (Workspace σ) α → Option Stacks
  | .ok _ w => some w.context.asStacks
  | .error _ _ => none

theorem reached_bind (act : Construction σ α) (next : α → Construction σ β) (w : Workspace σ) :
    reached ((act >>= next) w) =
      match act w with
      | .ok a w' => reached (next a w')
      | .error _ _ => none := by
  show reached (EStateM.bind act next w) = _
  unfold EStateM.bind
  cases act w <;> rfl

theorem reached_update (f : Context → Except BuildError (α × Context)) (w : Workspace σ) :
    reached (update f w) = Context.reached (f w.context) := by
  rw [update]
  cases f w.context <;> rfl

theorem reached_atomically (act : Construction σ α) (w : Workspace σ) :
    reached (atomically act w) = reached (act w) := by
  rw [atomically]
  cases act w <;> rfl

/-- The result is not needed. -/
theorem reached_forget (act : Construction σ α) (w : Workspace σ) :
    reached ((do let _ ← act : Construction σ Unit) w) = reached (act w) := by
  rw [reached_bind]
  cases act w <;> rfl

/-- An instruction that finds its operands on the stack. -/
theorem reached_instr {name : String} {d : InstrDef} (found : InstrSet.standard.named name = .ok d)
    (plain : d.shape.isStructured = false) (argument : Argument) (w : Workspace σ) :
    reached (instr name argument [] w) = Context.reached (w.context.perform d argument) := by
  have looked : definition (σ := σ) name w = .ok d w := definition_eq_ok.mpr ⟨found, rfl⟩
  rw [instr, reached_bind, looked]
  show reached ((ite (d.shape.isStructured = true) _ _ : Construction σ (List StackVar)) w) = _
  rw [if_neg (Bool.eq_false_iff.mp plain)]
  have bound : bindOperands (σ := σ) d.name [] w = .ok () w := rfl
  rw [reached_atomically, reached_bind, bound]
  exact reached_update _ w

/-! ## One step after the other -/

/-- The second step is taken where the first one ends. -/
theorem reached_seq {act : Construction σ α} {next : α → Construction σ β} {w : Workspace σ}
    {r : Option Stacks} {f : Stacks → Option Stacks} (first : reached (act w) = r)
    (second : ∀ a w', act w = .ok a w' → reached (next a w') = f w'.context.asStacks) :
    reached ((act >>= next) w) = r.bind f := by
  subst first
  rw [reached_bind]
  cases ran : act w with
  | ok a w' => exact second a w' ran
  | error e w' => rfl

theorem reached_takeOperands (name : String) (types : List ValType) (w : Workspace σ) :
    reached (takeOperands name types w) = (w.context.asStacks.popTypes types).map (·.2) := by
  rw [takeOperands, reached_update, Context.popTypes_asStacks name]
  cases w.context.pop name types <;> rfl

/-- Closing a construct, which says of itself what its results are. -/
theorem reached_closing {d : InstrDef} {argument : List Draft → Argument} {results : List ValType}
    (allowed : ∀ c drafts, ∃ effect, d.effect c (argument drafts) = .ok effect ∧
      effect.results = results) {w : Workspace σ} (within : w.context.outer ≠ []) :
    reached ((update (·.exit) >>= fun drafts => conclude d (argument drafts)) w) =
      w.context.asStacks.leave.bind fun s => some (s.pushTypes results) := by
  refine reached_seq ?_ fun drafts w' _ => ?_
  · rw [reached_update, Context.reached_exit within]
  · obtain ⟨effect, found, rfl⟩ := allowed w'.context drafts
    rw [conclude, reached_update, Context.reached_conclude, found]
    rfl

/-! ## Constructs -/

variable {Γ : Env}

/-- Where the locals of the function are declared, `act` does `inner` to the
stacks, and it leaves the frames around its own alone. -/
structure Does (Γ : Env) (act : Construction σ α) (inner : Stacks → Option Stacks) : Prop where
  leads : ∀ w : Workspace σ, Γ.locals <+: w.context.locals.toList →
    reached (act w) = inner w.context.asStacks
  keeps : Extends act

/-- Behind the body of a construct the frame that was opened is still there. -/
theorem reached_inside {act : Construction σ Unit} {inner f : Stacks → Option Stacks}
    {next : Construction σ α} (does : Does Γ act inner) {w : Workspace σ}
    (locals : Γ.locals <+: w.context.locals.toList) (within : w.context.outer ≠ [])
    (rest : ∀ w' : Workspace σ, Γ.locals <+: w'.context.locals.toList → w'.context.outer ≠ [] →
      w'.context.frame.startTypes = w.context.frame.startTypes →
      w'.context.frame.endTypes = w.context.frame.endTypes →
      reached (next w') = f w'.context.asStacks) :
    reached ((act >>= fun _ => next) w) = (inner w.context.asStacks).bind f := by
  refine reached_seq (does.leads w locals) fun _ w' ran => ?_
  obtain ⟨drafts, added⟩ := does.keeps _ _ _ ran
  obtain ⟨values, unreachable, frame⟩ := added.frame
  exact rest w' (locals.trans added.locals) (by rwa [added.outer]) (by rw [frame]) (by rw [frame])

/-- From where a construct opens. -/
theorem reached_opened {name : String} {types : List ValType} {kind : FrameKind}
    {type : FuncType} {next : Label → Construction σ α} (f : Stacks → Option Stacks)
    {w : Workspace σ} (locals : Γ.locals <+: w.context.locals.toList)
    (rest : ∀ label w', Γ.locals <+: w'.context.locals.toList → w'.context.outer ≠ [] →
      w'.context.frame.startTypes = type.params → w'.context.frame.endTypes = type.results →
      reached (next label w') = f w'.context.asStacks) :
    reached ((takeOperands name types >>= fun _ => enter kind type >>= next) w) =
      ((w.context.asStacks.popTypes types).map (·.2)).bind fun s =>
        f (s.enter (kind == .loop) type) := by
  refine reached_seq (reached_takeOperands name types w) fun _ w₁ taken => ?_
  obtain ⟨c, updated, rfl⟩ := update_eq_ok.mp taken
  obtain ⟨_, popped, same⟩ := Except.bind_eq_ok.mp updated
  cases same
  have grows := (Context.extends_pop popped).toGrows.trans
    (Context.inside_enter c kind type).toGrows
  refine Eq.trans ?_ (congrArg f (Context.asStacks_enter c kind type))
  exact rest _ { w with context := (c.enter kind type).2 } (locals.trans grows.locals)
    (List.cons_ne_nil _ _) rfl rfl

/-- A construct is written by its definition, and only if all of it succeeds. -/
theorem reached_defined {name : String} {d : InstrDef}
    (found : InstrSet.standard.named name = .ok d) (act : InstrDef → Construction σ α)
    (w : Workspace σ) : reached ((definition name >>= fun d => atomically (act d)) w) =
      reached (act d w) := by
  have looked : definition (σ := σ) name w = .ok d w := definition_eq_ok.mpr ⟨found, rfl⟩
  rw [reached_bind, looked]
  exact reached_atomically _ w

theorem reached_structured {name : String} {d : InstrDef} {kind : FrameKind} {type : FuncType}
    {body : Label → Construction σ Unit} {inner : Stacks → Option Stacks}
    (found : InstrSet.standard.named name = .ok d) (typing : d.typing = .block)
    (does : ∀ label, Does Γ (body label) inner) {w : Workspace σ}
    (locals : Γ.locals <+: w.context.locals.toList) :
    reached (structured name kind type body w) =
      ((w.context.asStacks.popTypes type.params).map (·.2)).bind fun s =>
        (inner (s.enter (kind == .loop) type)).bind fun s =>
          s.leave.bind fun s => some (s.pushTypes type.results) := by
  rw [structured, reached_defined found]
  refine reached_opened (fun s => (inner s).bind fun s => s.leave.bind fun s =>
    some (s.pushTypes type.results)) locals fun label w₁ locals₁ within₁ _ _ => ?_
  refine reached_inside (does label) locals₁ within₁ fun w₂ _ within₂ _ _ => ?_
  refine reached_closing ?_ within₂
  exact fun c drafts => ⟨_, InstrDef.HasEffect.block.eq_ok typing, rfl⟩

theorem reached_ifThen {d : InstrDef} {type : FuncType} {body : Label → Construction σ Unit}
    {inner : Stacks → Option Stacks} (found : InstrSet.standard.named "if" = .ok d)
    (typing : d.typing = .conditional) (does : ∀ label, Does Γ (body label) inner)
    {w : Workspace σ} (locals : Γ.locals <+: w.context.locals.toList) :
    reached (ifThen type body w) =
      ((w.context.asStacks.popTypes (type.params ++ [.i32])).map (·.2)).bind fun s =>
        (inner (s.enter false type)).bind fun s => s.leave.bind fun s =>
          (s.enter false type).leave.bind fun s => some (s.pushTypes type.results) := by
  by_cases balanced : type.params = type.results
  · simp only [leave_enter, if_pos balanced, Option.bind_some]
    have steps := reached_defined found (fun d => do
      takeOperands "if" (type.params ++ [.i32])
      let label ← enter .thenArm type
      body label
      let thenBody ← update (·.exit)
      conclude d (.ifThen type thenBody)) w
    rw [ifThen, if_pos balanced]
    refine steps.trans ?_
    refine reached_opened (fun s => (inner s).bind fun s => s.leave.bind fun s =>
      some (s.pushTypes type.results)) locals fun label w₁ locals₁ within₁ _ _ => ?_
    refine reached_inside (does label) locals₁ within₁ fun w₂ _ within₂ _ _ => ?_
    refine reached_closing ?_ within₂
    exact fun c drafts => ⟨_, InstrDef.HasEffect.ifThen.eq_ok typing, rfl⟩
  · -- Neither takes the condition for a way around the body.
    simp only [leave_enter, if_neg balanced, Option.bind_none, Option.bind_fun_none]
    rw [ifThen, if_neg balanced]
    rfl

theorem reached_ifElse {d : InstrDef} {type : FuncType}
    {thenBody elseBody : Label → Construction σ Unit} {inner innerElse : Stacks → Option Stacks}
    (found : InstrSet.standard.named "if" = .ok d) (typing : d.typing = .conditional)
    (does : ∀ label, Does Γ (thenBody label) inner)
    (doesElse : ∀ label, Does Γ (elseBody label) innerElse) {w : Workspace σ}
    (locals : Γ.locals <+: w.context.locals.toList) :
    reached (ifElse type thenBody elseBody w) =
      ((w.context.asStacks.popTypes (type.params ++ [.i32])).map (·.2)).bind fun s =>
        (inner (s.enter false type)).bind fun s => s.leave.bind fun s =>
          (innerElse (s.enter false type)).bind fun s =>
            s.leave.bind fun s => some (s.pushTypes type.results) := by
  rw [ifElse, reached_defined found]
  let closes : Stacks → Option Stacks := fun s =>
    (innerElse s).bind fun s => s.leave.bind fun s => some (s.pushTypes type.results)
  refine reached_opened (fun s => (inner s).bind fun s => s.leave.bind fun s =>
    closes (s.enter false type)) locals fun label w₁ locals₁ within₁ starts ends => ?_
  refine reached_inside (does label) locals₁ within₁ fun w₂ locals₂ within₂ starts₂ ends₂ => ?_
  refine (reached_seq (f := closes)
    ((reached_update _ w₂).trans (Context.reached_switchToElse w₂.context)) fun drafts w₃ changed =>
      ?_).trans ?_
  · obtain ⟨c, switched, rfl⟩ := update_eq_ok.mp changed
    have grows := Context.grows_switchToElse switched
    obtain ⟨-, -, rfl⟩ := Context.switchToElse_eq_ok.mp switched
    refine reached_inside (doesElse label) (locals₂.trans grows.locals) within₂
      fun w₄ _ within₄ _ _ => ?_
    refine reached_closing ?_ within₄
    exact fun c elseDrafts => ⟨_, InstrDef.HasEffect.ifElse.eq_ok typing, rfl⟩
  · rw [starts₂, starts, ends₂, ends]
    cases w₂.context.asStacks.leave <;> rfl

end Construction

end Wasm
