import Wasm.Proofs.Body.Session
import Wasm.Proofs.Body.Undo

/-!
# Programs take steps

Every program goes from one session to the next by the steps of sessions, also
where it fails and where the client catches the failure. That holds of whole
runs, which note the calls that they make and keep, and of every point that a
run comes through on its way, in the closures of constructs that are still
open and may yet fail.
-/

namespace Wasm

namespace Construction

variable {σ α β : Type}

open EStateM (Leaves)
open Session (Step Steps)

/-! ## Labels are handed out by constructs only -/

/-- Whether `act` succeeds or fails, no label was handed out. -/
def Unlabelled (act : Construction σ α) : Prop :=
  ∀ w w', Leaves act w w' → w'.context.labelsMade = w.context.labelsMade

theorem unlabelled_perform (d : InstrDef) (argument : Argument) :
    Unlabelled (perform (σ := σ) d argument) := by
  rintro w w' (⟨vars, done⟩ | ⟨e, failed⟩)
  · obtain ⟨c', performed, rfl⟩ := update_eq_ok.mp done
    exact Context.labelsMade_perform performed
  · rw [(update_eq_error.mp failed).2]

/-- An instruction hands out no label, whether it is written or refused. -/
theorem unlabelled_instr (name : String) (argument : Argument) (operands : List Operand) :
    Unlabelled (instr (σ := σ) name argument operands) := by
  have steps : Unlabelled (instrSteps (σ := σ) name argument operands) :=
    Along.instrSteps (R := fun c c' => c'.labelsMade = c.labelsMade) (fun _ => rfl)
      (fun first second => second.trans first) unlabelled_perform name argument operands
  rw [instr_eq_atomically]
  rintro w w' (⟨vars, done⟩ | ⟨e, failed⟩)
  · exact steps w w' (.inl ⟨vars, atomically_eq_ok.mp done⟩)
  · obtain ⟨after, stopped, rfl⟩ := atomically_eq_error.mp failed
    exact steps w after (.inr ⟨e, stopped⟩)

/-! ## A run is a sequence of steps -/

/-- Whatever is open, steps lead from one state to the other, and `calls` were
made and kept on the way. -/
def Covered (calls : List Call) (c c' : Context) : Prop :=
  ∀ level rest gone, ∃ notes gone', Note.calls notes = calls ∧
    Steps ⟨c, level :: rest, gone⟩ ⟨c', level.add notes :: rest, gone'⟩

theorem Covered.quiet {c c' : Context} (undone : c.Undone c')
    (same : c'.labelsMade = c.labelsMade) :
    Covered [] c c' := by
  intro level rest gone
  refine ⟨[], gone, rfl, ?_⟩
  rw [Level.add_nil]
  exact (Step.quiet undone same).steps

theorem Covered.refl (c : Context) : Covered [] c c :=
  .quiet (Context.Undone.refl c) rfl

theorem Covered.append {calls calls' : List Call} {c₁ c₂ c₃ : Context}
    (first : Covered calls c₁ c₂) (second : Covered calls' c₂ c₃) :
    Covered (calls ++ calls') c₁ c₃ := by
  intro level rest gone
  obtain ⟨notes, gone₁, rfl, steps⟩ := first level rest gone
  obtain ⟨notes', gone₂, rfl, steps'⟩ := second (level.add notes) rest gone₁
  rw [Level.add_add] at steps'
  exact ⟨notes ++ notes', gone₂, Note.calls_append _ _, steps.trans steps'⟩

theorem traces_covered : Traces Covered where
  nothing := Covered.refl
  append first second := first.append second
  perform := by
    intro name d argument vars c c' found plain performed level rest gone
    exact ⟨[.instr name argument], gone, rfl, (Step.instr found plain performed).steps⟩

/-! ## Constructs -/

/-- A state from which an operation that fails goes back to `c`: from inside the
constructs that it began, steps lead back to what was open before. -/
def Undoes (c after : Context) : Prop :=
  ∀ level rest gone, ∃ gone',
    Steps ⟨c, level :: rest, gone⟩ ⟨after.rollbackTo c, level :: rest, gone'⟩

theorem Undoes.covered {c after : Context} (h : Undoes c after) :
    Covered [] c (after.rollbackTo c) := by
  intro level rest gone
  obtain ⟨gone', steps⟩ := h level rest gone
  refine ⟨[], gone', rfl, ?_⟩
  rwa [Level.add_nil]

/-- An operation that fails before it has done anything. -/
theorem Undoes.refl (c : Context) : Undoes c c := by
  intro level rest gone
  exact ⟨gone, (Step.quiet (Context.Grows.refl c).rollback rfl).steps⟩

/-- A closure that is run to its end or fails in the first arm of a construct,
which then is undone. -/
theorem undoes_arm {c popped after : Context} {stage : Stage} {type : FuncType}
    {calls : List Call} (begins : stage.Begins)
    (taken : c.pop stage.name (stage.operands type) = .ok popped)
    (inside : Covered calls (popped.enter stage.kind type).2 after) : Undoes c after := by
  intro level rest gone
  obtain ⟨notes, gone', -, steps⟩ := inside ⟨_, stage, type, [], c⟩ (level :: rest) gone
  exact ⟨_, ((Step.enter stage begins taken).steps.trans steps).then .abort⟩

/-- The same in the second arm. -/
theorem undoes_elseArm {c popped after switched last : Context} {type : FuncType}
    {drafts : List Draft} {calls elseCalls : List Call}
    (taken : c.pop "if" (type.params ++ [.i32]) = .ok popped)
    (inside : Covered calls (popped.enter .thenArm type).2 after)
    (changed : after.switchToElse = .ok (drafts, switched))
    (insideElse : Covered elseCalls switched last) : Undoes c last := by
  intro level rest gone
  have begun : Step ⟨c, level :: rest, gone⟩ _ :=
    .enter .thenArm (.inr (.inr rfl)) taken
  obtain ⟨notes, gone₁, -, steps⟩ := inside ⟨_, .thenArm, type, [], c⟩ (level :: rest) gone
  have turned := (begun.steps.trans steps).then (.switch rfl changed)
  obtain ⟨notes', gone₂, -, steps'⟩ := insideElse _ (level :: rest) gone₁
  exact ⟨_, (turned.trans steps').then .abort⟩

/-- The last part of a construct fails in the closure, or behind it, where the
frames are closed again before they are undone. -/
theorem leaves_of_end_error {body : Construction σ Unit} {d : InstrDef}
    {argument : List Draft → Argument} {e : BuildError} {w after : Workspace σ}
    (failed : (do body; let drafts ← update (·.exit); conclude d (argument drafts)) w =
      .error e after) :
    ∃ w₁, Leaves body w w₁ ∧ ∀ c, after.context.rollbackTo c = w₁.context.rollbackTo c := by
  rcases EStateM.bind_eq_error.mp failed with early | ⟨_, w₁, ran, behind⟩
  · exact ⟨after, .inr ⟨e, early⟩, fun _ => rfl⟩
  · refine ⟨w₁, .of_ok ran, fun c => ?_⟩
    rcases EStateM.bind_eq_error.mp behind with refused | ⟨drafts, w₂, left, refused⟩
    · rw [(update_eq_error.mp refused).2]
    · rw [(update_eq_error.mp refused).2]
      obtain ⟨closed, exited, rfl⟩ := update_eq_ok.mp left
      obtain ⟨-, -, parent, outer, -, rfl⟩ := Context.exit_eq_ok.mp exited
      rfl

/-- A construct fails before it begins, or inside it. -/
theorem opening_of_error {name : String} {types : List ValType} {kind : FrameKind}
    {type : FuncType} {e : BuildError} {w after : Workspace σ}
    (next : Label → InstrDef → Construction σ α) (failed : (do
      let d ← definition name
      takeOperands name types
      let label ← enter kind type
      next label d) w = .error e after) :
    after = w ∨ ∃ d label inner, opening name types kind type w = .ok label inner ∧
      next label d inner = .error e after := by
  rcases EStateM.bind_eq_error.mp failed with unknown | ⟨d, w₁, looked, behind⟩
  · exact .inl (definition_leaves (.inr ⟨e, unknown⟩))
  · obtain ⟨-, rfl⟩ := definition_eq_ok.mp looked
    rcases EStateM.bind_eq_error.mp behind with missing | ⟨_, w₂, taken, inside⟩
    · exact .inl (update_eq_error.mp missing).2
    · rcases EStateM.bind_eq_error.mp inside with refused | ⟨label, inner, entered, late⟩
      · cases refused
      · exact .inr ⟨d, label, inner, EStateM.bind_eq_ok.mpr ⟨(), w₂, taken, entered⟩, late⟩

theorem Undoes.of_arm_error {stage : Stage} {type : FuncType} {body : Label → Construction σ Unit}
    {argument : List Draft → Argument} {calls : Label → Workspace σ → List Call} {e : BuildError}
    {w after : Workspace σ} (begins : stage.Begins)
    (inner : ∀ label, AlongCalls Covered (body label) (calls label))
    (failed : (do
      let d ← definition stage.name
      takeOperands stage.name (stage.operands type)
      let label ← enter stage.kind type
      body label
      let drafts ← update (·.exit)
      conclude d (argument drafts)) w = .error e after) :
    Undoes w.context after.context := by
  rcases opening_of_error (fun label d => do
    body label
    let drafts ← update (·.exit)
    conclude d (argument drafts)) failed with rfl | ⟨d, label, inside, opened, failed⟩
  · exact Undoes.refl _
  · obtain ⟨w₁, left, same⟩ := leaves_of_end_error failed
    obtain ⟨popped, taken, -, rfl⟩ := opening_eq_ok.mp opened
    intro level rest gone
    rw [same]
    exact undoes_arm begins taken (inner _ _ w₁ left) level rest gone

/-- A construct with one arm that ends. -/
theorem covered_arm {c popped after closed c' : Context} {stage : Stage} {type : FuncType}
    {calls : List Call} {d : InstrDef} {drafts : List Draft} {vars : List StackVar} {call : Call}
    (begins : stage.Begins) (taken : c.pop stage.name (stage.operands type) = .ok popped)
    (inside : Covered calls (popped.enter stage.kind type).2 after)
    (found : InstrSet.standard.named stage.name = .ok d)
    (left : after.exit = .ok (drafts, closed))
    (done : closed.conclude d ((Level.mk ⟨0⟩ stage type [] c).argument drafts) = .ok (vars, c'))
    (made : ∀ label notes, Note.calls notes = calls →
      (Level.mk label stage type notes c).note.call = call) :
    Covered [call] c c' := by
  intro level rest gone
  obtain ⟨notes, gone', rfl, steps⟩ := inside ⟨_, stage, type, [], c⟩ (level :: rest) gone
  have closing := ((Step.enter stage begins taken).steps.trans steps).then (.close found left done)
  refine ⟨[Level.note ⟨_, stage, type, notes, c⟩], _, ?_, closing⟩
  exact congrArg (fun call => [call]) (made _ notes rfl)

theorem covered_structured (stage : Stage) {type : FuncType} {body : Label → Construction σ Unit}
    {calls : Label → Workspace σ → List Call} (simple : stage = .block ∨ stage = .loop)
    (inner : ∀ label, AlongCalls Covered (body label) (calls label)) :
    AlongCalls Covered (structured stage.name stage.kind type body)
      (ifOk (structured stage.name stage.kind type body)
        (structuredCalls stage.name stage.kind type calls)) := by
  have begins : stage.Begins := by
    rcases simple with rfl | rfl
    · exact .inl rfl
    · exact .inr (.inl rfl)
  have operands : stage.operands type = type.params := by rcases simple with rfl | rfl <;> rfl
  rintro w w' (⟨vars, done⟩ | ⟨e, failed⟩)
  · rw [ifOk, done]
    obtain ⟨d, label, inside, after, drafts, closed, found, opened, ran, left, written⟩ :=
      structured_eq_ok.mp done
    have covered := inner label inside after (.of_ok ran)
    simp only [structuredCalls, andThen, opened]
    obtain ⟨popped, taken, rfl, rfl⟩ := opening_eq_ok.mp opened
    obtain ⟨c, exited, rfl⟩ := update_eq_ok.mp left
    obtain ⟨c', concluded, rfl⟩ := update_eq_ok.mp written
    rw [← operands] at taken
    have concluded' : c.conclude d ((Level.mk ⟨0⟩ stage type [] w.context).argument drafts) =
        .ok (vars, c') := by
      rcases simple with rfl | rfl <;> exact concluded
    refine covered_arm begins taken covered found exited concluded' ?_
    rcases simple with rfl | rfl <;> rintro label notes same <;> exact congrArg _ same
  · rw [ifOk, failed]
    rw [structured_eq_atomically] at failed
    obtain ⟨after, stopped, rfl⟩ := atomically_eq_error.mp failed
    rw [structuredSteps, ← operands] at stopped
    exact (Undoes.of_arm_error begins inner stopped).covered

theorem covered_ifThen {type : FuncType} {body : Label → Construction σ Unit}
    {calls : Label → Workspace σ → List Call}
    (inner : ∀ label, AlongCalls Covered (body label) (calls label)) :
    AlongCalls Covered (ifThen type body) (ifOk (ifThen type body) (ifThenCalls type calls)) := by
  have begins : Stage.thenArm.Begins := .inr (.inr rfl)
  rintro w w' (⟨vars, done⟩ | ⟨e, failed⟩)
  · rw [ifOk, done]
    obtain ⟨-, d, label, inside, after, drafts, closed, found, opened, ran, left, written⟩ :=
      ifThen_eq_ok.mp done
    have covered := inner label inside after (.of_ok ran)
    simp only [ifThenCalls, andThen, opened]
    obtain ⟨popped, taken, rfl, rfl⟩ := opening_eq_ok.mp opened
    obtain ⟨c, exited, rfl⟩ := update_eq_ok.mp left
    obtain ⟨c', concluded, rfl⟩ := update_eq_ok.mp written
    exact covered_arm begins taken covered found exited concluded fun label notes same =>
      congrArg _ same
  · rw [ifOk, failed]
    rw [ifThen_eq_atomically] at failed
    obtain ⟨after, stopped, rfl⟩ := atomically_eq_error.mp failed
    unfold ifThenSteps at stopped
    split at stopped
    · exact (Undoes.of_arm_error begins inner stopped).covered
    · rcases EStateM.bind_eq_error.mp stopped with refused | ⟨_, _, refused, -⟩ <;> cases refused
      exact (Undoes.refl _).covered

/-- A conditional with two arms fails in its first arm, on the way to the
second one, or from there on. -/
theorem Undoes.of_ifElse_error {type : FuncType} {thenBody elseBody : Label → Construction σ Unit}
    {thenCalls elseCalls : Label → Workspace σ → List Call} {e : BuildError} {w after : Workspace σ}
    (innerThen : ∀ label, AlongCalls Covered (thenBody label) (thenCalls label))
    (innerElse : ∀ label, AlongCalls Covered (elseBody label) (elseCalls label))
    (failed : ifElseSteps type thenBody elseBody w = .error e after) :
    Undoes w.context after.context := by
  have begins : Stage.thenArm.Begins := .inr (.inr rfl)
  rcases opening_of_error (fun label d => do
    thenBody label
    let drafts ← update (·.switchToElse)
    elseBody label
    let elseDrafts ← update (·.exit)
    conclude d (.ifElse type drafts elseDrafts)) failed
    with rfl | ⟨d, label, inside, opened, inArms⟩
  · exact Undoes.refl _
  · obtain ⟨popped, taken, -, rfl⟩ := opening_eq_ok.mp opened
    rcases EStateM.bind_eq_error.mp inArms with early | ⟨_, w₁, ran, behind⟩
    · exact undoes_arm begins taken (innerThen _ _ after (.inr ⟨e, early⟩))
    · have covered := innerThen _ _ w₁ (.of_ok ran)
      rcases EStateM.bind_eq_error.mp behind with refused | ⟨drafts, w₂, changed, late⟩
      · rw [(update_eq_error.mp refused).2]
        exact undoes_arm begins taken covered
      · obtain ⟨c₁, switched, rfl⟩ := update_eq_ok.mp changed
        obtain ⟨w₃, ranElse, same⟩ := leaves_of_end_error late
        intro level rest gone
        rw [same]
        exact undoes_elseArm taken covered switched (innerElse _ _ w₃ ranElse) level rest gone

theorem covered_ifElse {type : FuncType} {thenBody elseBody : Label → Construction σ Unit}
    {thenCalls elseCalls : Label → Workspace σ → List Call}
    (innerThen : ∀ label, AlongCalls Covered (thenBody label) (thenCalls label))
    (innerElse : ∀ label, AlongCalls Covered (elseBody label) (elseCalls label)) :
    AlongCalls Covered (ifElse type thenBody elseBody)
      (ifOk (ifElse type thenBody elseBody) (ifElseCalls type thenBody thenCalls elseCalls)) := by
  have begins : Stage.thenArm.Begins := .inr (.inr rfl)
  rintro w w' (⟨vars, done⟩ | ⟨e, failed⟩)
  · rw [ifOk, done]
    obtain ⟨d, label, inside, after, drafts, switched, last, elseDrafts, closed, found, opened, ran,
      changed, ranElse, left, written⟩ := ifElse_eq_ok.mp done
    have covered := innerThen label inside after (.of_ok ran)
    have coveredElse := innerElse label switched last (.of_ok ranElse)
    have openedElse := openingElse_eq_ok.mpr ⟨inside, after, drafts, opened, ran, changed⟩
    simp only [ifElseCalls, andThen, opened, openedElse]
    obtain ⟨popped, taken, rfl, rfl⟩ := opening_eq_ok.mp opened
    obtain ⟨c₁, switched', rfl⟩ := update_eq_ok.mp changed
    obtain ⟨c₂, exited, rfl⟩ := update_eq_ok.mp left
    obtain ⟨c', concluded, rfl⟩ := update_eq_ok.mp written
    intro level rest gone
    obtain ⟨notes, gone₁, same, steps⟩ := covered ⟨_, .thenArm, type, [], w.context⟩
      (level :: rest) gone
    have thenArm := (Step.enter .thenArm begins taken).steps.trans steps
    have turned := thenArm.then (.switch rfl switched')
    obtain ⟨notes', gone₂, same', steps'⟩ := coveredElse _ (level :: rest) gone₁
    have closing := (turned.trans steps').then (.close found exited concluded)
    refine ⟨[.ifElse _ type notes notes'], _, ?_, closing⟩
    exact congrArg₂ (fun calls calls' => [Call.ifElse type calls calls']) same same'
  · rw [ifOk, failed]
    rw [ifElse_eq_atomically] at failed
    obtain ⟨after, stopped, rfl⟩ := atomically_eq_error.mp failed
    exact (Undoes.of_ifElse_error innerThen innerElse stopped).covered

/-! ## Programs -/

theorem tracesPrograms_covered : TracesPrograms σ Covered where
  toTraces := traces_covered
  addLocal c type := Covered.quiet (Context.undone_addLocal c type) rfl
  refused {name argument operands} e w w' failed := Covered.quiet (undone_of_instr_error failed)
    (unlabelled_instr name argument operands w w' (.inr ⟨e, failed⟩))
  structured := by
    rintro name kind type body calls (⟨rfl, rfl⟩ | ⟨rfl, rfl⟩) inner
    · exact covered_structured .block (.inl rfl) inner
    · exact covered_structured .loop (.inr rfl) inner
  ifThen _ _ _ := covered_ifThen
  ifElse _ _ _ _ _ := covered_ifElse

/-- A program takes steps, however it ends, and the calls that it makes and
keeps are those that are noted. -/
theorem Program.covered {act : Construction σ α} {calls : Workspace σ → List Call}
    (h : Program act calls) : AlongCalls Covered act calls :=
  h.traced tracesPrograms_covered

/-! ## The points of a run -/

/-- A run of `act` from `w` comes through `w'`, with these constructs open that
were begun on the way, innermost first. Each is given with the label that its
closures have. -/
inductive Visits : {α : Type} → Construction σ α → Workspace σ → List Opened → Workspace σ → Prop
  | start {α : Type} (act : Construction σ α) (w : Workspace σ) : Visits act w [] w
  | finish {α : Type} {act : Construction σ α} {calls : Workspace σ → List Call}
      {w w' : Workspace σ} (program : Program act calls) (left : Leaves act w w') :
      Visits act w [] w'
  | first {α β : Type} {act : Construction σ α} {next : α → Construction σ β}
      {w w' : Workspace σ} {path : List Opened} (inside : Visits act w path w') :
      Visits (act >>= next) w path w'
  | second {α β : Type} {act : Construction σ α} {next : α → Construction σ β}
      {calls : Workspace σ → List Call} {a : α} {w w₁ w' : Workspace σ} {path : List Opened}
      (program : Program act calls) (done : act w = .ok a w₁)
      (behind : Visits (next a) w₁ path w') :
      Visits (act >>= next) w path w'
  | attempt {α : Type} {act : Construction σ α} {handler : BuildError → Construction σ α}
      {w w' : Workspace σ} {path : List Opened} (inside : Visits act w path w') :
      Visits (tryCatch act handler) w path w'
  | handler {α : Type} {act : Construction σ α} {handler : BuildError → Construction σ α}
      {calls : Workspace σ → List Call} {e : BuildError} {w w₁ w' : Workspace σ}
      {path : List Opened} (program : Program act calls) (failed : act w = .error e w₁)
      (behind : Visits (handler e) w₁ path w') : Visits (tryCatch act handler) w path w'
  | structured {name : String} {kind : FrameKind} {type : FuncType}
      {body : Label → Construction σ Unit} {label : Label} {w inner w' : Workspace σ}
      {path : List Opened} (opens : kind.Opens name)
      (opened : opening name type.params kind type w = .ok label inner)
      (inside : Visits (body label) inner path w') :
      Visits (structured name kind type body) w (path ++ [⟨label, kind, type⟩]) w'
  | ifThen {type : FuncType} {body : Label → Construction σ Unit} {label : Label}
      {w inner w' : Workspace σ} {path : List Opened} (balanced : type.params = type.results)
      (opened : opening "if" (type.params ++ [.i32]) .thenArm type w = .ok label inner)
      (inside : Visits (body label) inner path w') :
      Visits (ifThen type body) w (path ++ [⟨label, .thenArm, type⟩]) w'
  | thenArm {type : FuncType} {thenBody elseBody : Label → Construction σ Unit} {label : Label}
      {w inner w' : Workspace σ} {path : List Opened}
      (opened : opening "if" (type.params ++ [.i32]) .thenArm type w = .ok label inner)
      (inside : Visits (thenBody label) inner path w') :
      Visits (ifElse type thenBody elseBody) w (path ++ [⟨label, .thenArm, type⟩]) w'
  | elseArm {type : FuncType} {thenBody elseBody : Label → Construction σ Unit}
      {calls : Workspace σ → List Call} {label : Label} {drafts : List Draft}
      {w inner after switched w' : Workspace σ} {path : List Opened}
      (opened : opening "if" (type.params ++ [.i32]) .thenArm type w = .ok label inner)
      (program : Program (thenBody label) calls) (ran : thenBody label inner = .ok () after)
      (changed : update (·.switchToElse) after = .ok drafts switched)
      (inside : Visits (elseBody label) switched path w') :
      Visits (ifElse type thenBody elseBody) w (path ++ [⟨label, .elseArm, type⟩]) w'

/-- Whatever is open, steps lead from one state to the other, where the
constructs of `path` have been begun on the way and are still open. -/
def Passes (path : List Opened) (c c' : Context) : Prop :=
  ∀ level rest gone, ∃ levels gone', levels.map Level.opened = path ++ [level.opened] ∧
    Steps ⟨c, level :: rest, gone⟩ ⟨c', levels ++ rest, gone'⟩

theorem Covered.passes {calls : List Call} {path : List Opened} {c c₁ c' : Context}
    (first : Covered calls c c₁) (behind : Passes path c₁ c') : Passes path c c' := by
  intro level rest gone
  obtain ⟨notes, gone₁, -, steps⟩ := first level rest gone
  obtain ⟨levels, gone', same, steps'⟩ := behind (level.add notes) rest gone₁
  exact ⟨levels, gone', same, steps.trans steps'⟩

theorem Passes.refl (c : Context) : Passes [] c c :=
  fun level _ gone => ⟨[level], gone, rfl, .refl⟩

/-- Into the closure of a construct. -/
theorem Passes.enter {c popped c' : Context} (stage : Stage) {type : FuncType}
    {path : List Opened} (begins : stage.Begins)
    (taken : c.pop stage.name (stage.operands type) = .ok popped)
    (inside : Passes path (popped.enter stage.kind type).2 c') :
    Passes (path ++ [⟨(popped.enter stage.kind type).1, stage.kind, type⟩]) c c' := by
  intro level rest gone
  obtain ⟨levels, gone', same, steps⟩ := inside ⟨_, stage, type, [], c⟩ (level :: rest) gone
  refine ⟨levels ++ [level], gone', ?_, ?_⟩
  · rw [List.map_append, same]
    rfl
  · rw [List.append_assoc]
    exact (Step.enter stage begins taken).steps.trans steps

/-- Through the first arm of a conditional into its second. -/
theorem Passes.enterElse {c popped after switched c' : Context} {type : FuncType}
    {drafts : List Draft} {calls : List Call} {path : List Opened}
    (taken : c.pop "if" (type.params ++ [.i32]) = .ok popped)
    (ran : Covered calls (popped.enter .thenArm type).2 after)
    (changed : after.switchToElse = .ok (drafts, switched)) (inside : Passes path switched c') :
    Passes (path ++ [⟨(popped.enter .thenArm type).1, .elseArm, type⟩]) c c' := by
  intro level rest gone
  have begun : Step ⟨c, level :: rest, gone⟩ _ :=
    .enter .thenArm (.inr (.inr rfl)) taken
  obtain ⟨notes, gone₁, -, steps⟩ := ran ⟨_, .thenArm, type, [], c⟩ (level :: rest) gone
  have turned := (begun.steps.trans steps).then (.switch rfl changed)
  obtain ⟨levels, gone', same, steps'⟩ := inside ⟨_, .elseArm _ drafts, type, [], c⟩
    (level :: rest) gone₁
  refine ⟨levels ++ [level], gone', ?_, ?_⟩
  · rw [List.map_append, same]
    rfl
  · rw [List.append_assoc]
    exact turned.trans steps'

/-- Steps lead to wherever a run comes through. -/
theorem Visits.passes {act : Construction σ α} {w w' : Workspace σ} {path : List Opened}
    (h : Visits act w path w') : Passes path w.context w'.context := by
  induction h with
  | start act w => exact Passes.refl _
  | finish program left => exact (program.covered _ _ left).passes (Passes.refl _)
  | first _ ih | attempt _ ih => exact ih
  | second program done _ ih => exact (program.covered _ _ (.of_ok done)).passes ih
  | handler program failed _ ih => exact (program.covered _ _ (.inr ⟨_, failed⟩)).passes ih
  | structured opens opened _ ih =>
      obtain ⟨popped, taken, rfl, rfl⟩ := opening_eq_ok.mp opened
      rcases opens with ⟨rfl, rfl⟩ | ⟨rfl, rfl⟩
      · exact Passes.enter .block (.inl rfl) taken ih
      · exact Passes.enter .loop (.inr (.inl rfl)) taken ih
  | ifThen _ opened _ ih | thenArm opened _ ih =>
      obtain ⟨popped, taken, rfl, rfl⟩ := opening_eq_ok.mp opened
      exact Passes.enter .thenArm (.inr (.inr rfl)) taken ih
  | elseArm opened program ran changed _ ih =>
      obtain ⟨popped, taken, rfl, rfl⟩ := opening_eq_ok.mp opened
      obtain ⟨c₁, switched, rfl⟩ := update_eq_ok.mp changed
      exact Passes.enterElse taken (program.covered _ _ (.of_ok ran)) switched ih

end Construction

end Wasm
