import Wasm.Proofs.Body.Script

/-!
# The machine does what the library does

From the state of the library laid out on one stack, the machine runs each
script to the end without going wrong, with the answer or the error of the
library, and ends in what the library leaves behind, laid out again. Where it
closes frames and cuts its stack and its code after a failure, it gets to the
state that the library goes back to.
-/

namespace Wasm

variable {σ α β : Type}

def Workspace.flat (w : Workspace σ) : FlatSpace σ := ⟨w.context.flat, w.client⟩

/-- The outcome of a run with the state laid out. -/
def flatResult : EStateM.Result BuildError (Workspace σ) α →
    EStateM.Result BuildError (FlatSpace σ) α
  | .ok a w => .ok a w.flat
  | .error e w => .error e w.flat

namespace Context

/-- The parameters are among the locals. -/
def Declared (c : Context) : Prop := c.paramCount ≤ c.locals.size

theorem Grows.declared {c c' : Context} (h : c.Grows c') (declared : c.Declared) :
    c'.Declared := by
  have longer := h.locals.length_le
  rw [Array.length_toList, Array.length_toList] at longer
  rw [Declared, h.paramCount]
  exact Nat.le_trans declared longer

theorem declared_forFunction (type : FuncType) : (forFunction type).Declared :=
  Nat.le_of_eq List.size_toArray.symm

end Context

namespace Construction

/-- The machine does in `act'` what the library does in `act`. -/
structure Mirrors (act : Construction σ α) (act' : FlatConstruction σ α) : Prop where
  monotone : Monotone act
  same : ∀ w, w.context.Declared → act' w.flat = some (flatResult (act w))

namespace Mirrors

variable {act : Construction σ α} {act' : FlatConstruction σ α}

theorem pure (a : α) : Mirrors (Pure.pure a : Construction σ α) (Pure.pure a) :=
  ⟨.pure a, fun _ _ => rfl⟩

theorem throw (e : BuildError) :
    Mirrors (MonadExcept.throw e : Construction σ α) (MonadExcept.throw e) :=
  ⟨.throw e, fun _ _ => rfl⟩

theorem bind {next : α → Construction σ β} {next' : α → FlatConstruction σ β}
    (first : Mirrors act act') (second : ∀ a, Mirrors (next a) (next' a)) :
    Mirrors (act >>= next) (act' >>= next') := by
  refine ⟨first.monotone.bind fun a => (second a).monotone, fun w declared => ?_⟩
  show FlatConstruction.bind act' next' w.flat = some (flatResult (EStateM.bind act next w))
  rw [FlatConstruction.bind, first.same w declared, EStateM.bind]
  cases ran : act w with
  | ok a after =>
      -- The parameters are still among the locals where the rest begins.
      exact (second a).same after ((first.monotone w after (.of_ok ran)).declared declared)
  | error e after => rfl

theorem ite {p : Prop} [Decidable p] {other : Construction σ α} {other' : FlatConstruction σ α}
    (pos : Mirrors act act') (neg : Mirrors other other') :
    Mirrors (if p then act else other) (if p then act' else other') := by
  split
  · exact pos
  · exact neg

theorem tryCatch {handler : BuildError → Construction σ α}
    {handler' : BuildError → FlatConstruction σ α} (first : Mirrors act act')
    (second : ∀ e, Mirrors (handler e) (handler' e)) :
    Mirrors (MonadExcept.tryCatch act handler) (MonadExcept.tryCatch act' handler') := by
  refine ⟨first.monotone.tryCatch fun e => (second e).monotone, fun w declared => ?_⟩
  show FlatConstruction.tryCatch act' handler' w.flat =
    some (flatResult (EStateM.tryCatch act handler w))
  rw [FlatConstruction.tryCatch, first.same w declared, EStateM.tryCatch]
  cases ran : act w with
  | ok a after => rfl
  | error e after =>
      exact (second e).same after ((first.monotone w after (.inr ⟨e, ran⟩)).declared declared)

theorem client (step : σ → α × σ) :
    Mirrors (fun w => .ok (step w.client).1 { w with client := (step w.client).2 })
      fun w => some (.ok (step w.client).1 { w with client := (step w.client).2 }) :=
  ⟨(Continuing.client step).monotone, fun _ _ => rfl⟩

theorem inspect (query : Query α) :
    Mirrors (Construction.inspect query.ask : Construction σ α) (.inspect query.askFlat) := by
  refine ⟨(Continuing.inspect query.ask).monotone, fun w declared => ?_⟩
  have answer : query.askFlat w.flat.machine = .of (query.ask w.context) :=
    query.same w.context declared
  rw [Construction.inspect, FlatConstruction.inspect, answer]
  cases query.ask w.context <;> rfl

/-- A change of the body that the machine makes as well. -/
theorem update {f : Context → Except BuildError (α × Context)}
    {f' : FlatContext → Guarded (α × FlatContext)}
    (monotone : Monotone (Construction.update f : Construction σ α))
    (same : ∀ c : Context, f' c.flat = .of ((f c).map fun done => (done.1, done.2.flat))) :
    Mirrors (Construction.update f : Construction σ α) (.update f') := by
  refine ⟨monotone, fun w _ => ?_⟩
  have changed : f' w.flat.machine = .of ((f w.context).map fun done => (done.1, done.2.flat)) :=
    same w.context
  rw [Construction.update, FlatConstruction.update, changed]
  cases f w.context <;> rfl

/-- Where the machine undoes steps to the state that the library goes back to. -/
theorem undoing {undo : FlatContext → Context.Mark → FlatContext} (steps : Mirrors act act')
    (undone : ∀ w e after, act w = .error e after →
      undo after.context.flat w.context.mark = (after.context.rollbackTo w.context).flat) :
    Mirrors (Construction.atomically act) (.undoing undo act') := by
  constructor
  · rintro w w' (⟨a, done⟩ | ⟨e, failed⟩)
    · exact steps.monotone w w' (.of_ok (atomically_eq_ok.mp done))
    · exact (steps.monotone.undone_of_error failed).toGrows
  · intro w declared
    rw [FlatConstruction.undoing, steps.same w declared, Construction.atomically]
    cases ran : act w with
    | ok a after => rfl
    | error e after =>
        -- What the machine noted is what the library would have noted.
        have back : undo after.context.flat w.context.flat.mark =
            (after.context.rollbackTo w.context).flat :=
          w.context.mark_flat.symm ▸ undone w e after ran
        exact congrArg (fun machine =>
          some (EStateM.Result.error e (FlatSpace.mk machine after.client))) back

/-! ## Single instructions -/

theorem addLocal (type : ValType) :
    Mirrors (Construction.addLocal type : Construction σ LocalHandle) (.addLocal type) :=
  ⟨(Continuing.addLocal type).monotone, fun _ _ => rfl⟩

theorem definition (name : String) :
    Mirrors (Construction.definition name : Construction σ InstrDef) (.definition name) := by
  refine ⟨monotone_definition name, fun w _ => ?_⟩
  rw [Construction.definition, FlatConstruction.definition]
  cases InstrSet.standard.named name <;> rfl

theorem perform (d : InstrDef) (argument : Argument) :
    Mirrors (Construction.perform d argument : Construction σ _) (.perform d argument) :=
  update (monotone_perform d argument) fun c => c.perform_flat d argument

/-- The instruction of an operand. -/
theorem named (name : String) (argument : Argument) :
    Mirrors (σ := σ)
      (do let _ ← Construction.perform (← Construction.definition name) argument)
      (do let _ ← FlatConstruction.perform (← FlatConstruction.definition name) argument) :=
  (definition name).bind fun d => (perform d argument).bind fun _ => pure ()

theorem pushOperand (operand : Operand) :
    Mirrors (Construction.pushOperand operand : Construction σ Unit) (.pushOperand operand) := by
  cases operand with
  | stack | var v => exact pure ()
  | _ => exact named _ _

theorem pushOperands (operands : List Operand) :
    Mirrors (Construction.pushOperands operands : Construction σ Unit)
      (.pushOperands operands) := by
  induction operands with
  | nil => exact pure ()
  | cons operand rest ih => exact (pushOperand operand).bind fun _ => ih

theorem checkPlaces (name : String) (operands : List Operand) :
    Mirrors (σ := σ) (Construction.inspect (·.checkPlaces name 0 operands))
      (.inspect fun m => .of (m.checkPlaces name operands.length 0 operands)) :=
  inspect {
    ask := (·.checkPlaces name 0 operands)
    askFlat := fun m => .of (m.checkPlaces name operands.length 0 operands)
    same := fun c _ => congrArg Guarded.of (c.checkPlaces_flat name 0 operands (Nat.zero_add _)) }

theorem bindOperands (name : String) (operands : List Operand) :
    Mirrors (Construction.bindOperands name operands : Construction σ Unit)
      (.bindOperands name operands) := by
  unfold Construction.bindOperands FlatConstruction.bindOperands
  have rest := (checkPlaces (σ := σ) name (operands.takeWhile (·.isOnStack))).bind fun _ =>
    pushOperands (operands.dropWhile (·.isOnStack))
  exact ite ((throw _).bind fun _ => rest) rest

theorem instrSteps (name : String) (argument : Argument) (operands : List Operand) :
    Mirrors (Construction.instrSteps name argument operands : Construction σ _)
      (.instrSteps name argument operands) := by
  refine (definition name).bind fun d => ?_
  have rest := (bindOperands (σ := σ) d.name operands).bind fun _ => perform d argument
  exact ite ((throw _).bind fun _ => rest) rest

/-- Where an instruction fails, cutting back is enough. -/
theorem instr (name : String) (argument : Argument) (operands : List Operand) :
    Mirrors (Construction.instr name argument operands : Construction σ _)
      (.undoing FlatContext.cutBack (.instrSteps name argument operands)) := by
  rw [instr_eq_atomically]
  exact (instrSteps name argument operands).undoing fun w e after failed =>
    Context.cutBack_flat (topped_of_instrSteps failed)

/-! ## Structured constructs -/

theorem takeOperands (name : String) (types : List ValType) :
    Mirrors (Construction.takeOperands name types : Construction σ Unit)
      (.takeOperands name types) := by
  refine update (monotone_takeOperands name types) fun c => ?_
  rw [c.pop_flat]
  cases c.pop name types <;> rfl

theorem enter (kind : FrameKind) (type : FuncType) :
    Mirrors (Construction.enter kind type : Construction σ Label) (.enter kind type) := by
  refine ⟨monotone_enter kind type, fun w _ => ?_⟩
  have entered := w.context.enter_flat kind type
  exact congrArg (fun done =>
    some (EStateM.Result.ok done.1 (FlatSpace.mk done.2 w.client))) entered

theorem exit : Mirrors (Construction.update (·.exit) : Construction σ _) (.update (·.exit)) :=
  update monotone_exit Context.exit_flat

theorem switchToElse :
    Mirrors (Construction.update (·.switchToElse) : Construction σ _) (.update (·.switchToElse)) :=
  update monotone_switchToElse Context.switchToElse_flat

theorem conclude (d : InstrDef) (argument : Argument) :
    Mirrors (Construction.conclude d argument : Construction σ _) (.conclude d argument) :=
  update (monotone_conclude d argument) fun c => c.conclude_flat d argument

section

variable {body elseBody : Label → Construction σ Unit}
  {body' elseBody' : Label → FlatConstruction σ Unit}
  (inner : ∀ label, Mirrors (body label) (body' label))

include inner

/-- The arm of a construct, from the look-up of its mnemonic on. -/
theorem arm (name : String) (types : List ValType) (kind : FrameKind) (type : FuncType)
    (argument : List Draft → Argument) :
    Mirrors (σ := σ)
      (do
        let d ← Construction.definition name
        Construction.takeOperands name types
        let label ← Construction.enter kind type
        body label
        let body ← Construction.update (·.exit)
        Construction.conclude d (argument body))
      (do
        let d ← FlatConstruction.definition name
        FlatConstruction.takeOperands name types
        let label ← FlatConstruction.enter kind type
        body' label
        let body ← FlatConstruction.update (·.exit)
        FlatConstruction.conclude d (argument body)) :=
  (definition name).bind fun d => (takeOperands name types).bind fun _ =>
    (enter kind type).bind fun label => (inner label).bind fun _ => exit.bind fun drafts =>
      conclude d (argument drafts)

theorem ifThenSteps (type : FuncType) :
    Mirrors (Construction.ifThenSteps type body) (.ifThenSteps type body') := by
  have rest := arm inner "if" (type.params ++ [.i32]) .thenArm type (Argument.ifThen type)
  exact ite rest ((throw _).bind fun _ => rest)

theorem ifElseSteps (innerElse : ∀ label, Mirrors (elseBody label) (elseBody' label))
    (type : FuncType) :
    Mirrors (Construction.ifElseSteps type body elseBody) (.ifElseSteps type body' elseBody') :=
  (definition "if").bind fun d => (takeOperands "if" _).bind fun _ =>
    (enter .thenArm type).bind fun label => (inner label).bind fun _ =>
      switchToElse.bind fun drafts => (innerElse label).bind fun _ =>
        exit.bind fun elseDrafts => conclude d (.ifElse type drafts elseDrafts)

end

/-- Where a construct fails, its frames can be closed one by one. -/
theorem unwinding {steps : Construction σ α} {steps' : FlatConstruction σ α}
    (mirrors : Mirrors steps steps') (moves : ∀ c, Moves c 0 0 steps) :
    Mirrors (Construction.atomically steps) (.undoing FlatContext.unwind steps') :=
  mirrors.undoing fun w e after failed => by
    obtain ⟨m, above⟩ := (moves w.context w (Context.Above.refl _)).2 e after failed
    exact Context.unwind_flat above

theorem structured {body : Label → Construction σ Unit} {body' : Label → FlatConstruction σ Unit}
    (name : String) (kind : FrameKind) (type : FuncType) (stays : ∀ label, Stays (body label))
    (inner : ∀ label, Mirrors (body label) (body' label)) :
    Mirrors (Construction.structured name kind type body)
      (.undoing FlatContext.unwind (.structuredSteps name kind type body')) := by
  rw [structured_eq_atomically]
  exact (arm inner name type.params kind type (Argument.block type)).unwinding fun _ =>
    moves_arm stays

end Mirrors

end Construction

open Construction in
/-- The machine runs a script as the library does. -/
theorem Script.mirrors (script : Script σ α) : Mirrors script.run script.runFlat := by
  induction script with
  | pure a => exact .pure a
  | throw e => exact .throw e
  | bind _ _ first next => exact .bind first next
  | tryCatch _ _ attempt handler => exact .tryCatch attempt handler
  | client step => exact .client step
  | inspect query => exact .inspect query
  | addLocal type => exact .addLocal type
  | perform d argument => exact .perform d argument
  | instr name argument operands => exact .instr name argument operands
  | block type body inner =>
      exact .structured "block" .block type (fun label => (body label).continuing.stays) inner
  | loop type body inner =>
      exact .structured "loop" .loop type (fun label => (body label).continuing.stays) inner
  | ifThen type body inner =>
      rw [run, ifThen_eq_atomically]
      exact (Mirrors.ifThenSteps inner type).unwinding fun _ =>
        moves_ifThenSteps fun label => (body label).continuing.stays
  | ifElse type thenBody elseBody innerThen innerElse =>
      rw [run, ifElse_eq_atomically]
      exact (Mirrors.ifElseSteps innerThen innerElse type).unwinding fun _ =>
        moves_ifElseSteps (fun label => (thenBody label).continuing.stays)
          fun label => (elseBody label).continuing.stays

/-! ## Whole bodies -/

/-- The machine builds the body of a function. -/
def FuncBody.constructFlat (type : FuncType) (client : σ) (build : FlatConstruction σ Unit) :
    Option (Except FinishFault FuncBody × σ) :=
  match build ⟨FlatContext.forFunction type, client⟩ with
  | some (.ok _ after) => after.machine.finish.run.map fun result => (result, after.client)
  | some (.error e after) => some (.error (.refused e), after.client)
  | none => none

/-- The machine builds what the library builds. -/
theorem Script.constructFlat_eq (type : FuncType) (client : σ) (build : Script σ Unit) :
    FuncBody.constructFlat type client build.runFlat =
      some ((FuncBody.construct type client build.run).1.mapError .refused,
        (FuncBody.construct type client build.run).2) := by
  have start : (Context.forFunction type).Declared := Context.declared_forFunction type
  have same : build.runFlat ⟨FlatContext.forFunction type, client⟩ = _ :=
    build.mirrors.same ⟨Context.forFunction type, client⟩ start
  rw [FuncBody.constructFlat, FuncBody.construct, same]
  cases ran : build.run ⟨Context.forFunction type, client⟩ with
  | error e after => rfl
  | ok u after =>
      have ended := build.continuing _ _ (.of_ok ran)
      obtain ⟨drafts, written⟩ := ended.frame
      have finished : after.context.flat.finish.run =
          some (after.context.finish.mapError .refused) :=
        after.context.finish_flat written.outer (ended.grows.declared start)
      exact congrArg (Option.map fun result => (result, after.client)) finished

end Wasm
