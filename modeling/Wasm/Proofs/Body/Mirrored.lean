import Wasm.Proofs.Body.Renaming

/-!
# The same program under other ids

Two clients make the same calls, but got other ids for their handles. What one
of them writes is what the other one writes, with the ids changed. The clients
may have states of their own, as long as they cannot be told apart by a
relation between these.
-/

namespace Wasm

/-! ## Handles that correspond -/

/-- For each class, the places in one builder of the entities of another one,
in the order of the latter. -/
abbrev Places := ExternKind → List Nat

namespace Places

/-- The renaming sends each entity to its place. -/
def Agrees (p : Places) (ρ : Renaming) : Prop :=
  ∀ kind i id, (p kind)[i]? = some id → ρ kind i = id

/-- `x'` is `x` with each handle replaced by the one of its place. A handle
without a place could be replaced by anything, so `x` has none. -/
def Renames {α : Type} (p : Places) (rename : Renaming → α → α) (x x' : α) : Prop :=
  ∀ ρ, p.Agrees ρ → x' = rename ρ x

end Places

namespace Construction

variable {σ σ' α α' β β' : Type}

/-- Both programs are made of the same operations of the library. The handles
in the second one are in the places of those in the first one, results are
related by `R`, and so are the states of the clients by `S`. -/
inductive Alike (p : Places) (S : σ → σ' → Prop) : {α α' : Type} → (α → α' → Prop) →
    Construction σ α → Construction σ' α' → Prop
  | pure {α α' : Type} {R : α → α' → Prop} {a : α} {a' : α'} (same : R a a') :
      Alike p S R (Pure.pure a) (Pure.pure a')
  | throw {α α' : Type} {R : α → α' → Prop} (e : BuildError) :
      Alike p S R (throw e : Construction σ α) (throw e : Construction σ' α')
  | bind {α α' β β' : Type} {Q : α → α' → Prop} {R : β → β' → Prop} {act : Construction σ α}
      {act' : Construction σ' α'} {next : α → Construction σ β} {next' : α' → Construction σ' β'}
      (first : Alike p S Q act act')
      (second : ∀ a a', Q a a' → Alike p S R (next a) (next' a')) :
      Alike p S R (act >>= next) (act' >>= next')
  | tryCatch {α α' : Type} {R : α → α' → Prop} {act : Construction σ α}
      {act' : Construction σ' α'} {handler : BuildError → Construction σ α}
      {handler' : BuildError → Construction σ' α'} (first : Alike p S R act act')
      (second : ∀ e, Alike p S R (handler e) (handler' e)) :
      Alike p S R (tryCatch act handler) (tryCatch act' handler')
  /-- Steps of the clients themselves. -/
  | client {α α' : Type} {R : α → α' → Prop} {step : σ → α × σ} {step' : σ' → α' × σ'}
      (same : ∀ s s', S s s' → R (step s).1 (step' s').1 ∧ S (step s).2 (step' s').2) :
      Alike p S R (fun w => .ok (step w.client).1 { w with client := (step w.client).2 })
        (fun w => .ok (step' w.client).1 { w with client := (step' w.client).2 })
  | inspect {α α' : Type} {R : α → α' → Prop} {query : Context → Except BuildError α}
      {query' : Context → Except BuildError α'}
      (same : ∀ ρ, p.Agrees ρ → ∀ c : Context,
        (∀ a, query c = .ok a → ∃ a', query' (c.rename ρ) = .ok a' ∧ R a a') ∧
          ∀ e, query c = .error e → query' (c.rename ρ) = .error e) :
      Alike p S R (Construction.inspect query) (Construction.inspect query')
  | addLocal (type : ValType) :
      Alike p S Eq (Construction.addLocal type) (Construction.addLocal type)
  /-- Code made by hand is recorded with its references under their other ids. -/
  | perform (d : InstrDef) {argument argument' : Argument}
      (given : p.Renames Argument.rename argument argument') :
      Alike p S Eq (Construction.perform d argument) (Construction.perform d argument')
  | instr (name : String) {argument argument' : Argument} {operands operands' : List Operand}
      (given : p.Renames Argument.rename argument argument')
      (taken : p.Renames (fun ρ => List.map (Operand.rename ρ)) operands operands') :
      Alike p S Eq (Construction.instr name argument operands)
        (Construction.instr name argument' operands')
  | block {type : FuncType} {body : Label → Construction σ Unit}
      {body' : Label → Construction σ' Unit}
      (inner : ∀ label, Alike p S Eq (body label) (body' label)) :
      Alike p S Eq (Construction.block type body) (Construction.block type body')
  | loop {type : FuncType} {body : Label → Construction σ Unit}
      {body' : Label → Construction σ' Unit}
      (inner : ∀ label, Alike p S Eq (body label) (body' label)) :
      Alike p S Eq (Construction.loop type body) (Construction.loop type body')
  | ifThen {type : FuncType} {body : Label → Construction σ Unit}
      {body' : Label → Construction σ' Unit}
      (inner : ∀ label, Alike p S Eq (body label) (body' label)) :
      Alike p S Eq (Construction.ifThen type body) (Construction.ifThen type body')
  | ifElse {type : FuncType} {thenBody elseBody : Label → Construction σ Unit}
      {thenBody' elseBody' : Label → Construction σ' Unit}
      (innerThen : ∀ label, Alike p S Eq (thenBody label) (thenBody' label))
      (innerElse : ∀ label, Alike p S Eq (elseBody label) (elseBody' label)) :
      Alike p S Eq (Construction.ifElse type thenBody elseBody)
        (Construction.ifElse type thenBody' elseBody')

/-! ## Runs -/

variable {ρ : Renaming} {S : σ → σ' → Prop}

/-- The second body is the first one under other ids. -/
structure Mirrored (ρ : Renaming) (S : σ → σ' → Prop) (w : Workspace σ) (w' : Workspace σ') :
    Prop where
  context : w'.context = w.context.rename ρ
  client : S w.client w'.client

/-- Both runs succeed with related results, or fail with the same error. -/
inductive SameOutcome (ρ : Renaming) (S : σ → σ' → Prop) (R : α → α' → Prop) :
    EStateM.Result BuildError (Workspace σ) α → EStateM.Result BuildError (Workspace σ') α' → Prop
  | ok {a : α} {a' : α'} {w : Workspace σ} {w' : Workspace σ'} (same : R a a')
      (after : Mirrored ρ S w w') : SameOutcome ρ S R (.ok a w) (.ok a' w')
  | error {e : BuildError} {w : Workspace σ} {w' : Workspace σ'} (after : Mirrored ρ S w w') :
      SameOutcome ρ S R (.error e w) (.error e w')

/-- The second program does what the first one does, under other ids. -/
def Follows (ρ : Renaming) (S : σ → σ' → Prop) (R : α → α' → Prop) (act : Construction σ α)
    (act' : Construction σ' α') : Prop :=
  ∀ w w', Mirrored ρ S w w' → SameOutcome ρ S R (act w) (act' w')

namespace Follows

variable {R : α → α' → Prop} {Q : β → β' → Prop}

theorem pure {a : α} {a' : α'} (same : R a a') :
    Follows ρ S R (Pure.pure a) (Pure.pure a') :=
  fun _ _ before => .ok same before

theorem throw (e : BuildError) :
    Follows ρ S R (throw e : Construction σ α) (throw e : Construction σ' α') :=
  fun _ _ before => .error before

theorem bind {act : Construction σ β} {act' : Construction σ' β'} {next : β → Construction σ α}
    {next' : β' → Construction σ' α'} (first : Follows ρ S Q act act')
    (second : ∀ a a', Q a a' → Follows ρ S R (next a) (next' a')) :
    Follows ρ S R (act >>= next) (act' >>= next') := by
  intro w w' before
  show SameOutcome ρ S R (EStateM.bind act next w) (EStateM.bind act' next' w')
  unfold EStateM.bind
  have outcome := first w w' before
  revert outcome
  generalize act w = result
  generalize act' w' = result'
  rintro (⟨same, after⟩ | ⟨after⟩)
  · exact second _ _ same _ _ after
  · exact .error after

theorem tryCatch {act : Construction σ α} {act' : Construction σ' α'}
    {handler : BuildError → Construction σ α} {handler' : BuildError → Construction σ' α'}
    (first : Follows ρ S R act act') (second : ∀ e, Follows ρ S R (handler e) (handler' e)) :
    Follows ρ S R (tryCatch act handler) (tryCatch act' handler') := by
  intro w w' before
  show SameOutcome ρ S R (EStateM.tryCatch act handler w) (EStateM.tryCatch act' handler' w')
  unfold EStateM.tryCatch
  have outcome := first w w' before
  revert outcome
  generalize act w = result
  generalize act' w' = result'
  rintro (⟨same, after⟩ | ⟨after⟩)
  · exact .ok same after
  · exact second _ _ _ after

theorem change {f : Context → α × Context}
    (same : ∀ c : Context, f (c.rename ρ) = ((f c).1, (f c).2.rename ρ)) :
    Follows ρ S Eq (Construction.change f) (Construction.change f) := by
  rintro ⟨c, s⟩ ⟨c', s'⟩ ⟨rfl, client⟩
  show SameOutcome ρ S Eq (.ok (f c).1 ⟨(f c).2, s⟩)
    (.ok (f (c.rename ρ)).1 ⟨(f (c.rename ρ)).2, s'⟩)
  rw [same]
  exact .ok rfl ⟨rfl, client⟩

/-- A change of the body whose result has ids itself. -/
theorem updateWith {f f' : Context → Except BuildError (α × Context)} (rename : α → α)
    (same : ∀ c : Context,
      f' (c.rename ρ) = (f c).map fun done => (rename done.1, done.2.rename ρ)) :
    Follows ρ S (fun a a' => rename a = a') (Construction.update f) (Construction.update f') := by
  rintro ⟨c, s⟩ ⟨c', s'⟩ ⟨rfl, client⟩
  unfold Construction.update
  simp only [same]
  cases f c with
  | error e => exact .error ⟨rfl, client⟩
  | ok done => exact .ok rfl ⟨rfl, client⟩

theorem update {f f' : Context → Except BuildError (α × Context)}
    (same : ∀ c : Context, f' (c.rename ρ) = (f c).map fun done => (done.1, done.2.rename ρ)) :
    Follows ρ S Eq (Construction.update f) (Construction.update f') :=
  updateWith id same

theorem atomically {act : Construction σ α} {act' : Construction σ' α'}
    (h : Follows ρ S R act act') :
    Follows ρ S R (Construction.atomically act) (Construction.atomically act') := by
  intro w w' before
  unfold Construction.atomically
  have outcome := h w w' before
  revert outcome
  generalize act w = result
  generalize act' w' = result'
  rintro (⟨same, after⟩ | ⟨after⟩)
  · exact .ok same after
  · refine .error ⟨?_, after.client⟩
    simp only [after.context, before.context, Context.rollbackTo_rename]

theorem inspect {query : Context → Except BuildError α} {query' : Context → Except BuildError α'}
    (same : ∀ c : Context, (∀ a, query c = .ok a → ∃ a', query' (c.rename ρ) = .ok a' ∧ R a a') ∧
      ∀ e, query c = .error e → query' (c.rename ρ) = .error e) :
    Follows ρ S R (Construction.inspect query) (Construction.inspect query') := by
  rintro ⟨c, s⟩ ⟨c', s'⟩ ⟨rfl, client⟩
  obtain ⟨answers, fails⟩ := same c
  unfold Construction.inspect
  dsimp only
  cases asked : query c with
  | error e =>
      rw [fails e asked]
      exact .error ⟨rfl, client⟩
  | ok a =>
      obtain ⟨a', answered, related⟩ := answers a asked
      rw [answered]
      exact .ok related ⟨rfl, client⟩

/-- A check that has nothing to do with ids. -/
theorem guard {p : Prop} [Decidable p] {act : Construction σ α} {act' : Construction σ' α'}
    {e : BuildError} {next : β → Construction σ α} {next' : β' → Construction σ' α'}
    (h : Follows ρ S R act act') :
    Follows ρ S R (if p then MonadExcept.throw e >>= next else act)
      (if p then MonadExcept.throw e >>= next' else act') := by
  split
  · exact fun _ _ before => .error before
  · exact h

theorem require {p : Prop} [Decidable p] {act : Construction σ α} {act' : Construction σ' α'}
    {e : BuildError} {next : β → Construction σ α} {next' : β' → Construction σ' α'}
    (h : Follows ρ S R act act') :
    Follows ρ S R (if p then act else MonadExcept.throw e >>= next)
      (if p then act' else MonadExcept.throw e >>= next') := by
  split
  · exact h
  · exact fun _ _ before => .error before

theorem definition (name : String) :
    Follows ρ S Eq (Construction.definition name) (Construction.definition name) := by
  intro w w' before
  unfold Construction.definition
  cases InstrSet.standard.named name with
  | error e => exact .error before
  | ok d => exact .ok rfl before

/-! ## Single instructions -/

theorem perform (d : InstrDef) (argument : Argument) :
    Follows ρ S Eq (Construction.perform d argument)
      (Construction.perform d (argument.rename ρ)) :=
  update fun _ => Context.perform_rename d argument

/-- The instruction of an operand. -/
theorem named (name : String) (argument : Argument) :
    Follows ρ S Eq
      (do let _ ← Construction.perform (← Construction.definition name) argument)
      (do let _ ← Construction.perform (← Construction.definition name) (argument.rename ρ)) := by
  refine bind (definition name) ?_
  rintro d _ rfl
  refine bind (perform d argument) ?_
  rintro vars _ rfl
  exact pure rfl

theorem pushOperand (operand : Operand) :
    Follows ρ S Eq (Construction.pushOperand operand)
      (Construction.pushOperand (operand.rename ρ)) := by
  cases operand with
  | stack | var v => exact pure rfl
  | _ => exact named _ _

theorem pushOperands (operands : List Operand) :
    Follows ρ S Eq (Construction.pushOperands operands)
      (Construction.pushOperands (operands.map (Operand.rename ρ))) := by
  induction operands with
  | nil => exact pure rfl
  | cons operand rest ih => exact bind (pushOperand operand) fun _ _ _ => ih

theorem isOnStack_rename : (·.isOnStack) ∘ Operand.rename ρ = (·.isOnStack) := by
  funext operand
  cases operand <;> rfl

theorem bindOperands (name : String) (operands : List Operand) :
    Follows ρ S Eq (Construction.bindOperands name operands)
      (Construction.bindOperands name (operands.map (Operand.rename ρ))) := by
  unfold Construction.bindOperands
  simp only [List.takeWhile_map, List.dropWhile_map, List.any_map, isOnStack_rename]
  have checked : ∀ onStack : List Operand, Follows ρ S Eq
      (Construction.inspect (·.checkPlaces name 0 onStack))
      (Construction.inspect (·.checkPlaces name 0 (onStack.map (Operand.rename ρ)))) := by
    refine fun onStack => inspect fun c => ?_
    rw [Context.checkPlaces_rename]
    exact ⟨fun a answered => ⟨a, answered, rfl⟩, fun e failed => failed⟩
  exact guard (bind (checked _) fun _ _ _ => pushOperands _)

theorem instr (name : String) (argument : Argument) (operands : List Operand) :
    Follows ρ S Eq (Construction.instr name argument operands)
      (Construction.instr name (argument.rename ρ) (operands.map (Operand.rename ρ))) := by
  refine bind (definition name) ?_
  rintro d _ rfl
  exact guard (atomically (bind (bindOperands d.name operands) fun _ _ _ => perform d argument))

/-! ## Structured constructs -/

theorem takeOperands (name : String) (types : List ValType) :
    Follows ρ S Eq (Construction.takeOperands name types)
      (Construction.takeOperands name types) := by
  refine update fun c => ?_
  rw [Context.pop_rename]
  cases c.pop name types <;> rfl

theorem enter (kind : FrameKind) (type : FuncType) :
    Follows ρ S Eq (Construction.enter kind type) (Construction.enter kind type) :=
  change fun _ => Context.enter_rename kind type

theorem conclude (d : InstrDef) (argument : Argument) :
    Follows ρ S Eq (Construction.conclude d argument)
      (Construction.conclude d (argument.rename ρ)) :=
  update fun _ => Context.conclude_rename d argument

theorem structured {body : Label → Construction σ Unit} {body' : Label → Construction σ' Unit}
    (name : String) (kind : FrameKind) (type : FuncType)
    (inner : ∀ label, Follows ρ S Eq (body label) (body' label)) :
    Follows ρ S Eq (Construction.structured name kind type body)
      (Construction.structured name kind type body') := by
  refine bind (definition name) ?_
  rintro d _ rfl
  refine atomically (bind (takeOperands name type.params) fun _ _ _ => ?_)
  refine bind (enter kind type) ?_
  rintro label _ rfl
  refine bind (inner label) fun _ _ _ => ?_
  refine bind (updateWith (Draft.renameAll ρ) fun _ => Context.exit_rename) ?_
  rintro body _ rfl
  exact conclude d (.block type body)

theorem ifThen {body : Label → Construction σ Unit} {body' : Label → Construction σ' Unit}
    (type : FuncType) (inner : ∀ label, Follows ρ S Eq (body label) (body' label)) :
    Follows ρ S Eq (Construction.ifThen type body) (Construction.ifThen type body') := by
  refine require (bind (definition "if") ?_)
  rintro d _ rfl
  refine atomically (bind (takeOperands "if" _) fun _ _ _ => ?_)
  refine bind (enter .thenArm type) ?_
  rintro label _ rfl
  refine bind (inner label) fun _ _ _ => ?_
  refine bind (updateWith (Draft.renameAll ρ) fun _ => Context.exit_rename) ?_
  rintro body _ rfl
  exact conclude d (.ifThen type body)

theorem ifElse {thenBody elseBody : Label → Construction σ Unit}
    {thenBody' elseBody' : Label → Construction σ' Unit} (type : FuncType)
    (innerThen : ∀ label, Follows ρ S Eq (thenBody label) (thenBody' label))
    (innerElse : ∀ label, Follows ρ S Eq (elseBody label) (elseBody' label)) :
    Follows ρ S Eq (Construction.ifElse type thenBody elseBody)
      (Construction.ifElse type thenBody' elseBody') := by
  refine bind (definition "if") ?_
  rintro d _ rfl
  refine atomically (bind (takeOperands "if" _) fun _ _ _ => ?_)
  refine bind (enter .thenArm type) ?_
  rintro label _ rfl
  refine bind (innerThen label) fun _ _ _ => ?_
  refine bind (updateWith (Draft.renameAll ρ) fun _ => Context.switchToElse_rename) ?_
  rintro thenBody _ rfl
  refine bind (innerElse label) fun _ _ _ => ?_
  refine bind (updateWith (Draft.renameAll ρ) fun _ => Context.exit_rename) ?_
  rintro elseBody _ rfl
  exact conclude d (.ifElse type thenBody elseBody)

end Follows

/-- Programs that are alike behave alike. -/
theorem Alike.follows {p : Places} {R : α → α' → Prop} {act : Construction σ α}
    {act' : Construction σ' α'} (alike : Alike p S R act act') (agrees : p.Agrees ρ) :
    Follows ρ S R act act' := by
  induction alike with
  | pure same => exact .pure same
  | throw e => exact .throw e
  | bind _ _ first second => exact .bind first second
  | tryCatch _ _ first second => exact .tryCatch first second
  | client same =>
      intro w w' before
      obtain ⟨result, client⟩ := same _ _ before.client
      exact .ok result ⟨before.context, client⟩
  | inspect same => exact .inspect (same ρ agrees)
  | addLocal type => exact .change fun _ => rfl
  | perform d given =>
      cases given ρ agrees
      exact .perform d _
  | instr name given taken =>
      cases given ρ agrees
      cases taken ρ agrees
      exact .instr name _ _
  | block _ inner => exact .structured "block" .block _ inner
  | loop _ inner => exact .structured "loop" .loop _ inner
  | ifThen _ inner => exact .ifThen _ inner
  | ifElse _ _ innerThen innerElse => exact .ifElse _ innerThen innerElse

end Construction

theorem Context.finish_rename {ρ : Renaming} (c : Context) :
    (c.rename ρ).finish =
      c.finish.map fun body => { body with code := Draft.renameAll ρ body.code } := by
  rw [finish, finish, checkEnd_rename]
  cases c.checkEnd with
  | error e => rfl
  | ok _ =>
      show Except.ok (FuncBody.mk c.declaredLocals (c.frame.rename ρ).body) = Except.ok _
      rw [body_rename]

/-- Alike programs build the same body under other ids, or both fail. -/
theorem FuncBody.construct_alike {σ σ' : Type} {p : Places} {ρ : Renaming} {S : σ → σ' → Prop}
    {client : σ} {client' : σ'} {build : Construction σ Unit} {build' : Construction σ' Unit}
    (alike : Construction.Alike p S Eq build build') (same : S client client')
    (agrees : p.Agrees ρ) (type : FuncType) :
    (FuncBody.construct type client' build').1 =
      (FuncBody.construct type client build).1.map fun body =>
        { body with code := Draft.renameAll ρ body.code } := by
  have outcome := alike.follows agrees ⟨Context.forFunction type, client⟩
    ⟨Context.forFunction type, client'⟩ ⟨rfl, same⟩
  unfold FuncBody.construct
  revert outcome
  generalize build ⟨Context.forFunction type, client⟩ = result
  generalize build' ⟨Context.forFunction type, client'⟩ = result'
  rintro (⟨-, after⟩ | ⟨after⟩)
  · simp only [after.context, Context.finish_rename]
  · rfl

end Wasm
