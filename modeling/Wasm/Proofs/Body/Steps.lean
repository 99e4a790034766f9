import Wasm.Proofs.Body.Program

/-!
# What one operation does to a body

A step either fails, or what it did can be read off its result. A step that
ends in the frame where it began has only added to that frame: `Extends c
drafts c'` says that it wrote `drafts` there, that the values of the frame may
have changed, and that everything around the frame is as it was. Locals and
ids only ever grow, also through a failure.
-/

namespace Wasm

/-! ## Operands taken away -/

/-- A frame without its top values. -/
def Frame.without (frame : Frame) (count : Nat) : Frame :=
  { frame with values := frame.values.drop count }

/-- The body without the top values of the current frame. -/
def Context.without (c : Context) (count : Nat) : Context :=
  { c with frame := c.frame.without count }

@[simp] theorem Context.values_without (c : Context) (count : Nat) :
    (c.without count).frame.values = c.frame.values.drop count := rfl

/-! ## What no failure undoes -/

namespace Context

structure Grows (c c' : Context) : Prop where
  locals : c.locals.toList <+: c'.locals.toList
  paramCount : c'.paramCount = c.paramCount
  varsMade : c.varsMade ≤ c'.varsMade
  labelsMade : c.labelsMade ≤ c'.labelsMade

theorem Grows.refl (c : Context) : c.Grows c :=
  ⟨List.prefix_rfl, rfl, Nat.le_refl _, Nat.le_refl _⟩

theorem Grows.trans {c₁ c₂ c₃ : Context} (first : c₁.Grows c₂) (second : c₂.Grows c₃) :
    c₁.Grows c₃ where
  locals := first.locals.trans second.locals
  paramCount := second.paramCount.trans first.paramCount
  varsMade := Nat.le_trans first.varsMade second.varsMade
  labelsMade := Nat.le_trans first.labelsMade second.labelsMade

/-- Frames are not part of what grows. -/
theorem Grows.frames (c : Context) (frame : Frame) (outer : List Frame) :
    c.Grows { c with frame, outer } :=
  ⟨List.prefix_rfl, rfl, Nat.le_refl _, Nat.le_refl _⟩

/-! ## What a step adds to its frame -/

structure Extends (c : Context) (drafts : List Draft) (c' : Context) : Prop extends
    Grows c c' where
  frame : ∃ values unreachable, c'.frame =
    { c.frame with values, unreachable, written := drafts.reverse ++ c.frame.written }
  outer : c'.outer = c.outer

theorem Extends.trans {c₁ c₂ c₃ : Context} {drafts drafts' : List Draft}
    (first : c₁.Extends drafts c₂) (second : c₂.Extends drafts' c₃) :
    c₁.Extends (drafts ++ drafts') c₃ where
  toGrows := first.toGrows.trans second.toGrows
  frame := by
    obtain ⟨values, unreachable, frame⟩ := first.frame
    obtain ⟨values', unreachable', frame'⟩ := second.frame
    refine ⟨values', unreachable', ?_⟩
    rw [frame', frame, List.reverse_append, List.append_assoc]
  outer := second.outer.trans first.outer

/-! ## What a failure leaves -/

/-- All frames are as they were. -/
structure Undone (c c' : Context) : Prop extends Grows c c' where
  frame : c'.frame = c.frame
  outer : c'.outer = c.outer

theorem Undone.refl (c : Context) : c.Undone c :=
  ⟨Grows.refl c, rfl, rfl⟩

theorem Undone.extends {c c' : Context} (h : c.Undone c') : c.Extends [] c' :=
  ⟨h.toGrows, ⟨c.frame.values, c.frame.unreachable, h.frame⟩, h.outer⟩

theorem Grows.rollback {c c' : Context} (h : c.Grows c') : c.Undone (c'.rollbackTo c) :=
  ⟨⟨h.locals, rfl, h.varsMade, h.labelsMade⟩, rfl, rfl⟩

/-! ## Types of values -/

/-- The types of fresh values are those that were asked for. -/
theorem map_type_freshVars (next : Nat) (types : List ValType) :
    (freshVars next types).map (·.type) = types := by
  rw [freshVars, List.map_map]
  exact List.zipIdx_map_fst 0 types

/-- Values are compared with types as far as there are both. -/
theorem agree_iff {vars : List StackVar} {types : List ValType} :
    agree vars types = true ↔ vars.map (·.type) <+: types ∨ types <+: vars.map (·.type) := by
  induction vars generalizing types with
  | nil => simp [agree]
  | cons var vars ih =>
      cases types with
      | nil => simp [agree]
      | cons type types =>
          rw [agree, Bool.and_eq_true, beq_iff_eq, ih, List.map_cons, List.cons_prefix_cons,
            List.cons_prefix_cons, eq_comm (a := type), and_or_left]

/-! ## Steps on contexts -/

theorem undone_addLocal (c : Context) (type : ValType) : c.Undone (c.addLocal type).2 := by
  refine ⟨⟨?_, rfl, Nat.le_refl _, Nat.le_refl _⟩, rfl, rfl⟩
  simp [addLocal]

theorem pop_eq_ok {c c' : Context} {name : String} {types : List ValType} :
    c.pop name types = .ok c' ↔
      c.checkTop name types 0 = .ok () ∧ c' = c.without types.length := by
  rw [pop, Except.bind_eq_ok]
  constructor
  · rintro ⟨_, checked, same⟩
    cases same
    exact ⟨checked, rfl⟩
  · rintro ⟨checked, rfl⟩
    exact ⟨(), checked, rfl⟩

theorem extends_pop {c c' : Context} {name : String} {types : List ValType}
    (h : c.pop name types = .ok c') : c.Extends [] c' := by
  obtain ⟨-, rfl⟩ := pop_eq_ok.mp h
  exact ⟨Grows.frames c _ _, ⟨_, _, rfl⟩, rfl⟩

theorem extends_push (c : Context) (types : List ValType) : c.Extends [] (c.push types).2 :=
  ⟨⟨List.prefix_rfl, rfl, Nat.le_add_right _ _, Nat.le_refl _⟩, ⟨_, c.frame.unreachable, rfl⟩, rfl⟩

theorem extends_write (c : Context) (draft : Draft) : c.Extends [draft] (c.write draft) :=
  ⟨Grows.frames c _ _, ⟨c.frame.values, c.frame.unreachable, rfl⟩, rfl⟩

theorem extends_markUnreachable (c : Context) : c.Extends [] c.markUnreachable :=
  ⟨Grows.frames c _ _, ⟨_, _, rfl⟩, rfl⟩

/-- The parts of writing one instruction. -/
theorem perform_eq_ok {c c' : Context} {d : InstrDef} {argument : Argument}
    {vars : List StackVar} :
    c.perform d argument = .ok (vars, c') ↔ ∃ effect popped,
      d.effect c argument = .ok effect ∧ c.pop d.name effect.params = .ok popped ∧
      vars = (popped.push effect.results).1 ∧
      c' = if effect.diverges
        then ((popped.push effect.results).2.write (draftOf d effect)).markUnreachable
        else (popped.push effect.results).2.write (draftOf d effect) := by
  simp only [perform, Except.bind_eq_ok, Except.pure_eq_ok, Except.ok.injEq, Prod.mk.injEq]
  constructor
  · rintro ⟨effect, found, popped, taken, rfl, rfl⟩
    exact ⟨effect, popped, found, taken, rfl, rfl⟩
  · rintro ⟨effect, popped, found, taken, rfl, rfl⟩
    exact ⟨effect, found, popped, taken, rfl, rfl⟩

theorem extends_perform {c c' : Context} {d : InstrDef} {argument : Argument}
    {vars : List StackVar} (h : c.perform d argument = .ok (vars, c')) :
    ∃ effect, d.effect c argument = .ok effect ∧ c.Extends [draftOf d effect] c' := by
  obtain ⟨effect, popped, found, taken, rfl, rfl⟩ := perform_eq_ok.mp h
  refine ⟨effect, found, ?_⟩
  have written := ((extends_pop taken).trans (extends_push popped effect.results)).trans
    (extends_write _ (draftOf d effect))
  split
  · exact written.trans (extends_markUnreachable _)
  · exact written

theorem conclude_eq_ok {c c' : Context} {d : InstrDef} {argument : Argument}
    {vars : List StackVar} :
    c.conclude d argument = .ok (vars, c') ↔ ∃ effect, d.effect c argument = .ok effect ∧
      vars = (c.push effect.results).1 ∧
      c' = (c.push effect.results).2.write (draftOf d effect) := by
  simp only [conclude, Except.bind_eq_ok, Except.pure_eq_ok, Except.ok.injEq, Prod.mk.injEq]
  constructor
  · rintro ⟨effect, found, rfl, rfl⟩
    exact ⟨effect, found, rfl, rfl⟩
  · rintro ⟨effect, found, rfl, rfl⟩
    exact ⟨effect, found, rfl, rfl⟩

theorem extends_conclude {c c' : Context} {d : InstrDef} {argument : Argument}
    {vars : List StackVar} (h : c.conclude d argument = .ok (vars, c')) :
    ∃ effect, d.effect c argument = .ok effect ∧ c.Extends [draftOf d effect] c' := by
  obtain ⟨effect, found, rfl, rfl⟩ := conclude_eq_ok.mp h
  exact ⟨effect, found, (extends_push c effect.results).trans (extends_write _ _)⟩

theorem grows_conclude {c c' : Context} {d : InstrDef} {argument : Argument}
    {vars : List StackVar} (h : c.conclude d argument = .ok (vars, c')) : c.Grows c' := by
  obtain ⟨effect, -, written⟩ := extends_conclude h
  exact written.toGrows

theorem exit_eq_ok {c c' : Context} {body : List Draft} :
    c.exit = .ok (body, c') ↔ c.checkEnd = .ok () ∧ body = c.frame.body ∧
      ∃ parent outer, c.outer = parent :: outer ∧ c' = { c with frame := parent, outer } := by
  rw [exit, Except.bind_eq_ok]
  constructor
  · rintro ⟨_, checked, closed⟩
    split at closed
    · rename_i parent outer around
      cases closed
      exact ⟨checked, rfl, parent, outer, around, rfl⟩
    · cases closed
  · rintro ⟨checked, rfl, parent, outer, around, rfl⟩
    refine ⟨(), checked, ?_⟩
    rw [around]
    rfl

theorem grows_exit {c c' : Context} {body : List Draft} (h : c.exit = .ok (body, c')) :
    c.Grows c' := by
  obtain ⟨-, -, parent, outer, -, rfl⟩ := exit_eq_ok.mp h
  exact Grows.frames c parent outer

theorem switchToElse_eq_ok {c c' : Context} {body : List Draft} :
    c.switchToElse = .ok (body, c') ↔ c.checkEnd = .ok () ∧ body = c.frame.body ∧
      c' = (Context.push { c with frame := { c.frame with
        kind := .elseArm, unreachable := false, values := [], written := [] } }
        c.frame.startTypes).2 := by
  rw [switchToElse, Except.bind_eq_ok]
  constructor
  · rintro ⟨_, checked, switched⟩
    cases switched
    exact ⟨checked, rfl, rfl⟩
  · rintro ⟨checked, rfl, rfl⟩
    exact ⟨(), checked, rfl⟩

theorem grows_switchToElse {c c' : Context} {body : List Draft}
    (h : c.switchToElse = .ok (body, c')) : c.Grows c' := by
  obtain ⟨-, -, rfl⟩ := switchToElse_eq_ok.mp h
  exact (Grows.frames c _ c.outer).trans (extends_push _ _).toGrows

/-! ## Inside a construct -/

/-- `inner` has just opened a frame, or the second arm of one, around `c`. -/
structure Inside (c inner : Context) : Prop extends Grows c inner where
  written : inner.frame.written = []
  outer : inner.outer = c.frame :: c.outer

theorem inside_enter (c : Context) (kind : FrameKind) (type : FuncType) :
    c.Inside (c.enter kind type).2 where
  locals := List.prefix_rfl
  paramCount := rfl
  varsMade := Nat.le_add_right _ _
  labelsMade := Nat.le_succ _
  written := rfl
  outer := rfl

theorem Inside.body_eq {c inner after : Context} {drafts : List Draft} (h : c.Inside inner)
    (ran : inner.Extends drafts after) : after.frame.body = drafts := by
  obtain ⟨values, unreachable, frame⟩ := ran.frame
  rw [frame, Frame.body, h.written, List.append_nil, List.reverse_reverse]

theorem Inside.switch {c inner after switched : Context} {drafts body : List Draft}
    (h : c.Inside inner) (ran : inner.Extends drafts after)
    (done : after.switchToElse = .ok (body, switched)) : body = drafts ∧ c.Inside switched := by
  obtain ⟨-, rfl, rfl⟩ := switchToElse_eq_ok.mp done
  refine ⟨h.body_eq ran, (h.toGrows.trans ran.toGrows).trans ?_, rfl, ran.outer.trans h.outer⟩
  exact (Grows.frames after _ after.outer).trans (extends_push _ after.frame.startTypes).toGrows

/-- Behind a construct everything around it is as it was. -/
theorem Inside.exit {c inner after closed : Context} {drafts body : List Draft}
    (h : c.Inside inner) (ran : inner.Extends drafts after)
    (done : after.exit = .ok (body, closed)) : body = drafts ∧ c.Extends [] closed := by
  obtain ⟨-, rfl, parent, outer, around, rfl⟩ := exit_eq_ok.mp done
  -- The frame that comes back is the one that was set aside at the start.
  obtain ⟨rfl, rfl⟩ := List.cons.inj (around.symm.trans (ran.outer.trans h.outer))
  refine ⟨h.body_eq ran, ?_⟩
  exact {
    (h.toGrows.trans ran.toGrows).trans (Grows.frames after c.frame c.outer) with
    frame := ⟨c.frame.values, c.frame.unreachable, rfl⟩
    outer := rfl }

end Context

namespace Construction

variable {σ α β : Type}

open EStateM (Leaves leaves_bind leaves_tryCatch)

/-! ## Steps of constructions -/

theorem inspect_leaves {query : Context → Except BuildError α} {w w' : Workspace σ}
    (h : Leaves (inspect query) w w') : w' = w := by
  simp only [Leaves, inspect] at h
  cases found : query w.context <;> simp_all

theorem update_eq_ok {f : Context → Except BuildError (α × Context)} {a : α}
    {w w' : Workspace σ} :
    update f w = .ok a w' ↔
      ∃ c, f w.context = .ok (a, c) ∧ w' = { w with context := c } := by
  rw [update]
  cases f w.context with
  | ok result => aesop
  | error e => simp

theorem update_eq_error {f : Context → Except BuildError (α × Context)} {e : BuildError}
    {w w' : Workspace σ} : update f w = .error e w' ↔ f w.context = .error e ∧ w' = w := by
  rw [update]
  cases f w.context with
  | ok result => simp
  | error e => simp [eq_comm]

theorem definition_eq_ok {name : String} {d : InstrDef} {w w' : Workspace σ} :
    definition name w = .ok d w' ↔ InstrSet.standard.named name = .ok d ∧ w' = w := by
  rw [definition]
  cases InstrSet.standard.named name with
  | ok d => simp [eq_comm]
  | error e => simp

theorem definition_leaves {name : String} {w w' : Workspace σ}
    (h : Leaves (definition name) w w') : w' = w := by
  simp only [Leaves, definition] at h
  cases found : InstrSet.standard.named name <;> simp_all

theorem atomically_eq_ok {act : Construction σ α} {a : α} {w w' : Workspace σ} :
    atomically act w = .ok a w' ↔ act w = .ok a w' := by
  rw [atomically]
  cases act w <;> simp

theorem atomically_eq_error {act : Construction σ α} {e : BuildError} {w w' : Workspace σ} :
    atomically act w = .error e w' ↔ ∃ after, act w = .error e after ∧
      w' = { after with context := after.context.rollbackTo w.context } := by
  rw [atomically]
  cases act w with
  | ok a after => simp
  | error e after => simp [eq_comm]

/-! ## What holds however a step ends -/

/-- However `act` ends, `R` holds between the bodies before and after it. -/
def Along (R : Context → Context → Prop) (act : Construction σ α) : Prop :=
  ∀ w w', Leaves act w w' → R w.context w'.context

namespace Along

section

variable {R : Context → Context → Prop} (refl : ∀ c, R c c)

include refl

theorem of_eq {act : Construction σ α} (h : ∀ w w', Leaves act w w' → w'.context = w.context) :
    Along R act := by
  intro w w' left
  rw [h w w' left]
  exact refl _

theorem pure (a : α) : Along R (Pure.pure a : Construction σ α) :=
  of_eq refl fun w w' left => by rcases left with ⟨_, same⟩ | ⟨_, same⟩ <;> cases same; rfl

theorem throw (e : BuildError) : Along R (throw e : Construction σ α) :=
  of_eq refl fun w w' left => by rcases left with ⟨_, same⟩ | ⟨_, same⟩ <;> cases same; rfl

theorem client (step : σ → α × σ) : Along R fun w : Workspace σ =>
    .ok (step w.client).1 { w with client := (step w.client).2 } :=
  of_eq refl fun w w' left => by rcases left with ⟨_, same⟩ | ⟨_, same⟩ <;> cases same; rfl

theorem inspect (query : Context → Except BuildError α) :
    Along R (inspect query : Construction σ α) :=
  of_eq refl fun _ _ left => congrArg Workspace.context (inspect_leaves left)

theorem definition (name : String) : Along R (definition (σ := σ) name) :=
  of_eq refl fun _ _ left => congrArg Workspace.context (definition_leaves left)

end

section

variable {R : Context → Context → Prop}
  (trans : ∀ {c₁ c₂ c₃ : Context}, R c₁ c₂ → R c₂ c₃ → R c₁ c₃)

include trans

theorem bind {act : Construction σ α} {next : α → Construction σ β} (first : Along R act)
    (second : ∀ a, Along R (next a)) : Along R (act >>= next) := by
  intro w w' left
  rcases leaves_bind.mp left with ⟨e, failed⟩ | ⟨a, w₁, done, rest⟩
  · exact first w w' (.inr ⟨e, failed⟩)
  · exact trans (first w w₁ (.of_ok done)) (second a w₁ w' rest)

/-- What was done before a failure stays, and the handler goes on from there. -/
theorem tryCatch {act : Construction σ α} {handler : BuildError → Construction σ α}
    (first : Along R act) (second : ∀ e, Along R (handler e)) :
    Along R (tryCatch act handler) := by
  intro w w' left
  rcases leaves_tryCatch.mp left with ⟨a, done⟩ | ⟨e, w₁, failed, rest⟩
  · exact first w w' (.inl ⟨a, done⟩)
  · exact trans (first w w₁ (.inr ⟨e, failed⟩)) (second e w₁ w' rest)

end

theorem ite {R : Context → Context → Prop} {p : Prop} [Decidable p] {act act' : Construction σ α}
    (pos : Along R act) (neg : Along R act') : Along R (if p then act else act') := by
  split
  · exact pos
  · exact neg

section

variable {R : Context → Context → Prop} (refl : ∀ c, R c c)
  (trans : ∀ {c₁ c₂ c₃ : Context}, R c₁ c₂ → R c₂ c₃ → R c₁ c₃)

include refl trans

theorem pushOperand (performed : ∀ d argument, Along R (perform (σ := σ) d argument))
    (operand : Operand) : Along R (pushOperand (σ := σ) operand) := by
  cases operand with
  | stack | var _ => exact pure refl ()
  | _ =>
      exact bind (R := R) trans (definition refl _) fun d =>
        bind (R := R) trans (performed d _) fun _ => pure refl ()

theorem pushOperands (each : ∀ operand, Along R (Construction.pushOperand (σ := σ) operand))
    (operands : List Operand) : Along R (pushOperands (σ := σ) operands) := by
  induction operands with
  | nil => exact pure refl ()
  | cons operand rest ih => exact bind (R := R) trans (each operand) fun _ => ih

/-- Operands are checked before any of them is pushed. -/
theorem bindOperands (each : ∀ operand, Along R (Construction.pushOperand (σ := σ) operand))
    (name : String) (operands : List Operand) :
    Along R (bindOperands (σ := σ) name operands) := by
  unfold Construction.bindOperands
  have rest : Along R (Construction.inspect (σ := σ)
      (·.checkPlaces name 0 (operands.takeWhile (·.isOnStack)))
      >>= fun _ => Construction.pushOperands (operands.dropWhile (·.isOnStack))) :=
    bind (R := R) trans (inspect refl _) fun _ => pushOperands refl trans each _
  exact ite (bind (R := R) trans (throw refl _) fun _ => rest) rest

end

end Along

/-! ## Locals and ids only grow -/

/-- Whether `act` succeeds or fails, locals and ids have only grown. -/
def Monotone (act : Construction σ α) : Prop :=
  ∀ w w', Leaves act w w' → w.context.Grows w'.context

theorem Monotone.pure (a : α) : Monotone (Pure.pure a : Construction σ α) :=
  Along.pure Context.Grows.refl a

theorem Monotone.throw (e : BuildError) : Monotone (throw e : Construction σ α) :=
  Along.throw Context.Grows.refl e

theorem Monotone.bind {act : Construction σ α} {next : α → Construction σ β}
    (first : Monotone act) (second : ∀ a, Monotone (next a)) : Monotone (act >>= next) :=
  Along.bind (R := Context.Grows) Context.Grows.trans first second

theorem Monotone.tryCatch {act : Construction σ α} {handler : BuildError → Construction σ α}
    (first : Monotone act) (second : ∀ e, Monotone (handler e)) :
    Monotone (tryCatch act handler) :=
  Along.tryCatch (R := Context.Grows) Context.Grows.trans first second

theorem Monotone.update {f : Context → Except BuildError (α × Context)}
    (h : ∀ c a c', f c = .ok (a, c') → c.Grows c') :
    Monotone (update f : Construction σ α) := by
  rintro w w' (⟨a, done⟩ | ⟨e, failed⟩)
  · obtain ⟨c, changed, rfl⟩ := update_eq_ok.mp done
    exact h _ a c changed
  · rw [(update_eq_error.mp failed).2]
    exact Context.Grows.refl _

theorem Monotone.change {f : Context → α × Context} (h : ∀ c : Context, c.Grows (f c).2) :
    Monotone (change f : Construction σ α) := by
  rintro w w' (⟨a, done⟩ | ⟨e, failed⟩)
  · cases done
    exact h w.context
  · cases failed

/-- A step that undoes its failures leaves the frames alone when it fails. -/
theorem Monotone.undone_of_error {act : Construction σ α} (h : Monotone act) {e : BuildError}
    {w w' : Workspace σ} (failed : Construction.atomically act w = .error e w') :
    w.context.Undone w'.context := by
  obtain ⟨after, stopped, rfl⟩ := atomically_eq_error.mp failed
  exact (h w after (.inr ⟨e, stopped⟩)).rollback

theorem monotone_definition (name : String) : Monotone (definition (σ := σ) name) :=
  Along.definition Context.Grows.refl name

/-- The same behind the look-up of a mnemonic. -/
theorem undone_of_named_error {name : String} {steps : InstrDef → Construction σ α}
    (monotone : ∀ d, Monotone (steps d)) {e : BuildError} {w w' : Workspace σ}
    (h : (definition name >>= fun d => atomically (steps d)) w = .error e w') :
    w.context.Undone w'.context := by
  rcases EStateM.bind_eq_error.mp h with unknown | ⟨d, w₁, looked, failed⟩
  · rw [definition_leaves (.inr ⟨e, unknown⟩)]
    exact Context.Undone.refl _
  · obtain ⟨-, rfl⟩ := definition_eq_ok.mp looked
    exact (monotone d).undone_of_error failed

theorem monotone_perform (d : InstrDef) (argument : Argument) :
    Monotone (perform (σ := σ) d argument) := by
  refine Monotone.update fun c vars c' done => ?_
  obtain ⟨effect, -, written⟩ := Context.extends_perform done
  exact written.toGrows

theorem monotone_pushOperand (operand : Operand) : Monotone (pushOperand (σ := σ) operand) :=
  Along.pushOperand Context.Grows.refl Context.Grows.trans monotone_perform operand

/-! ## Instructions -/

theorem inspect_eq_ok {query : Context → Except BuildError α} {a : α} {w w' : Workspace σ} :
    inspect query w = .ok a w' ↔ query w.context = .ok a ∧ w' = w := by
  rw [inspect]
  cases query w.context with
  | ok b => simp [eq_comm]
  | error e => simp

theorem bindOperands_eq_ok {name : String} {operands : List Operand} {w w' : Workspace σ} :
    bindOperands name operands w = .ok () w' ↔
      (operands.dropWhile (·.isOnStack)).any (·.isOnStack) = false ∧
      w.context.checkPlaces name 0 (operands.takeWhile (·.isOnStack)) = .ok () ∧
      pushOperands (operands.dropWhile (·.isOnStack)) w = .ok () w' := by
  unfold bindOperands
  cases mixed : (operands.dropWhile (·.isOnStack)).any (·.isOnStack) with
  | true =>
      simp only [if_true, EStateM.bind_eq_ok, Bool.true_eq_false, false_and, iff_false]
      rintro ⟨_, _, thrown, _⟩
      cases thrown
  | false => simp [EStateM.bind_eq_ok, inspect_eq_ok, Unique.exists_iff]

theorem monotone_bindOperands (name : String) (operands : List Operand) :
    Monotone (bindOperands (σ := σ) name operands) :=
  Along.bindOperands Context.Grows.refl Context.Grows.trans monotone_pushOperand name operands

theorem instr_eq_ok {name : String} {argument : Argument} {operands : List Operand}
    {vars : List StackVar} {w w' : Workspace σ} :
    instr name argument operands w = .ok vars w' ↔ ∃ d w₁,
      InstrSet.standard.named name = .ok d ∧ d.shape.isStructured = false ∧
      bindOperands d.name operands w = .ok () w₁ ∧ perform d argument w₁ = .ok vars w' := by
  simp only [instr, EStateM.bind_eq_ok, definition_eq_ok]
  constructor
  · rintro ⟨d, _, ⟨found, rfl⟩, done⟩
    split at done
    · obtain ⟨_, _, refused, -⟩ := EStateM.bind_eq_ok.mp done
      cases refused
    · rename_i plain
      obtain ⟨_, w₁, bound, performed⟩ := EStateM.bind_eq_ok.mp (atomically_eq_ok.mp done)
      exact ⟨d, w₁, found, Bool.eq_false_iff.mpr plain, bound, performed⟩
  · rintro ⟨d, w₁, found, plain, bound, performed⟩
    refine ⟨d, w, ⟨found, rfl⟩, ?_⟩
    rw [if_neg (Bool.eq_false_iff.mp plain)]
    exact atomically_eq_ok.mpr (EStateM.bind_eq_ok.mpr ⟨(), w₁, bound, performed⟩)

/-- An instruction that is refused leaves all frames as they were. -/
theorem undone_of_instr_error {name : String} {argument : Argument} {operands : List Operand}
    {e : BuildError} {w w' : Workspace σ} (h : instr name argument operands w = .error e w') :
    w.context.Undone w'.context := by
  rcases EStateM.bind_eq_error.mp h with unknown | ⟨d, w₁, looked, failed⟩
  · rw [definition_leaves (.inr ⟨e, unknown⟩)]
    exact Context.Undone.refl _
  · obtain ⟨-, rfl⟩ := definition_eq_ok.mp looked
    split at failed
    · rcases EStateM.bind_eq_error.mp failed with refused | ⟨_, _, refused, -⟩
      · cases refused
        exact Context.Undone.refl _
      · cases refused
    · -- Operands may have been written by now, and the rollback takes them away again.
      exact ((monotone_bindOperands _ _).bind fun _ => monotone_perform _ _).undone_of_error failed

/-! ## Structured constructs -/

/-- A construct opens if its operands can be taken off the stack. -/
theorem opening_eq_ok {name : String} {types : List ValType} {kind : FrameKind} {type : FuncType}
    {label : Label} {w w' : Workspace σ} :
    opening name types kind type w = .ok label w' ↔ ∃ c, w.context.pop name types = .ok c ∧
      label = (c.enter kind type).1 ∧ w' = { w with context := (c.enter kind type).2 } := by
  simp only [opening, takeOperands, EStateM.bind_eq_ok, update_eq_ok, Except.bind_eq_ok]
  constructor
  · rintro ⟨_, _, ⟨_, ⟨c, popped, same⟩, rfl⟩, opened⟩
    cases same
    cases opened
    exact ⟨_, popped, rfl, rfl⟩
  · rintro ⟨c, popped, rfl, rfl⟩
    exact ⟨(), _, ⟨c, ⟨c, popped, rfl⟩, rfl⟩, rfl⟩

/-- The second arm of a conditional opens behind a run of the first. -/
theorem openingElse_eq_ok {type : FuncType} {thenBody : Label → Construction σ Unit}
    {label : Label} {w w' : Workspace σ} :
    openingElse type thenBody w = .ok label w' ↔ ∃ inner after drafts,
      opening "if" (type.params ++ [.i32]) .thenArm type w = .ok label inner ∧
      thenBody label inner = .ok () after ∧
      update (·.switchToElse) after = .ok drafts w' := by
  simp only [openingElse, EStateM.bind_eq_ok]
  constructor
  · rintro ⟨_, inner, opened, _, after, ran, drafts, _, changed, last⟩
    cases last
    exact ⟨inner, after, drafts, opened, ran, changed⟩
  · rintro ⟨inner, after, drafts, opened, ran, changed⟩
    exact ⟨label, inner, opened, (), after, ran, drafts, w', changed, rfl⟩

theorem monotone_takeOperands (name : String) (types : List ValType) :
    Monotone (takeOperands (σ := σ) name types) := by
  refine Monotone.update fun c _ c' done => ?_
  obtain ⟨popped, taken, same⟩ := Except.bind_eq_ok.mp done
  cases same
  exact (Context.extends_pop taken).toGrows

theorem monotone_enter (kind : FrameKind) (type : FuncType) :
    Monotone (enter (σ := σ) kind type) := by
  refine Monotone.change fun c => ?_
  have entered : c.Grows { c with
      frame := { label := c.nextLabel, kind, startTypes := type.params, endTypes := type.results }
      outer := c.frame :: c.outer
      labelsMade := c.labelsMade + 1 } :=
    ⟨List.prefix_rfl, rfl, Nat.le_refl _, Nat.le_succ _⟩
  exact entered.trans (Context.extends_push _ type.params).toGrows

theorem monotone_exit : Monotone (update (σ := σ) (·.exit)) :=
  Monotone.update fun _ _ _ => Context.grows_exit

theorem monotone_switchToElse : Monotone (update (σ := σ) (·.switchToElse)) :=
  Monotone.update fun _ _ _ => Context.grows_switchToElse

theorem monotone_conclude (d : InstrDef) (argument : Argument) :
    Monotone (conclude (σ := σ) d argument) :=
  Monotone.update fun _ _ _ => Context.grows_conclude

/-- The look-up of a mnemonic, and the steps behind it. -/
theorem named_eq_ok {name : String} {steps : InstrDef → Construction σ α} {a : α}
    {w w' : Workspace σ} :
    (definition name >>= fun d => atomically (steps d)) w = .ok a w' ↔
      ∃ d, InstrSet.standard.named name = .ok d ∧ steps d w = .ok a w' := by
  simp only [EStateM.bind_eq_ok, definition_eq_ok, atomically_eq_ok]
  constructor
  · rintro ⟨d, _, ⟨found, rfl⟩, done⟩
    exact ⟨d, found, done⟩
  · rintro ⟨d, found, done⟩
    exact ⟨d, w, ⟨found, rfl⟩, done⟩

/-- Where a construct opens, the steps inside it begin. -/
theorem opening_bind_eq_ok {name : String} {types : List ValType} {kind : FrameKind}
    {type : FuncType} {inside : Label → Construction σ α} {a : α} {w w' : Workspace σ} :
    (do
      takeOperands name types
      let label ← enter kind type
      inside label) w = .ok a w' ↔
      ∃ label inner, opening name types kind type w = .ok label inner ∧
        inside label inner = .ok a w' := by
  simp only [opening, EStateM.bind_eq_ok]
  constructor
  · rintro ⟨_, w₁, taken, label, inner, entered, done⟩
    exact ⟨label, inner, ⟨(), w₁, taken, entered⟩, done⟩
  · rintro ⟨label, inner, ⟨_, w₁, taken, entered⟩, done⟩
    exact ⟨(), w₁, taken, label, inner, entered, done⟩

theorem structured_eq_ok {name : String} {kind : FrameKind} {type : FuncType}
    {body : Label → Construction σ Unit} {vars : List StackVar} {w w' : Workspace σ} :
    structured name kind type body w = .ok vars w' ↔
      ∃ d label inner after drafts closed, InstrSet.standard.named name = .ok d ∧
        opening name type.params kind type w = .ok label inner ∧
        body label inner = .ok () after ∧ update (·.exit) after = .ok drafts closed ∧
        conclude d (.block type drafts) closed = .ok vars w' := by
  simp only [structured, named_eq_ok, opening_bind_eq_ok]
  simp only [EStateM.bind_eq_ok, Unique.exists_iff, exists_and_left]

theorem ifThen_eq_ok {type : FuncType} {body : Label → Construction σ Unit}
    {vars : List StackVar} {w w' : Workspace σ} :
    ifThen type body w = .ok vars w' ↔
      type.params = type.results ∧ ∃ d label inner after drafts closed,
        InstrSet.standard.named "if" = .ok d ∧
        opening "if" (type.params ++ [.i32]) .thenArm type w = .ok label inner ∧
        body label inner = .ok () after ∧ update (·.exit) after = .ok drafts closed ∧
        conclude d (.ifThen type drafts) closed = .ok vars w' := by
  unfold ifThen
  by_cases same : type.params = type.results
  · rw [if_pos same]
    simp only [named_eq_ok, opening_bind_eq_ok]
    simp only [EStateM.bind_eq_ok, Unique.exists_iff, exists_and_left, same, true_and]
  · rw [if_neg same]
    constructor
    · intro done
      obtain ⟨_, _, refused, -⟩ := EStateM.bind_eq_ok.mp done
      cases refused
    · exact fun h => absurd h.1 same

theorem ifElse_eq_ok {type : FuncType} {thenBody elseBody : Label → Construction σ Unit}
    {vars : List StackVar} {w w' : Workspace σ} :
    ifElse type thenBody elseBody w = .ok vars w' ↔
      ∃ d label inner after drafts switched last elseDrafts closed,
        InstrSet.standard.named "if" = .ok d ∧
        opening "if" (type.params ++ [.i32]) .thenArm type w = .ok label inner ∧
        thenBody label inner = .ok () after ∧
        update (·.switchToElse) after = .ok drafts switched ∧
        elseBody label switched = .ok () last ∧
        update (·.exit) last = .ok elseDrafts closed ∧
        conclude d (.ifElse type drafts elseDrafts) closed = .ok vars w' := by
  simp only [ifElse, named_eq_ok, opening_bind_eq_ok]
  simp only [EStateM.bind_eq_ok, Unique.exists_iff, exists_and_left]

/-! A construct that fails leaves all frames as they were, whatever was done inside it. -/

/-- The steps of a construct with one arm, from its operands on. -/
theorem monotone_arm {body : Label → Construction σ Unit} (inner : ∀ label, Monotone (body label))
    (name : String) (types : List ValType) (kind : FrameKind) (type : FuncType)
    (argument : List Draft → Argument) (d : InstrDef) :
    Monotone (σ := σ) (do
      takeOperands name types
      let label ← enter kind type
      body label
      let drafts ← update (·.exit)
      conclude d (argument drafts)) :=
  (monotone_takeOperands name types).bind fun _ => (monotone_enter kind type).bind fun label =>
    (inner label).bind fun _ => monotone_exit.bind fun _ => monotone_conclude d _

theorem undone_of_structured_error {name : String} {kind : FrameKind} {type : FuncType}
    {body : Label → Construction σ Unit} {e : BuildError} {w w' : Workspace σ}
    (inner : ∀ label, Monotone (body label))
    (h : structured name kind type body w = .error e w') : w.context.Undone w'.context :=
  undone_of_named_error (monotone_arm inner name type.params kind type (Argument.block type)) h

theorem undone_of_ifThen_error {type : FuncType} {body : Label → Construction σ Unit}
    {e : BuildError} {w w' : Workspace σ} (inner : ∀ label, Monotone (body label))
    (h : ifThen type body w = .error e w') : w.context.Undone w'.context := by
  unfold ifThen at h
  by_cases same : type.params = type.results
  · rw [if_pos same] at h
    have arm :=
      monotone_arm inner "if" (type.params ++ [.i32]) .thenArm type (Argument.ifThen type)
    exact undone_of_named_error arm h
  · rw [if_neg same] at h
    rcases EStateM.bind_eq_error.mp h with refused | ⟨_, _, refused, -⟩ <;> cases refused
    exact Context.Undone.refl _

theorem undone_of_ifElse_error {type : FuncType} {thenBody elseBody : Label → Construction σ Unit}
    {e : BuildError} {w w' : Workspace σ} (innerThen : ∀ label, Monotone (thenBody label))
    (innerElse : ∀ label, Monotone (elseBody label))
    (h : ifElse type thenBody elseBody w = .error e w') : w.context.Undone w'.context := by
  refine undone_of_named_error (fun d => ?_) h
  exact (monotone_takeOperands _ _).bind fun _ => (monotone_enter _ _).bind fun label =>
    (innerThen label).bind fun _ => monotone_switchToElse.bind fun _ =>
      (innerElse label).bind fun _ => monotone_exit.bind fun _ => monotone_conclude _ _

end Construction

end Wasm
