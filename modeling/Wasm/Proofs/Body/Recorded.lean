import Mathlib.Data.List.TakeWhile
import Wasm.Proofs.Body.Steps

/-!
# What a program records

The drafts that a body holds in the end are those of the calls which its
program made and kept: one draft a call, in the same order, made from the
argument that the client gave. Inside a structured draft the same holds of
its bodies.
-/

namespace Wasm

open Context (draftOf)

/-! ## The draft of a call -/

mutual

/-- The call made this draft, in some state of the body. -/
def Call.Makes : Call → Draft → Prop
  | .instr name argument, draft =>
      ∃ d c effect, InstrSet.standard.named name = .ok d ∧ d.shape.isStructured = false ∧
        d.effect c argument = .ok effect ∧ draft = draftOf d effect
  | .block name type body, draft =>
      ∃ d c effect drafts, InstrSet.standard.named name = .ok d ∧ Call.AllMake body drafts ∧
        d.effect c (.block type drafts) = .ok effect ∧ draft = draftOf d effect
  | .ifThen type thenBody, draft =>
      ∃ d c effect drafts, InstrSet.standard.named "if" = .ok d ∧ Call.AllMake thenBody drafts ∧
        d.effect c (.ifThen type drafts) = .ok effect ∧ draft = draftOf d effect
  | .ifElse type thenBody elseBody, draft =>
      ∃ d c effect drafts elseDrafts, InstrSet.standard.named "if" = .ok d ∧
        Call.AllMake thenBody drafts ∧ Call.AllMake elseBody elseDrafts ∧
        d.effect c (.ifElse type drafts elseDrafts) = .ok effect ∧ draft = draftOf d effect

/-- The calls made these drafts, one each. -/
def Call.AllMake : List Call → List Draft → Prop
  | [], drafts => drafts = []
  | call :: rest, drafts => ∃ draft others, drafts = draft :: others ∧ call.Makes draft ∧
      Call.AllMake rest others

end

theorem Call.allMake_append {calls calls' : List Call} {drafts drafts' : List Draft}
    (first : AllMake calls drafts) (second : AllMake calls' drafts') :
    AllMake (calls ++ calls') (drafts ++ drafts') := by
  induction calls generalizing drafts with
  | nil =>
      cases first
      exact second
  | cons call rest ih =>
      obtain ⟨draft, others, rfl, made, more⟩ := first
      exact ⟨draft, others ++ drafts', rfl, made, ih more⟩

theorem Call.allMake_single {call : Call} {draft : Draft} (made : call.Makes draft) :
    AllMake [call] [draft] :=
  ⟨draft, [], rfl, made, rfl⟩

/-! ## The states of a body -/

/-- The kind of frame that a construct with one body opens. -/
def FrameKind.Opens (kind : FrameKind) (name : String) : Prop :=
  (kind = .block ∧ name = "block") ∨ (kind = .loop ∧ name = "loop")

namespace Context

/-- The calls took a body from one state to another and wrote the drafts.
Inside a construct the same holds of its arms; a construct that was undone
leaves no trace but locals and ids. -/
inductive Records : Context → List Call → List Draft → Context → Prop
  | nothing {c c' : Context} (same : c.Undone c') : Records c [] [] c'
  | append {c₁ c₂ c₃ : Context} {calls calls' : List Call} {drafts drafts' : List Draft}
      (first : Records c₁ calls drafts c₂) (second : Records c₂ calls' drafts' c₃) :
      Records c₁ (calls ++ calls') (drafts ++ drafts') c₃
  | instr {c c' : Context} {name : String} {d : InstrDef} {argument : Argument} {effect : Effect}
      {vars : List StackVar} (found : InstrSet.standard.named name = .ok d)
      (plain : d.shape.isStructured = false) (allowed : d.effect c argument = .ok effect)
      (done : c.perform d argument = .ok (vars, c')) :
      Records c [.instr name argument] [draftOf d effect] c'
  | block {c popped after closed c' : Context} {name : String} {kind : FrameKind} {d : InstrDef}
      {type : FuncType} {calls : List Call} {drafts body : List Draft} {effect : Effect}
      {vars : List StackVar} (opens : kind.Opens name)
      (found : InstrSet.standard.named name = .ok d)
      (taken : c.pop name type.params = .ok popped)
      (inner : Records (popped.enter kind type).2 calls drafts after)
      (left : after.exit = .ok (body, closed))
      (allowed : d.effect closed (.block type body) = .ok effect)
      (done : closed.conclude d (.block type body) = .ok (vars, c')) :
      Records c [.block name type calls] [draftOf d effect] c'
  | ifThen {c popped after closed c' : Context} {d : InstrDef} {type : FuncType}
      {calls : List Call} {drafts body : List Draft} {effect : Effect} {vars : List StackVar}
      (balanced : type.params = type.results)
      (found : InstrSet.standard.named "if" = .ok d)
      (taken : c.pop "if" (type.params ++ [.i32]) = .ok popped)
      (inner : Records (popped.enter .thenArm type).2 calls drafts after)
      (left : after.exit = .ok (body, closed))
      (allowed : d.effect closed (.ifThen type body) = .ok effect)
      (done : closed.conclude d (.ifThen type body) = .ok (vars, c')) :
      Records c [.ifThen type calls] [draftOf d effect] c'
  | ifElse {c popped after switched last closed c' : Context} {d : InstrDef} {type : FuncType}
      {calls elseCalls : List Call} {drafts body elseDrafts elseBody : List Draft}
      {effect : Effect} {vars : List StackVar} (found : InstrSet.standard.named "if" = .ok d)
      (taken : c.pop "if" (type.params ++ [.i32]) = .ok popped)
      (inner : Records (popped.enter .thenArm type).2 calls drafts after)
      (changed : after.switchToElse = .ok (body, switched))
      (innerElse : Records switched elseCalls elseDrafts last)
      (left : last.exit = .ok (elseBody, closed))
      (allowed : d.effect closed (.ifElse type body elseBody) = .ok effect)
      (done : closed.conclude d (.ifElse type body elseBody) = .ok (vars, c')) :
      Records c [.ifElse type calls elseCalls] [draftOf d effect] c'

variable {c c' : Context} {calls : List Call} {drafts : List Draft}

/-- What was recorded is what is written in the frame, and the frames around it
are as they were. -/
theorem Records.extends (h : c.Records calls drafts c') : c.Extends drafts c' := by
  induction h with
  | nothing same => exact same.extends
  | append _ _ ih ih' => exact ih.trans ih'
  | instr _ _ allowed done =>
      obtain ⟨effect, allowed', written⟩ := extends_perform done
      cases allowed.symm.trans allowed'
      exact written
  | block _ _ taken _ left allowed done ih | ifThen _ _ taken _ left allowed done ih =>
      obtain ⟨-, restored⟩ := (inside_enter _ _ _).exit ih left
      obtain ⟨effect, allowed', written⟩ := extends_conclude done
      cases allowed.symm.trans allowed'
      exact ((extends_pop taken).trans restored).trans written
  | ifElse _ taken _ changed _ left allowed done ih ihElse =>
      obtain ⟨-, insideElse⟩ := (inside_enter _ _ _).switch ih changed
      obtain ⟨-, restored⟩ := insideElse.exit ihElse left
      obtain ⟨effect, allowed', written⟩ := extends_conclude done
      cases allowed.symm.trans allowed'
      exact ((extends_pop taken).trans restored).trans written

/-- The drafts are those of the calls, also inside of constructs. -/
theorem Records.allMake (h : c.Records calls drafts c') : Call.AllMake calls drafts := by
  induction h with
  | nothing => rfl
  | append _ _ ih ih' => exact Call.allMake_append ih ih'
  | instr found plain allowed _ => exact Call.allMake_single ⟨_, _, _, found, plain, allowed, rfl⟩
  | block _ found _ inner left allowed _ ih | ifThen _ found _ inner left allowed _ ih =>
      obtain ⟨rfl, -⟩ := (inside_enter _ _ _).exit inner.extends left
      exact Call.allMake_single ⟨_, _, _, _, found, ih, allowed, rfl⟩
  | ifElse found _ inner changed innerElse left allowed _ ih ihElse =>
      obtain ⟨rfl, insideElse⟩ := (inside_enter _ _ _).switch inner.extends changed
      obtain ⟨rfl, -⟩ := insideElse.exit innerElse.extends left
      exact Call.allMake_single ⟨_, _, _, _, _, found, ih, ihElse, allowed, rfl⟩

end Context

namespace Construction

variable {σ α : Type}

open EStateM (Leaves leaves_bind leaves_tryCatch)

/-! ## Single instructions -/

/-- Between two states `calls` were made and kept. -/
def Kept (calls : List Call) (c c' : Context) : Prop :=
  ∃ drafts, c.Records calls drafts c'

theorem Kept.nothing {c c' : Context} (h : c.Undone c') : Kept [] c c' :=
  ⟨[], .nothing h⟩

theorem Kept.append {calls calls' : List Call} {c₁ c₂ c₃ : Context} (first : Kept calls c₁ c₂)
    (second : Kept calls' c₂ c₃) : Kept (calls ++ calls') c₁ c₃ := by
  obtain ⟨drafts, recorded⟩ := first
  obtain ⟨drafts', recorded'⟩ := second
  exact ⟨drafts ++ drafts', recorded.append recorded'⟩

/-- `R` relates the states before and after calls: it holds where nothing was
done, along calls in a row, and of each instruction on its own. -/
structure Traces (R : List Call → Context → Context → Prop) : Prop where
  nothing : ∀ c, R [] c c
  append : ∀ {calls calls' c₁ c₂ c₃}, R calls c₁ c₂ → R calls' c₂ c₃ → R (calls ++ calls') c₁ c₃
  perform : ∀ {name d argument vars c c'}, InstrSet.standard.named name = .ok d →
    d.shape.isStructured = false → c.perform d argument = .ok (vars, c') →
    R [.instr name argument] c c'

section Traces

variable {R : List Call → Context → Context → Prop}

/-- An instruction of a known name that is not structured. -/
theorem Traces.named (h : Traces R) {name : String} {d : InstrDef} {argument : Argument}
    {w w' : Workspace σ} (found : InstrSet.standard.named name = .ok d)
    (plain : d.shape.isStructured = false)
    (done : (do let _ ← Construction.perform (← definition name) argument : Construction σ Unit) w =
      .ok () w') :
    R [.instr name argument] w.context w'.context := by
  obtain ⟨d', w₁, looked, rest⟩ := EStateM.bind_eq_ok.mp done
  obtain ⟨found', rfl⟩ := definition_eq_ok.mp looked
  obtain ⟨vars, w₂, performed, last⟩ := EStateM.bind_eq_ok.mp rest
  cases last
  cases found.symm.trans found'
  obtain ⟨c, written, rfl⟩ := update_eq_ok.mp performed
  exact h.perform found plain written

theorem Traces.pushOperand (h : Traces R) {operand : Operand} {w w' : Workspace σ}
    (done : Construction.pushOperand operand w = .ok () w') :
    R (operandCalls operand) w.context w'.context := by
  cases operand with
  | stack | var _ =>
      cases done
      exact h.nothing _
  | _ => exact h.named rfl rfl done

theorem Traces.pushOperands (h : Traces R) {operands : List Operand} {w w' : Workspace σ}
    (done : Construction.pushOperands operands w = .ok () w') :
    R (operands.flatMap operandCalls) w.context w'.context := by
  induction operands generalizing w with
  | nil =>
      cases done
      exact h.nothing _
  | cons operand rest ih =>
      obtain ⟨_, w₁, pushed, others⟩ := EStateM.bind_eq_ok.mp done
      exact h.append (h.pushOperand pushed) (ih others)

theorem Traces.instr (h : Traces R) {name : String} {argument : Argument}
    {operands : List Operand} {vars : List StackVar} {w w' : Workspace σ}
    (done : Construction.instr name argument operands w = .ok vars w') :
    R (operands.flatMap operandCalls ++ [.instr name argument]) w.context w'.context := by
  obtain ⟨d, w₁, found, plain, bound, performed⟩ := instr_eq_ok.mp done
  obtain ⟨-, -, pushed⟩ := bindOperands_eq_ok.mp bound
  obtain ⟨c, written, rfl⟩ := update_eq_ok.mp performed
  -- Operands that are on the stack already come first, and nothing is written for them.
  have onStack : (operands.takeWhile (·.isOnStack)).flatMap operandCalls = [] := by
    refine List.flatMap_eq_nil_iff.mpr fun operand member => ?_
    have there := List.mem_takeWhile_imp member
    cases operand <;> first | rfl | cases there
  rw [← List.takeWhile_append_dropWhile (p := (·.isOnStack)) (l := operands), List.flatMap_append,
    onStack, List.nil_append]
  exact h.append (h.pushOperands pushed) (h.perform found plain written)

end Traces

/-! ## Programs -/

/-- However `act` ends, `R` relates the states before and after it and the calls
that it made and kept. -/
def AlongCalls (R : List Call → Context → Context → Prop) (act : Construction σ α)
    (calls : Workspace σ → List Call) : Prop :=
  ∀ w w', Leaves act w w' → R (calls w) w.context w'.context

/-- `R` holds along whatever a client makes out of operations: also along those
that write nothing, and along a construct if it does along the closures. -/
structure TracesPrograms (σ : Type) (R : List Call → Context → Context → Prop) : Prop extends
    Traces R where
  addLocal : ∀ c type, R [] c (c.addLocal type).2
  refused : ∀ {name argument operands e} {w w' : Workspace σ},
    instr name argument operands w = .error e w' → R [] w.context w'.context
  structured : ∀ {name kind} type {body : Label → Construction σ Unit} {calls},
    kind.Opens name → (∀ label, AlongCalls R (body label) (calls label)) →
    AlongCalls R (structured name kind type body)
      (ifOk (structured name kind type body) (structuredCalls name kind type calls))
  ifThen : ∀ type {body : Label → Construction σ Unit} {calls},
    (∀ label, AlongCalls R (body label) (calls label)) →
    AlongCalls R (ifThen type body) (ifOk (ifThen type body) (ifThenCalls type calls))
  ifElse : ∀ type {thenBody elseBody : Label → Construction σ Unit} {thenCalls elseCalls},
    (∀ label, AlongCalls R (thenBody label) (thenCalls label)) →
    (∀ label, AlongCalls R (elseBody label) (elseCalls label)) →
    AlongCalls R (ifElse type thenBody elseBody)
      (ifOk (ifElse type thenBody elseBody) (ifElseCalls type thenBody thenCalls elseCalls))

/-- `R` holds along a program, however it ends. -/
theorem Program.traced {R : List Call → Context → Context → Prop} (h : TracesPrograms σ R)
    {act : Construction σ α} {calls : Workspace σ → List Call} (program : Program act calls) :
    AlongCalls R act calls := by
  induction program with
  | pure a =>
      rintro w w' (⟨_, same⟩ | ⟨_, same⟩) <;> cases same
      exact h.nothing _
  | throw e =>
      rintro w w' (⟨_, same⟩ | ⟨_, same⟩) <;> cases same
      exact h.nothing _
  | bind _ _ ih ihNext =>
      intro w w' left
      rcases leaves_bind.mp left with ⟨e, failed⟩ | ⟨a, w₁, done, rest⟩
      · -- The step behind a failure is not taken and makes no calls.
        simp only [andThen, failed, List.append_nil]
        exact ih w w' (.inr ⟨e, failed⟩)
      · simp only [andThen, done]
        exact h.append (ih w w₁ (.of_ok done)) (ihNext a w₁ w' rest)
  | tryCatch _ _ ih ihHandler =>
      -- What was written before a failure stays: only constructs undo.
      intro w w' left
      rcases leaves_tryCatch.mp left with ⟨a, done⟩ | ⟨e, w₁, failed, rest⟩
      · simp only [orElse, done, List.append_nil]
        exact ih w w' (.inl ⟨a, done⟩)
      · simp only [orElse, failed]
        exact h.append (ih w w₁ (.inr ⟨e, failed⟩)) (ihHandler e w₁ w' rest)
  | client step =>
      rintro w w' (⟨_, same⟩ | ⟨_, same⟩) <;> cases same
      exact h.nothing _
  | inspect query =>
      intro w w' left
      rw [inspect_leaves left]
      exact h.nothing _
  | addLocal type =>
      rintro w w' (⟨_, same⟩ | ⟨_, same⟩) <;> cases same
      exact h.addLocal _ type
  | instr name argument operands =>
      rintro w w' (⟨vars, done⟩ | ⟨e, failed⟩)
      · rw [instrCalls, ifOk, done]
        exact h.instr done
      · rw [instrCalls, ifOk, failed]
        exact h.refused failed
  | @block type _ _ _ ih => exact h.structured type (.inl ⟨rfl, rfl⟩) ih
  | @loop type _ _ _ ih => exact h.structured type (.inr ⟨rfl, rfl⟩) ih
  | @ifThen type _ _ _ ih => exact h.ifThen type ih
  | @ifElse type _ _ _ _ _ _ ihThen ihElse => exact h.ifElse type ihThen ihElse

/-! ## What is kept of instructions and constructs -/

theorem traces_kept : Traces Kept where
  nothing c := .nothing (Context.Undone.refl c)
  append first second := first.append second
  perform := by
    intro name d argument vars c c' found plain performed
    obtain ⟨effect, allowed, -⟩ := Context.extends_perform performed
    exact ⟨_, .instr found plain allowed performed⟩

theorem kept_structured {name : String} {kind : FrameKind} {type : FuncType}
    {body : Label → Construction σ Unit} {calls : Label → Workspace σ → List Call}
    {vars : List StackVar} {w w' : Workspace σ} (opens : kind.Opens name)
    (inner : ∀ label, AlongCalls Kept (body label) (calls label))
    (done : structured name kind type body w = .ok vars w') :
    Kept (structuredCalls name kind type calls w) w.context w'.context := by
  obtain ⟨d, label, inside, after, drafts, closed, found, opened, ran, left, written⟩ :=
    structured_eq_ok.mp done
  obtain ⟨bodyDrafts, recorded⟩ := inner label inside after (.of_ok ran)
  rw [structuredCalls, andThen, opened]
  obtain ⟨popped, taken, -, rfl⟩ := opening_eq_ok.mp opened
  obtain ⟨c, exited, rfl⟩ := update_eq_ok.mp left
  obtain ⟨c', concluded, rfl⟩ := update_eq_ok.mp written
  obtain ⟨effect, allowed, -⟩ := Context.extends_conclude concluded
  exact ⟨_, .block opens found taken recorded exited allowed concluded⟩

theorem kept_ifThen {type : FuncType} {body : Label → Construction σ Unit}
    {calls : Label → Workspace σ → List Call} {vars : List StackVar} {w w' : Workspace σ}
    (inner : ∀ label, AlongCalls Kept (body label) (calls label))
    (done : ifThen type body w = .ok vars w') :
    Kept (ifThenCalls type calls w) w.context w'.context := by
  obtain ⟨balanced, d, label, inside, after, drafts, closed, found, opened, ran, left, written⟩ :=
    ifThen_eq_ok.mp done
  obtain ⟨bodyDrafts, recorded⟩ := inner label inside after (.of_ok ran)
  rw [ifThenCalls, andThen, opened]
  obtain ⟨popped, taken, -, rfl⟩ := opening_eq_ok.mp opened
  obtain ⟨c, exited, rfl⟩ := update_eq_ok.mp left
  obtain ⟨c', concluded, rfl⟩ := update_eq_ok.mp written
  obtain ⟨effect, allowed, -⟩ := Context.extends_conclude concluded
  exact ⟨_, .ifThen balanced found taken recorded exited allowed concluded⟩

theorem kept_ifElse {type : FuncType} {thenBody elseBody : Label → Construction σ Unit}
    {thenCalls elseCalls : Label → Workspace σ → List Call} {vars : List StackVar}
    {w w' : Workspace σ}
    (innerThen : ∀ label, AlongCalls Kept (thenBody label) (thenCalls label))
    (innerElse : ∀ label, AlongCalls Kept (elseBody label) (elseCalls label))
    (done : ifElse type thenBody elseBody w = .ok vars w') :
    Kept (ifElseCalls type thenBody thenCalls elseCalls w) w.context w'.context := by
  obtain ⟨d, label, inside, after, drafts, switched, last, elseDrafts, closed, found, opened, ran,
    changed, ranElse, left, written⟩ := ifElse_eq_ok.mp done
  obtain ⟨bodyDrafts, recorded⟩ := innerThen label inside after (.of_ok ran)
  obtain ⟨elseBodyDrafts, recordedElse⟩ := innerElse label switched last (.of_ok ranElse)
  -- The calls of the second arm are those of a run that has been through the first.
  have openedElse := openingElse_eq_ok.mpr ⟨inside, after, drafts, opened, ran, changed⟩
  rw [ifElseCalls, andThen, andThen, opened, openedElse]
  obtain ⟨popped, taken, -, rfl⟩ := opening_eq_ok.mp opened
  obtain ⟨c₁, switched', rfl⟩ := update_eq_ok.mp changed
  obtain ⟨c₂, exited, rfl⟩ := update_eq_ok.mp left
  obtain ⟨c', concluded, rfl⟩ := update_eq_ok.mp written
  obtain ⟨effect, allowed, -⟩ := Context.extends_conclude concluded
  exact ⟨_, .ifElse found taken recorded switched' recordedElse exited allowed concluded⟩

theorem AlongCalls.monotone {act : Construction σ α} {calls : Workspace σ → List Call}
    (h : AlongCalls Kept act calls) : Monotone act := by
  intro w w' left
  obtain ⟨drafts, recorded⟩ := h w w' left
  exact recorded.extends.toGrows

/-- A construct of which nothing is kept if it fails. -/
theorem kept_ifOk {act : Construction σ α} {calls : Workspace σ → List Call}
    (onOk : ∀ a w w', act w = .ok a w' → Kept (calls w) w.context w'.context)
    (onError : ∀ e w w', act w = .error e w' → w.context.Undone w'.context) :
    AlongCalls Kept act (ifOk act calls) := by
  rintro w w' (⟨a, done⟩ | ⟨e, failed⟩)
  · rw [ifOk, done]
    exact onOk a w w' done
  · rw [ifOk, failed]
    exact Kept.nothing (onError e w w' failed)

theorem tracesPrograms_kept : TracesPrograms σ Kept where
  toTraces := traces_kept
  addLocal c type := Kept.nothing (Context.undone_addLocal c type)
  refused failed := Kept.nothing (undone_of_instr_error failed)
  structured _ _ _ opens inner :=
    kept_ifOk (fun _ _ _ done => kept_structured opens inner done) fun _ _ _ failed =>
      undone_of_structured_error (fun label => (inner label).monotone) failed
  ifThen _ _ _ inner :=
    kept_ifOk (fun _ _ _ done => kept_ifThen inner done) fun _ _ _ failed =>
      undone_of_ifThen_error (fun label => (inner label).monotone) failed
  ifElse _ _ _ _ _ innerThen innerElse :=
    kept_ifOk (fun _ _ _ done => kept_ifElse innerThen innerElse done) fun _ _ _ failed =>
      undone_of_ifElse_error (fun label => (innerThen label).monotone)
        (fun label => (innerElse label).monotone) failed

/-- A program records the calls it makes and keeps, and nothing else, however
it ends. -/
theorem Program.kept {act : Construction σ α} {calls : Workspace σ → List Call}
    (h : Program act calls) : AlongCalls Kept act calls :=
  h.traced tracesPrograms_kept

end Construction

/-! ## Whole bodies -/

/-- A program that made and kept `calls` built this body of a function. -/
def FuncBody.BuiltBy (type : FuncType) (calls : List Call) (body : FuncBody) : Prop :=
  ∃ (σ : Type) (client client' : σ) (build : Construction σ Unit)
    (made : Workspace σ → List Call), Construction.Program build made ∧
    made ⟨Context.forFunction type, client⟩ = calls ∧
    FuncBody.construct type client build = (.ok body, client')

/-- A body that is finished is what the program left in the frame of the function. -/
theorem FuncBody.construct_eq_ok {σ : Type} {type : FuncType} {client client' : σ}
    {build : Construction σ Unit} {body : FuncBody} :
    FuncBody.construct type client build = (.ok body, client') ↔ ∃ after,
      build ⟨Context.forFunction type, client⟩ = .ok () after ∧ after.client = client' ∧
      after.context.checkEnd = .ok () ∧
      body = { locals := after.context.declaredLocals, code := after.context.frame.body } := by
  rw [FuncBody.construct]
  cases build ⟨Context.forFunction type, client⟩ with
  | error e after => simp
  | ok _ after =>
      simp only [Prod.mk.injEq, Context.finish, Except.bind_eq_ok, Except.pure_eq_ok,
        Except.ok.injEq, EStateM.Result.ok.injEq, true_and]
      constructor
      · rintro ⟨⟨_, checked, rfl⟩, rfl⟩
        exact ⟨after, rfl, rfl, checked, rfl⟩
      · rintro ⟨_, rfl, rfl, checked, rfl⟩
        exact ⟨⟨(), checked, rfl⟩, rfl⟩

/-- A finished body holds what was recorded since the start of the function. -/
theorem FuncBody.BuiltBy.records {type : FuncType} {calls : List Call} {body : FuncBody}
    (h : FuncBody.BuiltBy type calls body) : ∃ after : Context,
      (Context.forFunction type).Records calls body.code after ∧ after.checkEnd = .ok () ∧
      body.locals = after.declaredLocals := by
  obtain ⟨σ, client, client', build, made, program, rfl, constructed⟩ := h
  obtain ⟨after, ran, -, checked, rfl⟩ := FuncBody.construct_eq_ok.mp constructed
  obtain ⟨drafts, recorded⟩ := program.kept _ _ (.of_ok ran)
  obtain ⟨values, unreachable, frame⟩ := recorded.extends.frame
  have all : after.context.frame.body = drafts := by
    rw [frame]
    simp [Frame.body, Context.forFunction]
  exact ⟨after.context, all ▸ recorded, checked, rfl⟩

theorem FuncBody.BuiltBy.allMake {type : FuncType} {calls : List Call} {body : FuncBody}
    (h : FuncBody.BuiltBy type calls body) : Call.AllMake calls body.code := by
  obtain ⟨after, recorded, -, -⟩ := h.records
  exact recorded.allMake

end Wasm
