import Wasm.Proofs.Validation.Answers
import Wasm.Proofs.Validation.Leads

/-!
# Valid bodies can be written

Replaying the calls of code takes a body where the algorithm takes the stacks,
and fails where the algorithm fails, through all constructs. So a valid body
is refused exactly if it is not valid any more when unknown operands that a
`select` leaves count as i32s.
-/

namespace Wasm

/-! ## The algorithm at constructs -/

namespace Validation

variable {Γ : Env} {ids : ExternKind → UInt32 → Nat}
  {step : Stacks → Rule → Immediate → Option Stacks} {rule : Rule} {immediate : Immediate}

namespace Env

section Constructs

variable {blockType : BlockType} {type : FuncType} (typed : Γ.blockType blockType = some type)
  (s : Stacks)

include typed

theorem immediateBy_block (isLoop : Bool) (body : List Instr) :
    Γ.immediateBy step (if isLoop then .loop else .block) s (.block blockType body) =
      ((s.popTypes type.params).map (·.2)).bind fun s =>
        (Γ.codeBy step (s.enter isLoop type) body).bind fun s =>
          s.leave.bind fun s => some (s.pushTypes type.results) := by
  cases isLoop <;>
  · simp only [immediateBy, typed, if_true, Bool.false_eq_true, if_false, Option.bind_eq_bind,
      Option.bind_some]
    cases s.popTypes type.params <;> rfl

theorem immediateBy_ifThen (thenBody : List Instr) :
    Γ.immediateBy step .conditional s (.ifThen blockType thenBody) =
      ((s.popTypes (type.params ++ [.i32])).map (·.2)).bind fun s =>
        (Γ.codeBy step (s.enter false type) thenBody).bind fun s => s.leave.bind fun s =>
          (s.enter false type).leave.bind fun s => some (s.pushTypes type.results) := by
  rw [popTypes_concat, Option.bind_assoc]
  simp only [immediateBy, typed, Option.bind_eq_bind, Option.bind_some]
  refine Option.bind_congr fun taken _ => ?_
  cases taken.2.popTypes type.params <;> rfl

theorem immediateBy_ifElse (thenBody elseBody : List Instr) :
    Γ.immediateBy step .conditional s (.ifElse blockType thenBody elseBody) =
      ((s.popTypes (type.params ++ [.i32])).map (·.2)).bind fun s =>
        (Γ.codeBy step (s.enter false type) thenBody).bind fun s => s.leave.bind fun s =>
          (Γ.codeBy step (s.enter false type) elseBody).bind fun s =>
            s.leave.bind fun s => some (s.pushTypes type.results) := by
  rw [popTypes_concat, Option.bind_assoc]
  simp only [immediateBy, typed, Option.bind_eq_bind, Option.bind_some]
  refine Option.bind_congr fun taken _ => ?_
  cases taken.2.popTypes type.params <;> rfl

end Constructs

end Env

/-! ## Mnemonics of the index -/

/-- Every rule of the index is that of a definition. -/
theorem named_of_ruleOf {name : String} (named : ruleOf name = some rule) :
    ∃ d ∈ InstrSet.standard.defs, InstrSet.standard.named name = .ok d ∧ d.rule = some rule := by
  obtain ⟨⟨name', rule'⟩, found, rfl⟩ := Option.map_eq_some_iff.mp named
  have listed : (name', some rule') ∈ InstrSet.standard.defs.map fun d => (d.name, d.rule) := by
    rw [InstrSet.standard_index]
    exact List.mem_map.mpr ⟨_, List.mem_of_find?_eq_some found, rfl⟩
  obtain ⟨d, member, same⟩ := List.mem_map.mp listed
  obtain ⟨rfl, ruled⟩ := Prod.mk.inj same
  obtain rfl : d.name = name := by simpa using List.find?_some found
  exact ⟨d, member, InstrSet.standard_unambiguous.named_of_mem member, ruled⟩

/-- A loop and an untyped selection are told by their mnemonics. -/
theorem index_mnemonics : ∀ entry ∈ index,
    (entry.2 = .loop ↔ entry.1 = "loop") ∧ (entry.2 = .select → entry.1 = "select") := by
  decide +kernel

theorem mnemonic_of_ruleOf {name : String} (named : ruleOf name = some rule) :
    (rule = .loop ↔ name = "loop") ∧ (rule = .select → name = "select") := by
  obtain ⟨⟨name', rule'⟩, found, rfl⟩ := Option.map_eq_some_iff.mp named
  obtain rfl : name' = name := by simpa using List.find?_some found
  exact index_mnemonics _ (List.mem_of_find?_eq_some found)

/-- The call for an instruction of this mnemonic does what `step` does, if there
are operands for which the instruction is valid. -/
def Plays (Γ : Env) (ids : ExternKind → UInt32 → Nat)
    (step : Stacks → Rule → Immediate → Option Stacks) (name : String) : Prop :=
  ∀ rule immediate, ruleOf name = some rule → (∃ s s', Γ.simple s rule immediate = some s') →
    ∃ d, InstrSet.standard.named name = .ok d ∧ d.shape.isStructured = false ∧
      Answers Γ ids step d rule immediate

/-- Definitions of constructs have no rule for instructions without a body. -/
theorem plain_of_accepted {d : InstrDef} (member : d ∈ InstrSet.standard.defs)
    (ruled : d.rule = some rule) (accepted : ∃ s s', Γ.simple s rule immediate = some s') :
    d.shape.isStructured = false := by
  obtain ⟨s, s', accepted⟩ := accepted
  rw [(InstrSet.standard_coherent d member).structured]
  cases typing : d.typing <;> try rfl
  case block =>
      have known := InstrDef.of_rule ruled typing
      dsimp only [InstrDef.AmountsTo] at known
      split at known <;> cases known <;> cases accepted
  case conditional =>
      obtain rfl := InstrDef.of_rule ruled typing
      cases accepted

theorem plays_committed (name : String) : Plays Γ ids Γ.committed name := by
  intro rule immediate named accepted
  obtain ⟨d, member, found, ruled⟩ := named_of_ruleOf named
  exact ⟨d, found, plain_of_accepted member ruled accepted, answers_committed ruled accepted⟩

theorem plays_simple {name : String} (other : name ≠ "select") : Plays Γ ids Γ.simple name := by
  intro rule immediate named accepted
  obtain ⟨d, member, found, ruled⟩ := named_of_ruleOf named
  exact ⟨d, found, plain_of_accepted member ruled accepted,
    answers_simple ruled (mt (mnemonic_of_ruleOf named).2 other) accepted⟩

/-! ## Code -/

section Runs

variable {σ : Type} {name : String} {s s' : Stacks} {blockType : BlockType} {type : FuncType}
  {body elseBody : List Instr} {calls elseCalls : List Call}

open Construction (Does extends_run reached_forget reached_instr reached_structured reached_ifThen
  reached_ifElse)

theorem does_instr (plays : Plays Γ ids step name) (named : ruleOf name = some rule)
    (accepted : Γ.simple s rule immediate = some s') : ∃ call,
      (do return Call.instr name (← Γ.argument ids rule immediate)) = some call ∧
        Does (σ := σ) Γ call.run (step · rule immediate) := by
  obtain ⟨d, found, plain, argument, given, same⟩ := plays rule immediate named ⟨s, s', accepted⟩
  refine ⟨.instr name argument, by rw [given]; rfl, fun w locals => ?_, extends_run _⟩
  rw [Call.run, reached_forget, reached_instr found plain]
  exact same w.context locals

/-- Blocks and loops are told apart by their mnemonic on one side, by their
rule on the other. -/
theorem does_block {isLoop : Bool}
    (named : ruleOf name = some (if isLoop = true then .loop else .block))
    (typed : Γ.blockType blockType = some type)
    (does : Does (σ := σ) Γ (Call.runAll calls) (Γ.codeBy step · body)) :
    Does (σ := σ) Γ (Call.block name type calls).run
      (Γ.immediateBy step (if isLoop = true then .loop else .block) · (.block blockType body)) := by
  refine ⟨fun w locals => ?_, extends_run _⟩
  have told := (mnemonic_of_ruleOf named).1
  rw [Env.immediateBy_block typed, Call.run]
  cases isLoop with
  | true =>
      rw [if_pos (told.mp rfl), reached_forget]
      exact reached_structured rfl rfl (fun _ => does) locals
  | false =>
      rw [if_neg (mt told.mpr nofun), reached_forget]
      exact reached_structured rfl rfl (fun _ => does) locals

theorem does_ifThen (typed : Γ.blockType blockType = some type)
    (does : Does (σ := σ) Γ (Call.runAll calls) (Γ.codeBy step · body)) :
    Does (σ := σ) Γ (Call.ifThen type calls).run
      (Γ.immediateBy step .conditional · (.ifThen blockType body)) := by
  refine ⟨fun w locals => ?_, extends_run _⟩
  rw [Env.immediateBy_ifThen typed, Call.run, reached_forget]
  exact reached_ifThen rfl rfl (fun _ => does) locals

theorem does_ifElse (typed : Γ.blockType blockType = some type)
    (does : Does (σ := σ) Γ (Call.runAll calls) (Γ.codeBy step · body))
    (doesElse : Does (σ := σ) Γ (Call.runAll elseCalls) (Γ.codeBy step · elseBody)) :
    Does (σ := σ) Γ (Call.ifElse type calls elseCalls).run
      (Γ.immediateBy step .conditional · (.ifElse blockType body elseBody)) := by
  refine ⟨fun w locals => ?_, extends_run _⟩
  rw [Env.immediateBy_ifElse typed, Call.run, reached_forget]
  exact reached_ifElse rfl rfl (fun _ => does) (fun _ => doesElse) locals

/-! ### Constructs that are valid -/

theorem block_of_accepted (accepted : Γ.immediate rule s (.block blockType body) = some s') :
    ∃ isLoop type s₁ s₂, rule = (if isLoop = true then .loop else .block) ∧
      Γ.blockType blockType = some type ∧ Γ.code s₁ body = some s₂ := by
  cases rule <;> simp only [Env.immediate, reduceCtorEq, Option.bind_eq_bind] at accepted
  all_goals
    obtain ⟨type, typed, rest⟩ := Option.bind_eq_some_iff.mp accepted
    obtain ⟨⟨_, s₁⟩, -, rest⟩ := Option.bind_eq_some_iff.mp rest
    obtain ⟨s₂, inside, -⟩ := Option.bind_eq_some_iff.mp rest
  case block => exact ⟨false, type, _, s₂, rfl, typed, inside⟩
  case loop => exact ⟨true, type, _, s₂, rfl, typed, inside⟩

theorem ifThen_of_accepted (accepted : Γ.immediate rule s (.ifThen blockType body) = some s') :
    ∃ type s₁ s₂, rule = .conditional ∧ Γ.blockType blockType = some type ∧
      Γ.code s₁ body = some s₂ := by
  cases rule <;> simp only [Env.immediate, reduceCtorEq, Option.bind_eq_bind] at accepted
  obtain ⟨type, typed, rest⟩ := Option.bind_eq_some_iff.mp accepted
  obtain ⟨⟨_, s₀⟩, -, rest⟩ := Option.bind_eq_some_iff.mp rest
  obtain ⟨⟨_, s₁⟩, -, rest⟩ := Option.bind_eq_some_iff.mp rest
  obtain ⟨s₂, inside, -⟩ := Option.bind_eq_some_iff.mp rest
  exact ⟨type, _, s₂, rfl, typed, inside⟩

theorem ifElse_of_accepted
    (accepted : Γ.immediate rule s (.ifElse blockType body elseBody) = some s') :
    ∃ type s₁ s₂ s₃ s₄, rule = .conditional ∧ Γ.blockType blockType = some type ∧
      Γ.code s₁ body = some s₂ ∧ Γ.code s₃ elseBody = some s₄ := by
  cases rule <;> simp only [Env.immediate, reduceCtorEq, Option.bind_eq_bind] at accepted
  obtain ⟨type, typed, rest⟩ := Option.bind_eq_some_iff.mp accepted
  obtain ⟨⟨_, s₀⟩, -, rest⟩ := Option.bind_eq_some_iff.mp rest
  obtain ⟨⟨_, s₁⟩, -, rest⟩ := Option.bind_eq_some_iff.mp rest
  obtain ⟨s₂, inside, rest⟩ := Option.bind_eq_some_iff.mp rest
  obtain ⟨s₃, -, rest⟩ := Option.bind_eq_some_iff.mp rest
  obtain ⟨s₄, insideElse, -⟩ := Option.bind_eq_some_iff.mp rest
  exact ⟨type, _, s₂, _, s₄, rfl, typed, inside, insideElse⟩

end Runs

mutual

theorem Immediate.does {σ : Type} {name : String} : (immediate : Immediate) → {rule : Rule} →
    {s s' : Stacks} → (∀ other ∈ name :: immediate.mnemonics, Plays Γ ids step other) →
    ruleOf name = some rule → Γ.immediate rule s immediate = some s' →
    ∃ call, Γ.immediateCall ids name rule immediate = some call ∧
      Construction.Does (σ := σ) Γ call.run (Γ.immediateBy step rule · immediate)
  | .block blockType body, rule, s, s', plays, named, accepted => by
      obtain ⟨isLoop, type, s₁, s₂, rfl, typed, inside⟩ := block_of_accepted accepted
      obtain ⟨calls, given, does⟩ := Instr.does (σ := σ) body
        (fun other member => plays other (List.mem_cons_of_mem _ member)) inside
      refine ⟨.block name type calls, ?_, does_block named typed does⟩
      simp [Env.immediateCall, typed, given]
  | .ifThen blockType thenBody, rule, s, s', plays, named, accepted => by
      obtain ⟨type, s₁, s₂, rfl, typed, inside⟩ := ifThen_of_accepted accepted
      obtain ⟨calls, given, does⟩ := Instr.does (σ := σ) thenBody
        (fun other member => plays other (List.mem_cons_of_mem _ member)) inside
      refine ⟨.ifThen type calls, ?_, does_ifThen typed does⟩
      simp [Env.immediateCall, typed, given]
  | .ifElse blockType thenBody elseBody, rule, s, s', plays, named, accepted => by
      obtain ⟨type, s₁, s₂, s₃, s₄, rfl, typed, inside, insideElse⟩ := ifElse_of_accepted accepted
      obtain ⟨calls, given, does⟩ := Instr.does (σ := σ) thenBody
        (fun other member => plays other
          (List.mem_cons_of_mem _ (List.mem_append_left _ member))) inside
      obtain ⟨elseCalls, givenElse, doesElse⟩ := Instr.does (σ := σ) elseBody
        (fun other member => plays other
          (List.mem_cons_of_mem _ (List.mem_append_right _ member))) insideElse
      refine ⟨.ifElse type calls elseCalls, ?_, does_ifElse typed does doesElse⟩
      simp [Env.immediateCall, typed, given, givenElse]
  | .none, _, _, _, plays, named, accepted | .i32 _, _, _, _, plays, named, accepted
  | .i64 _, _, _, _, plays, named, accepted | .f32 _, _, _, _, plays, named, accepted
  | .f64 _, _, _, _, plays, named, accepted | .v128 _, _, _, _, plays, named, accepted
  | .index _, _, _, _, plays, named, accepted | .indexPair _ _, _, _, _, plays, named, accepted
  | .memArg _, _, _, _, plays, named, accepted | .lane _, _, _, _, plays, named, accepted
  | .shuffle _, _, _, _, plays, named, accepted | .brTable _ _, _, _, _, plays, named, accepted
  | .callIndirect _ _, _, _, _, plays, named, accepted
  | .valTypes _, _, _, _, plays, named, accepted | .refType _, _, _, _, plays, named, accepted
  | .reserved, _, _, _, plays, named, accepted => by
      simp only [Env.immediate] at accepted
      simpa only [Env.immediateCall, Env.immediateBy] using
        does_instr (plays _ List.mem_cons_self) named accepted

/-- Valid code has calls, and they do to the stack checker what the code does to
the algorithm. -/
theorem Instr.does {σ : Type} : (code : List Instr) → {s s' : Stacks} →
    (∀ name ∈ Instr.mnemonics code, Plays Γ ids step name) → Γ.code s code = some s' →
    ∃ calls, Γ.calls ids code = some calls ∧
      Construction.Does (σ := σ) Γ (Call.runAll calls) (Γ.codeBy step · code)
  | [], s, s', _, _ => by
      refine ⟨[], rfl, fun w _ => ?_, Construction.extends_runAll _⟩
      rw [Call.runAll]
      rfl
  | .mk name immediate :: rest, s, s', plays, accepted => by
      rw [Instr.mnemonics, ← List.cons_append] at plays
      obtain ⟨first, others⟩ := List.forall_mem_append.mp plays
      rw [Env.code] at accepted
      obtain ⟨s₁, accepted, acceptedRest⟩ := Option.bind_eq_some_iff.mp accepted
      rw [Env.instr] at accepted
      obtain ⟨rule, named, accepted⟩ := Option.bind_eq_some_iff.mp accepted
      obtain ⟨call, given, does⟩ := Immediate.does (σ := σ) immediate first named accepted
      obtain ⟨calls, givenRest, doesRest⟩ := Instr.does (σ := σ) rest others acceptedRest
      refine ⟨call :: calls, ?_, fun w locals => ?_, Construction.extends_runAll _⟩
      · simp [Env.calls, Env.call, named, given, givenRest]
      · rw [Call.runAll, Env.codeBy, Env.instrBy, named]
        refine Construction.reached_seq (does.leads w locals) fun _ w' ran => ?_
        obtain ⟨drafts, added⟩ := does.keeps _ _ _ ran
        exact doesRest.leads w' (locals.trans added.locals)

end

end Validation

/-! ## Whole bodies -/

namespace Construction

variable {σ : Type}

/-- Locals are declared behind the parameters, and nothing else changes. -/
theorem addLocals_eq (types : List ValType) (w : Workspace σ) :
    addLocals types w = .ok () { w with
      context := { w.context with locals := w.context.locals ++ types.toArray } } := by
  induction types generalizing w with
  | nil =>
      rw [addLocals, show [].toArray = (#[] : Array ValType) from rfl, Array.append_empty]
      rfl
  | cons type rest ih =>
      rw [addLocals]
      refine (ih { w with context := (w.context.addLocal type).2 }).trans ?_
      rw [List.toArray_cons, ← Array.append_assoc]
      rfl

/-- A body is finished where the algorithm can leave the function. -/
theorem exists_construct_iff (type : FuncType) (client : σ) (build : Construction σ Unit) :
    (∃ body, (FuncBody.construct type client build).1 = .ok body) ↔
      ((reached (build ⟨Context.forFunction type, client⟩)).bind (·.leave)).isSome = true := by
  rw [FuncBody.construct]
  cases build ⟨Context.forFunction type, client⟩ with
  | error e w => simp [reached]
  | ok _ w =>
      show (∃ body, w.context.finish = .ok body) ↔ w.context.asStacks.leave.isSome = true
      rw [← Context.checkEnd_eq_ok, Context.finish]
      cases w.context.checkEnd with
      | error e =>
          constructor
          · rintro ⟨_, ⟨⟩⟩
          · rintro ⟨⟩
      | ok _ => exact ⟨fun _ => rfl, fun _ => ⟨_, rfl⟩⟩

end Construction

namespace Validation

variable {Γ : Env} {ids : ExternKind → UInt32 → Nat}
  {step : Stacks → Rule → Immediate → Option Stacks}

/-- Writing code again is going through it with the algorithm. -/
theorem exists_replay_iff {σ : Type} {type : FuncType} {declared : List ValType}
    {calls : List Call} {code : List Instr} (locals : Γ.locals = type.params ++ declared)
    (does : Construction.Does (σ := σ) Γ (Call.runAll calls) (Γ.codeBy step · code)) (client : σ) :
    (∃ body, (FuncBody.construct type client (FuncBody.replay declared calls)).1 = .ok body) ↔
      Γ.validatesBy step type.results code = true := by
  let start : Context := {
    Context.forFunction type with locals := type.params.toArray ++ declared.toArray }
  have begun : Construction.reached (FuncBody.replay declared calls
      ⟨Context.forFunction type, client⟩) = Γ.codeBy step start.asStacks code := by
    rw [FuncBody.replay, Construction.reached_bind, Construction.addLocals_eq]
    exact does.leads ⟨start, client⟩ (by simp [start, locals])
  rw [Construction.exists_construct_iff, begun]
  rfl

end Validation

/-- A valid body can be written again, with a call for each instruction, exactly
if it stays valid when operands of unknown type that are left behind count as
i32s. Without an untyped selection it always can. -/
theorem FuncBody.replay_of_valid {σ : Type} {Γ : Validation.Env} {type : FuncType}
    {declared : List ValType} {code : List Instr} (ids : ExternKind → UInt32 → Nat) (client : σ)
    (locals : Γ.locals = type.params ++ declared) (valid : Γ.validates type.results code = true) :
    ∃ calls, Γ.calls ids code = some calls ∧
      ((∃ body, (FuncBody.construct type client (FuncBody.replay declared calls)).1 = .ok body) ↔
        Γ.validatesBy Γ.committed type.results code = true) ∧
      ("select" ∉ Instr.mnemonics code → ∃ body,
        (FuncBody.construct type client (FuncBody.replay declared calls)).1 = .ok body) := by
  have accepted := valid
  rw [Validation.Env.validates, Option.isSome_iff_exists] at accepted
  obtain ⟨_, accepted⟩ := accepted
  obtain ⟨s, accepted, -⟩ := Option.bind_eq_some_iff.mp accepted
  obtain ⟨calls, given, does⟩ : ∃ calls, Γ.calls ids code = some calls ∧
      Construction.Does (σ := σ) Γ (Call.runAll calls) (Γ.codeBy Γ.committed · code) :=
    Validation.Instr.does code (fun name _ => Validation.plays_committed name) accepted
  refine ⟨calls, given, Validation.exists_replay_iff locals does client, fun none => ?_⟩
  obtain ⟨calls', given', does'⟩ : ∃ calls, Γ.calls ids code = some calls ∧
      Construction.Does (σ := σ) Γ (Call.runAll calls) (Γ.codeBy Γ.simple · code) :=
    Validation.Instr.does code
      (fun name member => Validation.plays_simple fun same => none (same ▸ member)) accepted
  cases given.symm.trans given'
  refine (Validation.exists_replay_iff locals does' client).mpr ?_
  rw [Validation.Env.validatesBy, Validation.Env.codeBy_simple]
  exact valid

/-- Behind a branch operands are missing. -/
theorem FuncBody.replay_of_valid_behindBranch :
    let Γ : Validation.Env := { locals := [.i32, .f64] }
    let code : List Instr := [.mk "block" (.block (.value .f64) [.mk "local.get" (.index 1),
      .mk "br" (.index 0), .plain "f64.add"]), .plain "drop"]
    ∃ calls, Γ.calls (fun _ _ => 0) code = some calls ∧ ∃ body,
      (FuncBody.construct ⟨[.i32], []⟩ () (FuncBody.replay [.f64] calls)).1 = .ok body := by
  intro Γ code
  obtain ⟨calls, given, -, untyped⟩ := @FuncBody.replay_of_valid Unit Γ ⟨[.i32], []⟩ [.f64] code
    (fun _ _ => 0) () rfl (by decide +kernel)
  exact ⟨calls, given, untyped (by decide +kernel)⟩

/-- A result of unknown type counts as an i32, and an i64 is asked for. -/
theorem FuncBody.not_forall_replay_of_valid : ¬∀ (Γ : Validation.Env)
    (ids : ExternKind → UInt32 → Nat) (type : FuncType) (declared : List ValType)
    (code : List Instr), Γ.locals = type.params ++ declared →
    Γ.validates type.results code = true → ∃ calls, Γ.calls ids code = some calls ∧ ∃ body,
      (FuncBody.construct type () (FuncBody.replay declared calls)).1 = .ok body := by
  intro complete
  obtain ⟨calls, given, body, constructed⟩ := complete {} (fun _ _ => 0) ⟨[], []⟩ []
    [.plain "unreachable", .plain "select", .plain "i64.eqz", .plain "drop"] rfl
    (by decide +kernel)
  cases given
  cases constructed

end Wasm
