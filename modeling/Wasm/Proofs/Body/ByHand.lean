import Wasm.Proofs.Body.Undo

/-!
# Operands written by hand

An operand that is not on the stack can be given with an instruction, or it
can be written before as an instruction of its own. A client who does the
latter makes one call an operand and then one more without any operands. Both
ways end in the same body, on the same stack and with the same ids, or fail
for the same reason; what a failure leaves is not the same, as each call undoes
only what it did itself.
-/

namespace Wasm.Construction

variable {σ : Type} {name : String} {d : InstrDef} {operands : List Operand}

/-! ## One call for each operand -/

/-- The call that a client makes for an operand which is not on the stack yet. -/
def writeOperand : Operand → Construction σ Unit
  | .stack | .var _ => return ()
  | .localVar handle => effect "local.get" (.localVar handle) []
  | .globalVar handle => effect "global.get" (.globalVar handle) []
  | .i32 value => effect "i32.const" (.literal (.i32 value)) []
  | .i64 value => effect "i64.const" (.literal (.i64 value)) []
  | .f32 value => effect "f32.const" (.literal (.f32 value)) []
  | .f64 value => effect "f64.const" (.literal (.f64 value)) []

/-- The calls for some operands, first one first. -/
def writeOperands : List Operand → Construction σ Unit
  | [] => return ()
  | operand :: rest => do
    writeOperand operand
    writeOperands rest

/-- The operands one by one, and then the instruction without any. -/
def instrByHand (name : String) (argument : Argument) (operands : List Operand) :
    Construction σ (List StackVar) := do
  writeOperands operands
  instr name argument []

/-! ## An instruction without operands -/

/-- To look up a definition changes nothing. -/
theorem definition_eq_pure (found : InstrSet.standard.named name = .ok d) :
    definition (σ := σ) name = pure d := by
  funext w
  rw [definition, found]
  rfl

/-- A step that is refused has changed nothing, so nothing is undone. -/
theorem atomically_perform (d : InstrDef) (argument : Argument) :
    atomically (perform (σ := σ) d argument) = perform d argument := by
  funext w
  rw [atomically]
  cases done : perform d argument w with
  | ok vars after => rfl
  | error e after =>
      obtain ⟨-, rfl⟩ := update_eq_error.mp done
      rfl

/-- An instruction that is given no operands is only performed. -/
theorem instr_nil (found : InstrSet.standard.named name = .ok d)
    (plain : d.shape.isStructured = false) (argument : Argument) :
    instr (σ := σ) name argument [] = perform d argument := by
  rw [instr, definition_eq_pure found, pure_bind, if_neg (Bool.eq_false_iff.mp plain)]
  exact atomically_perform d argument

/-! ## Pushing and writing -/

/-- The call for an operand does what the push of the operand does. -/
theorem effect_eq_push (found : InstrSet.standard.named name = .ok d)
    (plain : d.shape.isStructured = false) (argument : Argument) :
    effect (σ := σ) name argument [] =
      (do let _ ← perform (← definition name) argument : Construction σ Unit) := by
  rw [effect, instr_nil found plain, definition_eq_pure found, pure_bind]

theorem writeOperand_eq (operand : Operand) :
    writeOperand (σ := σ) operand = pushOperand operand := by
  cases operand with
  | stack | var _ => rfl
  | localVar _ | globalVar _ | i32 _ | i64 _ | f32 _ | f64 _ =>
      refine effect_eq_push rfl ?_ _
      rfl

theorem writeOperands_eq (operands : List Operand) :
    writeOperands (σ := σ) operands = pushOperands operands := by
  induction operands with
  | nil => rfl
  | cons operand rest ih => rw [writeOperands, pushOperands, writeOperand_eq, ih]

/-- Where no operand is on the stack, all of them are pushed and nothing is checked. -/
theorem bindOperands_explicit (explicit : ∀ operand ∈ operands, operand.isOnStack = false)
    (name : String) : bindOperands (σ := σ) name operands = pushOperands operands := by
  have before : operands.takeWhile (·.isOnStack) = [] := by
    cases operands with
    | nil => rfl
    | cons operand rest => simp [explicit operand List.mem_cons_self]
  have behind : operands.dropWhile (·.isOnStack) = operands := by
    have all := List.takeWhile_append_dropWhile (p := (·.isOnStack)) (l := operands)
    rwa [before] at all
  have none : operands.any (·.isOnStack) = false := by
    simpa using explicit
  rw [bindOperands, before, behind, none]
  rfl

/-! ## Both ways -/

/-- The one call is the many calls, all of which are undone if one of them fails. -/
theorem instr_eq_atomically_byHand (found : InstrSet.standard.named name = .ok d)
    (plain : d.shape.isStructured = false)
    (explicit : ∀ operand ∈ operands, operand.isOnStack = false) (argument : Argument) :
    instr (σ := σ) name argument operands = atomically (instrByHand name argument operands) := by
  rw [instrByHand, writeOperands_eq, instr_nil found plain]
  rw [instr, definition_eq_pure found, pure_bind, if_neg (Bool.eq_false_iff.mp plain),
    bindOperands_explicit explicit]

/-- An instruction whose operands are all explicit does what a client does who
writes the operands by hand: it succeeds in the same states, with the same
values and leaving the same state, and fails in the others with the same
error. -/
theorem instr_explicit_iff (found : InstrSet.standard.named name = .ok d)
    (plain : d.shape.isStructured = false)
    (explicit : ∀ operand ∈ operands, operand.isOnStack = false) (argument : Argument)
    (w : Workspace σ) :
    (∀ vars w', instr name argument operands w = .ok vars w' ↔
      instrByHand name argument operands w = .ok vars w') ∧
    ∀ e, (∃ w', instr name argument operands w = .error e w') ↔
      ∃ w', instrByHand name argument operands w = .error e w' := by
  rw [instr_eq_atomically_byHand found plain explicit argument]
  refine ⟨fun vars w' => atomically_eq_ok, fun e => ?_⟩
  constructor
  · rintro ⟨w', failed⟩
    obtain ⟨after, stopped, -⟩ := atomically_eq_error.mp failed
    exact ⟨after, stopped⟩
  · rintro ⟨after, stopped⟩
    exact ⟨_, atomically_eq_error.mpr ⟨after, stopped, rfl⟩⟩

/-- What is dropped has the type of the operand that was pushed for it. -/
theorem instr_explicit_iff_drop : ∃ after,
    instr "drop" .none [.localVar ⟨0, .i32⟩] ⟨Context.forFunction ⟨[.i32], []⟩, ()⟩ =
      .ok [] after ∧
    instrByHand "drop" .none [.localVar ⟨0, .i32⟩] ⟨Context.forFunction ⟨[.i32], []⟩, ()⟩ =
      .ok [] after ∧
    after.context.varsMade = 1 ∧ after.context.frame.body.length = 2 := by
  obtain ⟨vars, after, done, none, ids, length⟩ : ∃ vars after,
      instr "drop" .none [.localVar ⟨0, .i32⟩] ⟨Context.forFunction ⟨[.i32], []⟩, ()⟩ =
        .ok vars after ∧
      vars = [] ∧ after.context.varsMade = 1 ∧ after.context.frame.body.length = 2 :=
    ⟨_, _, rfl, rfl, rfl, rfl⟩
  subst none
  have same := ((instr_explicit_iff rfl rfl (by decide) .none _).1 _ _).mp done
  exact ⟨after, done, same, ids, length⟩

end Wasm.Construction
