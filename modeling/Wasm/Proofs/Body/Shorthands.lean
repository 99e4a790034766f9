import Wasm.Proofs.Body.Operands

/-!
# Shorthands that fail

A shorthand writes one instruction, and where it returns a single value it
looks at how many there are when the instruction is written already. So it is
the instruction alone that has to be undone when it is refused, unless the
mnemonic is the client's choice and stands for an instruction that does not
leave exactly one value: that one stays written although the shorthand fails.
-/

namespace Wasm

/-! ## How many values an instruction leaves -/

/-- The number of results, where it is the same at every use. -/
def InstrDef.resultCount (d : InstrDef) : Option Nat :=
  match d.typing with
  | .fixed | .trap | .constant | .shuffle | .lane | .memoryAccess | .memory =>
    d.signature.map (·.results.length)
  | .localGet | .localTee | .globalGet | .select | .selectTyped | .refNull | .refIsNull | .refFunc
  | .tableGet | .tableSize | .tableGrow => some 1
  | .fence | .localSet | .globalSet | .ret | .br | .brTable | .drop | .tableSet | .tableFill
  | .tableCopy => some 0
  | .call | .callIndirect | .brIf | .block | .conditional => none

namespace InstrDef

variable {d : InstrDef} {c : Context} {effect : Effect} {argument : Argument}

/-- The typing rules leave as many results as the count says. -/
theorem length_results {count : Nat} (h : d.effect c argument = .ok effect)
    (known : d.resultCount = some count) : effect.results.length = count := by
  obtain ⟨rule, typing, derived⟩ := exists_hasEffect h
  rw [resultCount, typing] at known
  cases derived with
  -- What has a signature leaves the results of its signature.
  | fixed signature | trap signature | constant _ signature | shuffle _ signature
  | lane _ _ signature | naturalAccess _ signature | access _ _ _ signature | memory signature =>
      rw [signature] at known
      exact Option.some.inj known
  | call | callIndirect | brIf | block | ifThen | ifElse => cases known
  | _ => exact Option.some.inj known

end InstrDef

/-- The mnemonics of the shorthands that return one value, where it is not the
client who names the instruction. -/
def oneValueMnemonics : List String :=
  ["i32.const", "i64.const", "f32.const", "f64.const", "v128.const", "local.get", "local.tee",
    "global.get", "select", "select.typed", "ref.null", "ref.func", "ref.is_null", "memory.size",
    "memory.grow", "table.get", "table.size", "table.grow", "i8x16.shuffle"]

/-- Lanes are single values too. -/
theorem InstrSet.resultCount_of_oneValue : ∀ d ∈ standard.defs,
    d.name ∈ oneValueMnemonics ∨ d.typing = .lane → d.resultCount = some 1 := by
  -- Few definitions have another number of results, and only their names are compared.
  have checked : ∀ d ∈ standard.defs,
      d.resultCount = some 1 ∨ d.typing ≠ .lane ∧ d.name ∉ oneValueMnemonics := by
    decide +kernel
  intro d member one
  rcases checked d member with known | ⟨notLane, notNamed⟩
  · exact known
  · exact absurd one (not_or.mpr ⟨notNamed, notLane⟩)

namespace Construction

variable {σ α : Type} {name : String} {argument : Argument} {operands : List Operand}
  {w w' : Workspace σ} {e : BuildError}

/-! ## The instruction of a shorthand -/

/-- An instruction that is refused declares no locals either. -/
theorem locals_of_instr_error (failed : instr name argument operands w = .error e w') :
    w'.context.locals = w.context.locals := by
  rw [instr_eq_atomically] at failed
  obtain ⟨after, stopped, rfl⟩ := atomically_eq_error.mp failed
  exact (topped_of_instrSteps stopped).same

/-- Behind an instruction its operands and the instruction itself are written. -/
theorem extends_instr {vars : List StackVar} (done : instr name argument operands w = .ok vars w') :
    ∃ d effect drafts, InstrSet.standard.named name = .ok d ∧ vars.length = effect.results.length ∧
      (∃ c, d.effect c argument = .ok effect) ∧
      w.context.Extends (drafts ++ [Context.draftOf d effect]) w'.context := by
  obtain ⟨d, bound, found, -, placed, written⟩ := instr_eq_ok.mp done
  obtain ⟨c', performed, rfl⟩ := update_eq_ok.mp written
  obtain ⟨drafts, recorded⟩ := traces_kept.pushOperands (bindOperands_eq_ok.mp placed).2.2
  obtain ⟨effect, allowed, added⟩ := Context.extends_perform performed
  obtain ⟨effect', popped, allowed', -, rfl, -⟩ := Context.perform_eq_ok.mp performed
  cases allowed.symm.trans allowed'
  refine ⟨d, effect, drafts, found, ?_, ⟨_, allowed⟩, recorded.extends.trans added⟩
  simp [Context.push, Context.freshVars]

theorem single_eq_error {vars : List StackVar} :
    single name vars w = .error e w' ↔
      vars.length ≠ 1 ∧ e = .invalidOperand name .notOneValue ∧ w' = w := by
  unfold single
  split
  · exact iff_of_false nofun fun h => h.1 rfl
  · rename_i several
    have count : vars.length ≠ 1 := fun one => by
      obtain ⟨var, rfl⟩ := List.length_eq_one_iff.mp one
      exact several var rfl
    constructor
    · intro thrown
      cases thrown
      exact ⟨count, rfl, rfl⟩
    · rintro ⟨-, rfl, rfl⟩
      rfl

/-! ## Shorthands -/

/-- `act` is a shorthand for the instruction of `name` with such an argument and
such operands. If `picked` holds the client has picked the mnemonic, and gets
one value back. The shorthands that are not listed by name are of the first
three kinds by definition. -/
inductive Shorthand : {α : Type} → (act : Construction σ α) → (picked : Bool) → (name : String) →
    Argument → List Operand → Prop
  /-- Calls and conditional branches return all values. -/
  | all (name : String) (argument : Argument) (operands : List Operand) :
      Shorthand (instr name argument operands) false name argument operands
  /-- Stores, drops, assignments, fills, copies and branches return none. -/
  | none (name : String) (argument : Argument) (operands : List Operand) :
      Shorthand (effect name argument operands) false name argument operands
  | one {name : String} (known : name ∈ oneValueMnemonics) (argument : Argument)
      (operands : List Operand) :
      Shorthand (value name argument operands) false name argument operands
  | extractLane (name : String) (lane : UInt8) (vector : Operand) :
      Shorthand (Construction.extractLane name lane vector) false name (.lane lane) [vector]
  | replaceLane (name : String) (lane : UInt8) (vector v : Operand) :
      Shorthand (Construction.replaceLane name lane vector v) false name (.lane lane) [vector, v]
  | load (name : String) (offset : UInt32) (address : Operand) :
      Shorthand (Construction.load name offset address) true name (.memory offset none) [address]
  | unary (name : String) (a : Operand) :
      Shorthand (Construction.unary name a) true name .none [a]
  | binary (name : String) (a b : Operand) :
      Shorthand (Construction.binary name a b) true name .none [a, b]

/-- The instruction is written, operands and all, but does not leave exactly one value. -/
structure LeftWritten (name : String) (argument : Argument) (operands : List Operand)
    (w w' : Workspace σ) (d : InstrDef) (effect : Effect) : Prop where
  found : InstrSet.standard.named name = .ok d
  count : d.resultCount ≠ some 1
  allowed : ∃ c, d.effect c argument = .ok effect
  done : ∃ vars, instr name argument operands w = .ok vars w' ∧ vars.length ≠ 1
  written : ∃ drafts, w.context.Extends (drafts ++ [Context.draftOf d effect]) w'.context

/-- A shorthand for one value fails with its instruction or behind it. -/
theorem value_eq_error (failed : value name argument operands w = .error e w') :
    instr name argument operands w = .error e w' ∨
      e = .invalidOperand name .notOneValue ∧
        ∃ d effect, LeftWritten name argument operands w w' d effect := by
  rcases EStateM.bind_eq_error.mp failed with refused | ⟨vars, w₁, done, miscounted⟩
  · exact .inl refused
  · obtain ⟨several, rfl, rfl⟩ := single_eq_error.mp miscounted
    obtain ⟨d, effect, drafts, found, count, ⟨c, allowed⟩, written⟩ := extends_instr done
    refine .inr ⟨rfl, d, effect, found, fun one => ?_, ⟨c, allowed⟩, ⟨vars, done, several⟩,
      drafts, written⟩
    exact several (count.trans (InstrDef.length_results allowed one))

/-- A shorthand that fails leaves the frames and the locals as they were, unless
the client picked the mnemonic of an instruction that does not leave exactly
one value. That instruction stays written then. -/
theorem Shorthand.undone_unless_picked {act : Construction σ α} {picked : Bool}
    (call : Shorthand act picked name argument operands) (failed : act w = .error e w') :
    w.context.Undone w'.context ∧ w'.context.locals = w.context.locals ∨
      picked = true ∧ e = .invalidOperand name .notOneValue ∧
        ∃ d effect, LeftWritten name argument operands w w' d effect := by
  have refused : instr name argument operands w = .error e w' →
      w.context.Undone w'.context ∧ w'.context.locals = w.context.locals := fun refused =>
    ⟨undone_of_instr_error refused, locals_of_instr_error refused⟩
  cases call with
  | all => exact .inl (refused failed)
  | none =>
      rcases EStateM.bind_eq_error.mp failed with early | ⟨vars, w₁, -, late⟩
      · exact .inl (refused early)
      · cases late
  | one known =>
      rcases value_eq_error failed with early | ⟨-, d, effect, left⟩
      · exact .inl (refused early)
      · obtain ⟨member, rfl⟩ := InstrSet.mem_of_named left.found
        exact absurd (InstrSet.resultCount_of_oneValue d member (.inl known)) left.count
  | extractLane | replaceLane =>
      rcases value_eq_error failed with early | ⟨-, d, effect, left⟩
      · exact .inl (refused early)
      · obtain ⟨c, allowed⟩ := left.allowed
        have member := (InstrSet.mem_of_named left.found).1
        obtain ⟨rule, typing, derived⟩ := InstrDef.exists_hasEffect allowed
        cases derived
        exact absurd (InstrSet.resultCount_of_oneValue d member (.inr typing)) left.count
  | load | unary | binary =>
      rcases value_eq_error failed with early | late
      · exact .inl (refused early)
      · exact .inr ⟨rfl, late⟩

/-- The second operand has the wrong type, and is taken away again. -/
theorem undone_unless_picked_mixedSum : ∃ e w',
    binary "i32.add" (.var ⟨0, .i32⟩) (.i64 1) ⟨leftBy oneConstant, ()⟩ = .error e w' ∧
    (leftBy oneConstant).Undone w'.context ∧ w'.context.locals = #[] := by
  have failed : binary "i32.add" (.var ⟨0, .i32⟩) (.i64 1) ⟨leftBy oneConstant, ()⟩ =
      .error (.stackType "i32.add" [.i32, .i32] [.i32, .i64])
        ⟨{ leftBy oneConstant with varsMade := 2 }, ()⟩ := rfl
  rcases (Shorthand.binary _ _ _).undone_unless_picked failed with undone | ⟨-, other, -⟩
  · exact ⟨_, _, failed, undone⟩
  · cases other

/-- Not every shorthand that fails leaves things as they were. -/
theorem not_forall_shorthand_undone : ¬∀ (type : FuncType) (s : Session), Session.Reached type s →
    ∀ (name : String) (a : Operand) (e : BuildError) (w' : Workspace Unit),
      unary name a ⟨s.context, ()⟩ = .error e w' → s.context.Undone w'.context := by
  intro claimed
  obtain ⟨level, gone, reached⟩ := reached_oneConstant
  have undone := claimed _ _ reached "drop" (.var ⟨0, .i32⟩) _ _ rfl
  exact absurd (congrArg Frame.values undone.frame) nofun

end Construction

end Wasm
