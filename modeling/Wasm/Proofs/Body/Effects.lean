import Wasm.Body.Effect
import Wasm.Proofs.Monads

/-!
# The typing rules as a judgement

What an instruction does with an argument, as rules of inference with one for
each way to be typed. The function that finds effects finds what the rules
derive, so later proofs take a derivation apart and do not open the function.
-/

namespace Wasm

/-- What rules look at. Those of one family share a function, or ask the same kind
of question. -/
inductive RuleFamily where
  /-- The signature of the definition. -/
  | signature
  /-- One handle, with the type that it carries. -/
  | handle
  /-- A condition on the types in the argument or on the stack. -/
  | condition
  /-- The constructs around the instruction. -/
  | branch
  /-- Nothing but the kind of the argument. -/
  | kind

def TypingRule.family : TypingRule → RuleFamily
  | .fixed | .trap | .memory | .constant | .shuffle | .lane | .memoryAccess => .signature
  | .localGet | .localSet | .localTee => .handle
  | .tableGet | .tableSet | .tableSize | .tableGrow | .tableFill => .handle
  | .globalSet | .callIndirect | .tableCopy | .refNull | .select => .condition
  | .br | .brIf | .brTable => .branch
  | _ => .kind

namespace InstrDef

variable {d : InstrDef} {c : Context} {rule : TypingRule} {argument : Argument} {effect : Effect}

/-- Under a typing rule, an instruction has an effect with an argument, where it
stands in `c`. -/
inductive HasEffect (d : InstrDef) (c : Context) : TypingRule → Argument → Effect → Prop
  | fixed {type : FuncType} (signature : d.signature = some type) :
      HasEffect d c .fixed .none { params := type.params, results := type.results }
  | trap {type : FuncType} (signature : d.signature = some type) :
      HasEffect d c .trap .none
        { params := type.params, results := type.results, diverges := true }
  | constant {immediate : Immediate} {type : FuncType} (fits : d.shape.fits immediate = true)
      (signature : d.signature = some type) :
      HasEffect d c .constant (.literal immediate)
        { params := type.params, results := type.results, capture := .literal immediate }
  | shuffle {lanes : Vector UInt8 16} {type : FuncType}
      (inside : ∀ lane ∈ lanes.toList, lane < 32) (signature : d.signature = some type) :
      HasEffect d c .shuffle (.literal (.shuffle lanes))
        { params := type.params, results := type.results, capture := .literal (.shuffle lanes) }
  | lane {l lanes : UInt8} {type : FuncType} (shape : d.shape = .lane lanes) (inside : l < lanes)
      (signature : d.signature = some type) :
      HasEffect d c .lane (.lane l)
        { params := type.params, results := type.results, capture := .literal (.lane l) }
  | fence : HasEffect d c .fence .none { capture := .literal .reserved }
  /-- Without an argument the alignment is the natural one. -/
  | naturalAccess {natural : UInt32} {type : FuncType} (shape : d.shape = .memArg natural)
      (signature : d.signature = some type) :
      HasEffect d c .memoryAccess .none {
        params := type.params
        results := type.results
        references := [.memoryUse]
        capture := .literal (.memArg ⟨natural, 0⟩) }
  | access {natural offset : UInt32} {align : Option UInt32} {type : FuncType}
      (shape : d.shape = .memArg natural) (small : align.getD natural ≤ natural)
      (exactly : d.opcode.isAtomic = true → align.getD natural = natural)
      (signature : d.signature = some type) :
      HasEffect d c .memoryAccess (.memory offset align) {
        params := type.params
        results := type.results
        references := [.memoryUse]
        capture := .literal (.memArg ⟨align.getD natural, offset⟩) }
  | memory {type : FuncType} (signature : d.signature = some type) :
      HasEffect d c .memory .none
        { params := type.params, results := type.results, references := [.memoryUse] }
  | localGet {handle : LocalHandle} (known : c.localType handle = .ok handle.type) :
      HasEffect d c .localGet (.localVar handle)
        { results := [handle.type], capture := .literal (.index handle.index) }
  | localSet {handle : LocalHandle} (known : c.localType handle = .ok handle.type) :
      HasEffect d c .localSet (.localVar handle)
        { params := [handle.type], capture := .literal (.index handle.index) }
  | localTee {handle : LocalHandle} (known : c.localType handle = .ok handle.type) :
      HasEffect d c .localTee (.localVar handle) {
        params := [handle.type]
        results := [handle.type]
        capture := .literal (.index handle.index) }
  | globalGet {handle : GlobalHandle} :
      HasEffect d c .globalGet (.globalVar handle)
        { results := [handle.type.value], references := [.global handle.id] }
  | globalSet {handle : GlobalHandle} (isMutable : handle.type.isMutable = true) :
      HasEffect d c .globalSet (.globalVar handle)
        { params := [handle.type.value], references := [.global handle.id] }
  | call {handle : FuncHandle} :
      HasEffect d c .call (.func handle) {
        params := handle.type.params
        results := handle.type.results
        references := [.func handle.id] }
  | callIndirect {table : TableHandle} {type : FuncType}
      (holdsFuncs : table.type.element = .funcRef) :
      HasEffect d c .callIndirect (.callIndirect table type) {
        params := type.params ++ [.i32]
        results := type.results
        references := [.table table.id, .signature type] }
  | ret : HasEffect d c .ret .none { params := c.returnTypes, diverges := true }
  | br {target : Target} {depth : Nat} {types : List ValType}
      (resolved : c.resolveTarget target = .ok (depth, types)) :
      HasEffect d c .br (.branch target) {
        params := types
        capture := .literal (.index (UInt32.ofNat depth))
        diverges := true }
  | brIf {target : Target} {depth : Nat} {types : List ValType}
      (resolved : c.resolveTarget target = .ok (depth, types)) :
      HasEffect d c .brIf (.branch target) {
        params := types ++ [.i32]
        results := types
        capture := .literal (.index (UInt32.ofNat depth)) }
  | brTable {targets : List Target} {fallback : Target} {depth : Nat} {types : List ValType}
      {labels : List UInt32} (resolved : c.resolveTarget fallback = .ok (depth, types))
      (labelled : d.branchLabels c types.length targets = .ok labels) :
      HasEffect d c .brTable (.branchTable targets fallback) {
        params := types ++ [.i32]
        capture := .literal (.brTable labels (UInt32.ofNat depth))
        diverges := true }
  | drop : HasEffect d c .drop .none { params := [(c.peekType 0).getD .i32] }
  | select {type : ValType} (chosen : (c.peekType 1).getD .i32 = type)
      (noRef : type.isRef = false) :
      HasEffect d c .select .none { params := [type, type, .i32], results := [type] }
  | selectTyped {type : ValType} :
      HasEffect d c .selectTyped (.type type) {
        params := [type, type, .i32]
        results := [type]
        capture := .literal (.valTypes [type]) }
  | refNull {type : ValType} (isRef : type.isRef = true) :
      HasEffect d c .refNull (.type type) { results := [type], capture := .literal (.refType type) }
  | refIsNull :
      HasEffect d c .refIsNull .none
        { params := [((c.peekType 0).filter (·.isRef)).getD .funcRef], results := [.i32] }
  | refFunc {handle : FuncHandle} :
      HasEffect d c .refFunc (.func handle)
        { results := [.funcRef], references := [.func handle.id, .funcMention handle.id] }
  | tableGet {table : TableHandle} :
      HasEffect d c .tableGet (.table table)
        { params := [.i32], results := [table.type.element], references := [.table table.id] }
  | tableSet {table : TableHandle} :
      HasEffect d c .tableSet (.table table)
        { params := [.i32, table.type.element], references := [.table table.id] }
  | tableSize {table : TableHandle} :
      HasEffect d c .tableSize (.table table)
        { results := [.i32], references := [.table table.id] }
  | tableGrow {table : TableHandle} :
      HasEffect d c .tableGrow (.table table) {
        params := [table.type.element, .i32]
        results := [.i32]
        references := [.table table.id] }
  | tableFill {table : TableHandle} :
      HasEffect d c .tableFill (.table table)
        { params := [.i32, table.type.element, .i32], references := [.table table.id] }
  | tableCopy {destination source : TableHandle}
      (agree : destination.type.element = source.type.element) :
      HasEffect d c .tableCopy (.tablePair destination source) {
        params := [.i32, .i32, .i32]
        references := [.table destination.id, .table source.id] }
  | block {type : FuncType} {body : List Draft} :
      HasEffect d c .block (.block type body) {
        params := type.params
        results := type.results
        references := structuredReferences type body
        capture := .block type body }
  | ifThen {type : FuncType} {thenBody : List Draft} :
      HasEffect d c .conditional (.ifThen type thenBody) {
        params := type.params ++ [.i32]
        results := type.results
        references := structuredReferences type thenBody
        capture := .ifThen type thenBody }
  | ifElse {type : FuncType} {thenBody elseBody : List Draft} :
      HasEffect d c .conditional (.ifElse type thenBody elseBody) {
        params := type.params ++ [.i32]
        results := type.results
        references := structuredReferences type (thenBody ++ elseBody)
        capture := .ifElse type thenBody elseBody }

/-! ## Functions that rules share -/

theorem fixedEffect_eq_ok {capture : Capture} {references : List Reference} :
    d.fixedEffect capture references = .ok effect ↔ ∃ type, d.signature = some type ∧
      effect = { params := type.params, results := type.results, references, capture } := by
  rw [fixedEffect, signatureOf]
  cases d.signature with
  | none => simp [bind, Except.bind]
  | some type => simp [bind, Except.bind, pure, Except.pure, eq_comm]

theorem plainEffect_eq_ok {references : List Reference} :
    d.plainEffect argument references = .ok effect ↔ argument = .none ∧ ∃ type,
      d.signature = some type ∧
      effect = { params := type.params, results := type.results, references } := by
  cases argument with
  | none => simp only [plainEffect, fixedEffect_eq_ok, true_and]
  | _ => simp [plainEffect, refuse]

theorem constantEffect_eq_ok :
    d.constantEffect argument = .ok effect ↔ ∃ immediate type, argument = .literal immediate ∧
      d.shape.fits immediate = true ∧ d.signature = some type ∧ effect =
        { params := type.params, results := type.results, capture := .literal immediate } := by
  cases argument with
  | literal immediate =>
      simp only [constantEffect, Except.ite_error_eq_ok, fixedEffect_eq_ok, Argument.literal.injEq,
        exists_and_left, exists_eq_left']
  | _ => simp [constantEffect, refuse]

/-- Lanes are those of two vectors, one after the other. -/
theorem find_lane_eq_none {lanes : Vector UInt8 16} :
    lanes.toList.find? (32 ≤ ·) = none ↔ ∀ lane ∈ lanes.toList, lane < 32 := by
  simp only [List.find?_eq_none, decide_eq_true_eq, UInt8.not_le]

theorem shuffleEffect_eq_ok :
    d.shuffleEffect argument = .ok effect ↔ ∃ lanes type, argument = .literal (.shuffle lanes) ∧
      (∀ lane ∈ lanes.toList, lane < 32) ∧ d.signature = some type ∧
      effect = { params := type.params, results := type.results,
                 capture := .literal (.shuffle lanes) } := by
  unfold shuffleEffect
  split
  · rename_i lanes
    simp only [← find_lane_eq_none, Argument.literal.injEq, Immediate.shuffle.injEq,
      exists_and_left, exists_eq_left']
    cases lanes.toList.find? (32 ≤ ·) with
    | none => simp only [fixedEffect_eq_ok, true_and]
    | some lane => simp
  · rename_i other
    constructor
    · exact nofun
    · rintro ⟨lanes, type, rfl, -⟩
      exact absurd rfl (other lanes)

theorem laneEffect_eq_ok :
    d.laneEffect argument = .ok effect ↔ ∃ l lanes type, argument = .lane l ∧
      d.shape = .lane lanes ∧ l < lanes ∧ d.signature = some type ∧ effect =
        { params := type.params, results := type.results, capture := .literal (.lane l) } := by
  cases argument with
  | lane l =>
      simp only [laneEffect, Argument.lane.injEq, exists_and_left, exists_eq_left']
      cases d.shape with
      | lane lanes =>
          simp only [Except.ite_error_eq_ok, fixedEffect_eq_ok, Shape.lane.injEq, exists_eq_left']
      | _ => simp
  | _ => simp [laneEffect, refuse]

theorem accessEffect_eq_ok {offset : UInt32} {align : Option UInt32} :
    d.accessEffect offset align = .ok effect ↔ ∃ natural type, d.shape = .memArg natural ∧
      align.getD natural ≤ natural ∧ (d.opcode.isAtomic = true → align.getD natural = natural) ∧
      d.signature = some type ∧ effect = {
        params := type.params
        results := type.results
        references := [.memoryUse]
        capture := .literal (.memArg ⟨align.getD natural, offset⟩) } := by
  rw [accessEffect]
  cases d.shape with
  | memArg natural =>
      simp only [Except.error_ite_eq_ok, fixedEffect_eq_ok, not_or, not_and, not_not,
        UInt32.not_lt, Shape.memArg.injEq, exists_and_left, exists_eq_left', and_assoc]
  | _ => simp

theorem tableEffect_eq_ok {params results : ValType → List ValType} :
    d.tableEffect params results argument = .ok effect ↔ ∃ table, argument = .table table ∧
      effect = {
        params := params table.type.element
        results := results table.type.element
        references := [.table table.id] } := by
  cases argument with
  | table table => simp [tableEffect, eq_comm]
  | _ => simp [tableEffect, refuse]

theorem localEffect_eq_ok {params results : ValType → List ValType} :
    d.localEffect c params results argument = .ok effect ↔ ∃ handle, argument = .localVar handle ∧
      c.localType handle = .ok handle.type ∧ effect = {
        params := params handle.type
        results := results handle.type
        capture := .literal (.index handle.index) } := by
  cases argument with
  | localVar handle =>
      simp only [localEffect, Context.localType, Argument.localVar.injEq, exists_eq_left']
      split
      · simp [eq_comm]
      · simp
  | _ => simp [localEffect, refuse]

/-! ## Adequacy -/

theorem HasEffect.of_signature (family : rule.family = .signature) (typing : d.typing = rule)
    (allowed : d.effect c argument = .ok effect) : d.HasEffect c rule argument effect := by
  unfold InstrDef.effect at allowed
  rw [typing] at allowed
  cases rule with
  | fixed =>
      obtain ⟨rfl, type, signature, rfl⟩ := plainEffect_eq_ok.mp allowed
      exact .fixed signature
  | trap =>
      obtain ⟨plain, found, same⟩ := Except.bind_eq_ok.mp allowed
      obtain ⟨rfl, type, signature, rfl⟩ := plainEffect_eq_ok.mp found
      cases same
      exact .trap signature
  | memory =>
      obtain ⟨rfl, type, signature, rfl⟩ := plainEffect_eq_ok.mp allowed
      exact .memory signature
  | constant =>
      obtain ⟨immediate, type, rfl, fits, signature, rfl⟩ := constantEffect_eq_ok.mp allowed
      exact .constant fits signature
  | shuffle =>
      obtain ⟨lanes, type, rfl, inside, signature, rfl⟩ := shuffleEffect_eq_ok.mp allowed
      exact .shuffle inside signature
  | lane =>
      obtain ⟨l, lanes, type, rfl, shape, inside, signature, rfl⟩ := laneEffect_eq_ok.mp allowed
      exact .lane shape inside signature
  | memoryAccess =>
      cases argument with
      | none =>
          obtain ⟨natural, type, shape, -, -, signature, rfl⟩ := accessEffect_eq_ok.mp allowed
          exact .naturalAccess shape signature
      | memory offset align =>
          obtain ⟨natural, type, shape, small, exactly, signature, rfl⟩ :=
            accessEffect_eq_ok.mp allowed
          exact .access shape small exactly signature
      | _ => cases allowed
  | _ => cases family

theorem HasEffect.of_handle (family : rule.family = .handle) (typing : d.typing = rule)
    (allowed : d.effect c argument = .ok effect) : d.HasEffect c rule argument effect := by
  unfold InstrDef.effect at allowed
  rw [typing] at allowed
  cases rule with
  | localGet | localSet | localTee =>
      obtain ⟨handle, rfl, known, rfl⟩ := localEffect_eq_ok.mp allowed
      constructor
      exact known
  | tableGet | tableSet | tableSize | tableGrow | tableFill =>
      obtain ⟨table, rfl, rfl⟩ := tableEffect_eq_ok.mp allowed
      constructor
  | _ => cases family

/-- An argument of another kind is refused before the condition is looked at. -/
theorem HasEffect.of_condition (family : rule.family = .condition) (typing : d.typing = rule)
    (allowed : d.effect c argument = .ok effect) : d.HasEffect c rule argument effect := by
  unfold InstrDef.effect at allowed
  rw [typing] at allowed
  cases rule with
  | globalSet =>
      cases argument with
      | globalVar handle =>
          obtain ⟨isMutable, same⟩ := Except.ite_error_eq_ok.mp allowed
          cases same
          exact .globalSet isMutable
      | _ => cases allowed
  | callIndirect =>
      cases argument with
      | callIndirect table type =>
          obtain ⟨holdsFuncs, same⟩ := Except.ite_error_eq_ok.mp allowed
          cases same
          exact .callIndirect holdsFuncs
      | _ => cases allowed
  | tableCopy =>
      cases argument with
      | tablePair destination source =>
          obtain ⟨agree, same⟩ := Except.ite_error_eq_ok.mp allowed
          cases same
          exact .tableCopy agree
      | _ => cases allowed
  | refNull =>
      cases argument with
      | type type =>
          obtain ⟨isRef, same⟩ := Except.ite_error_eq_ok.mp allowed
          cases same
          exact .refNull isRef
      | _ => cases allowed
  | select =>
      cases argument with
      | none =>
          obtain ⟨noRef, same⟩ := Except.error_ite_eq_ok.mp allowed
          cases same
          exact .select rfl (Bool.eq_false_iff.mpr noRef)
      | _ => cases allowed
  | _ => cases family

theorem HasEffect.of_branch (family : rule.family = .branch) (typing : d.typing = rule)
    (allowed : d.effect c argument = .ok effect) : d.HasEffect c rule argument effect := by
  unfold InstrDef.effect at allowed
  rw [typing] at allowed
  cases rule with
  | br | brIf =>
      cases argument with
      | branch target =>
          obtain ⟨⟨depth, types⟩, resolved, same⟩ := Except.bind_eq_ok.mp allowed
          cases same
          constructor
          exact resolved
      | _ => cases allowed
  | brTable =>
      cases argument with
      | branchTable targets fallback =>
          obtain ⟨⟨depth, types⟩, resolved, rest⟩ := Except.bind_eq_ok.mp allowed
          obtain ⟨labels, labelled, same⟩ := Except.bind_eq_ok.mp rest
          cases same
          exact .brTable resolved labelled
      | _ => cases allowed
  | _ => cases family

/-- Here there is nothing to ask once the argument is of the right kind. -/
theorem HasEffect.of_kind (family : rule.family = .kind) (typing : d.typing = rule)
    (allowed : d.effect c argument = .ok effect) : d.HasEffect c rule argument effect := by
  unfold InstrDef.effect at allowed
  rw [typing] at allowed
  cases rule with
  | fence | globalGet | call | ret | drop | selectTyped | refIsNull | refFunc | block
  | conditional =>
      cases argument <;> cases allowed <;> constructor
  | _ => cases family

/-- What the function finds can be derived. -/
theorem HasEffect.of_eq_ok (typing : d.typing = rule) (allowed : d.effect c argument = .ok effect) :
    d.HasEffect c rule argument effect := by
  cases family : rule.family with
  | signature => exact .of_signature family typing allowed
  | handle => exact .of_handle family typing allowed
  | condition => exact .of_condition family typing allowed
  | branch => exact .of_branch family typing allowed
  | kind => exact .of_kind family typing allowed

/-- What can be derived is found. -/
theorem HasEffect.eq_ok (derived : d.HasEffect c rule argument effect)
    (typing : d.typing = rule) : d.effect c argument = .ok effect := by
  unfold InstrDef.effect
  rw [typing]
  cases derived with
  | fixed signature | memory signature => exact plainEffect_eq_ok.mpr ⟨rfl, _, signature, rfl⟩
  | trap signature =>
      exact Except.bind_eq_ok.mpr ⟨_, plainEffect_eq_ok.mpr ⟨rfl, _, signature, rfl⟩, rfl⟩
  | constant fits signature =>
      exact constantEffect_eq_ok.mpr ⟨_, _, rfl, fits, signature, rfl⟩
  | shuffle inside signature =>
      exact shuffleEffect_eq_ok.mpr ⟨_, _, rfl, inside, signature, rfl⟩
  | lane shape inside signature =>
      exact laneEffect_eq_ok.mpr ⟨_, _, _, rfl, shape, inside, signature, rfl⟩
  | naturalAccess shape signature =>
      exact accessEffect_eq_ok.mpr
        ⟨_, _, shape, UInt32.le_refl _, fun _ => rfl, signature, rfl⟩
  | access shape small exactly signature =>
      exact accessEffect_eq_ok.mpr ⟨_, _, shape, small, exactly, signature, rfl⟩
  | localGet known | localSet known | localTee known =>
      exact localEffect_eq_ok.mpr ⟨_, rfl, known, rfl⟩
  | globalSet guard | callIndirect guard | tableCopy guard | refNull guard => exact if_pos guard
  | select chosen noRef =>
      dsimp only
      rw [chosen]
      exact if_neg (Bool.eq_false_iff.mp noRef)
  | br resolved | brIf resolved => exact Except.bind_eq_ok.mpr ⟨_, resolved, rfl⟩
  | brTable resolved labelled =>
      exact Except.bind_eq_ok.mpr ⟨_, resolved, Except.bind_eq_ok.mpr ⟨_, labelled, rfl⟩⟩
  | _ => rfl

/-- The function finds an effect where the rules derive it. -/
theorem effect_eq_ok (typing : d.typing = rule) :
    d.effect c argument = .ok effect ↔ d.HasEffect c rule argument effect :=
  ⟨.of_eq_ok typing, fun derived => derived.eq_ok typing⟩

theorem exists_hasEffect (allowed : d.effect c argument = .ok effect) :
    ∃ rule, d.typing = rule ∧ d.HasEffect c rule argument effect :=
  ⟨_, rfl, .of_eq_ok rfl allowed⟩

/-! ## Structured instructions -/

theorem effect_block {type : FuncType} {body : List Draft}
    (allowed : d.effect c (.block type body) = .ok effect) :
    d.typing = .block ∧ effect = {
      params := type.params
      results := type.results
      references := structuredReferences type body
      capture := .block type body } := by
  obtain ⟨rule, typing, derived⟩ := exists_hasEffect allowed
  cases derived
  exact ⟨typing, rfl⟩

theorem effect_ifThen {type : FuncType} {thenBody : List Draft}
    (allowed : d.effect c (.ifThen type thenBody) = .ok effect) :
    d.typing = .conditional ∧ effect = {
      params := type.params ++ [.i32]
      results := type.results
      references := structuredReferences type thenBody
      capture := .ifThen type thenBody } := by
  obtain ⟨rule, typing, derived⟩ := exists_hasEffect allowed
  cases derived
  exact ⟨typing, rfl⟩

theorem effect_ifElse {type : FuncType} {thenBody elseBody : List Draft}
    (allowed : d.effect c (.ifElse type thenBody elseBody) = .ok effect) :
    d.typing = .conditional ∧ effect = {
      params := type.params ++ [.i32]
      results := type.results
      references := structuredReferences type (thenBody ++ elseBody)
      capture := .ifElse type thenBody elseBody } := by
  obtain ⟨rule, typing, derived⟩ := exists_hasEffect allowed
  cases derived
  exact ⟨typing, rfl⟩

/-- Bodies are captured of structured instructions only. -/
theorem literal_of_effect (allowed : d.effect c argument = .ok effect)
    (plain : d.typing ≠ .block ∧ d.typing ≠ .conditional) : ∃ i, effect.capture = .literal i := by
  obtain ⟨rule, typing, derived⟩ := exists_hasEffect allowed
  cases derived with
  | block => exact absurd typing plain.1
  | ifThen | ifElse => exact absurd typing plain.2
  | _ => exact ⟨_, rfl⟩

end InstrDef

end Wasm
