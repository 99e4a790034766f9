import Wasm.Proofs.Validation.Step

/-!
# Constructs on both sides

A construct is accepted when its arms are, one frame further in. `Simulates`
is what is known of code that is accepted wherever the two sides are in step.
-/

namespace Wasm

namespace Validation

variable {b : ModuleBuilder} {N : Reference → UInt32 → Prop} {Γ : Env} {d : InstrDef}
  {c c' : Context} {effect : Effect} {vars : List StackVar} {indices : List UInt32} {rule : Rule}
  {s s' : Stacks}

/-! ## Code -/

theorem Env.code_append (s : Stacks) (code code' : List Instr) :
    Γ.code s (code ++ code') = (Γ.code s code).bind (Γ.code · code') := by
  induction code generalizing s with
  | nil => rfl
  | cons i rest ih =>
      simp only [List.cons_append, Env.code, Option.bind_eq_bind]
      cases Γ.instr s i with
      | none => rfl
      | some s' => exact ih s'

/-- From where the algorithm is in step with the stack checker at `c`, it accepts
what the linker makes of the drafts and gets in step at `c'`. -/
def Simulates (Γ : Env) (N : Reference → UInt32 → Prop) (c : Context) (drafts : List Draft)
    (c' : Context) : Prop :=
  ∀ indices s, List.Forall₂ N (Draft.allReferences drafts) indices → Follows c.frames s →
    ∃ code s', Draft.linkAll indices drafts = .ok code ∧ Γ.code s code = some s' ∧
      Follows c'.frames s'

theorem simulates_undone (h : c.Undone c') : Simulates Γ N c [] c' := by
  intro indices s numbers inStep
  cases numbers
  refine ⟨[], s, rfl, rfl, ?_⟩
  rwa [Context.frames, h.frame, h.outer]

theorem Simulates.append {c₁ c₂ c₃ : Context} {drafts drafts' : List Draft}
    (first : Simulates Γ N c₁ drafts c₂) (second : Simulates Γ N c₂ drafts' c₃) :
    Simulates Γ N c₁ (drafts ++ drafts') c₃ := by
  intro indices s numbers inStep
  rw [Draft.allReferences, List.flatMap_append] at numbers
  obtain ⟨own, behind⟩ := forall₂_split numbers
  obtain ⟨code, s₁, linked, accepted, inStep₁⟩ := first _ s own inStep
  obtain ⟨code', s₂, linked', accepted', inStep₂⟩ := second _ s₁ behind inStep₁
  refine ⟨code ++ code', s₂, ?_, ?_, inStep₂⟩
  · have both := Draft.linkAll_append linked linked'
    rwa [List.take_append_drop] at both
  · rw [Env.code_append, accepted]
    exact accepted'

/-- One instruction, as its mnemonic tells the algorithm. -/
theorem simulates_single (named : ruleOf d.name = some rule)
    (accepts : ∀ indices s, List.Forall₂ N effect.references indices → Follows c.frames s →
      Accepts Γ d effect indices rule s c') :
    Simulates Γ N c [Context.draftOf d effect] c' := by
  intro indices s numbers inStep
  have own : List.Forall₂ N effect.references indices := by
    rwa [Draft.allReferences, List.flatMap_singleton] at numbers
  obtain ⟨immediate, s', linked, accepted, left⟩ := accepts indices s own inStep
  have counted := own.length_eq
  refine ⟨[.mk d.name immediate], s', ?_, ?_, left⟩
  · refine linkAll_cons_eq_ok.mpr ⟨Nat.le_of_eq counted, _, [], rfl, ?_, ?_⟩
    · refine link_eq_ok.mpr ⟨immediate, ?_, rfl⟩
      show effect.capture.link d (indices.take effect.references.length) = .ok immediate
      rwa [counted, List.take_length]
    · show Draft.linkAll (indices.drop effect.references.length) [] = .ok []
      rw [counted, List.drop_length]
      exact linkAll_nil_eq_ok.mpr ⟨rfl, rfl⟩
  · simp [Env.code, Env.instr, named, accepted]

/-! ## Constructs -/

/-- A structured instruction has a number for its type, if it needs one, and
the type is what the algorithm then takes it for. -/
theorem blockType_fits {type : FuncType} {bodies : List Draft} (fits : Γ.Fits b N)
    (numbers : List.Forall₂ N (InstrDef.structuredReferences type bodies) indices) :
    ∃ blockType rest, d.blockType type indices = .ok (blockType, rest) ∧
      Γ.blockType blockType = some type ∧ List.Forall₂ N (Draft.allReferences bodies) rest := by
  rw [InstrDef.structuredReferences] at numbers
  obtain ⟨params, results⟩ := type
  unfold InstrDef.blockType
  by_cases needed : FuncType.needsIndex ⟨params, results⟩ = true
  · rw [if_pos needed] at numbers ⊢
    cases numbers with
    | @cons _ n _ rest known others =>
        exact ⟨.funcType n, rest, rfl, fits.signatures _ n known, others⟩
  · rw [if_neg needed] at numbers ⊢
    -- Without a number there are no parameters and at most one result.
    rw [Bool.not_eq_true, FuncType.needsIndex, Bool.or_eq_false_iff, Bool.not_eq_false',
      List.isEmpty_iff, decide_eq_false_iff_not] at needed
    obtain ⟨rfl, few⟩ := needed
    rcases results with _ | ⟨result, _ | ⟨_, _⟩⟩
    · exact ⟨.empty, indices, rfl, rfl, numbers⟩
    · exact ⟨.value result, indices, rfl, rfl, numbers⟩
    · simp at few

theorem follows_exit {body : List Draft} (h : Follows c.frames s)
    (left : c.exit = .ok (body, c')) : ∃ s', s.leave = some s' ∧ Follows c'.frames s' := by
  obtain ⟨checked, -, parent, outer, around, rfl⟩ := Context.exit_eq_ok.mp left
  obtain ⟨s', closed, inStep⟩ := h.leave checked
  rw [around] at inStep
  exact ⟨s', closed, inStep⟩

theorem follows_conclude {argument : Argument} (h : Follows c.frames s)
    (allowed : d.effect c argument = .ok effect)
    (done : c.conclude d argument = .ok (vars, c')) :
    Follows c'.frames (s.pushTypes effect.results) := by
  obtain ⟨effect', allowed', -, rfl⟩ := Context.conclude_eq_ok.mp done
  cases allowed.symm.trans allowed'
  exact (h.push effect.results).write _

/-- The arm that a conditional does not have. -/
theorem follows_missing_arm {type : FuncType} (h : Follows c.frames s)
    (balanced : type.params = type.results) :
    ∃ s', (s.enter false type).leave = some s' ∧ Follows c.frames s' := by
  -- What is pushed when an arm opens is what it has to end with.
  have checked : (c.enter .thenArm type).2.checkEnd = .ok () := by
    have types : (c.enter .thenArm type).2.frame.types = type.results := by
      show (((Context.freshVars c.varsMade type.params).reverse ++ []).map StackVar.type).reverse =
        type.results
      rw [List.append_nil, List.map_reverse, List.reverse_reverse, Context.map_type_freshVars,
        balanced]
    exact if_pos (beq_iff_eq.mpr types)
  exact (h.enter .thenArm type).leave checked

section Arms

variable {popped after closed : Context} {name : String} {type : FuncType} {drafts : List Draft}

/-- A construct with one body, which is accepted inside of it. -/
theorem accepts_block {kind : FrameKind} (links : d.typing.linksBy d.linking = true)
    (fits : Γ.Fits b N) (inStep : Follows c.frames s)
    (taken : c.pop name type.params = .ok popped)
    (inner : Simulates Γ N (popped.enter kind type).2 drafts after)
    (left : after.exit = .ok (drafts, closed))
    (allowed : d.effect closed (.block type drafts) = .ok effect)
    (done : closed.conclude d (.block type drafts) = .ok (vars, c'))
    (numbers : List.Forall₂ N effect.references indices) :
    Accepts Γ d effect indices (if kind == .loop then .loop else .block) s c' := by
  obtain ⟨operands, s₁, popOperands, inStep₁⟩ := inStep.pop taken
  obtain ⟨typing, same⟩ := d.effect_block allowed
  rw [typing] at links
  rw [same] at numbers
  obtain ⟨blockType, rest, typed, known, others⟩ := blockType_fits (d := d) fits numbers
  obtain ⟨code, s₂, linked, accepted, inStep₂⟩ := inner rest _ others (inStep₁.enter kind type)
  obtain ⟨s₃, closes, inStep₃⟩ := follows_exit inStep₂ left
  refine ⟨.block blockType code, s₃.pushTypes effect.results, ?_, ?_,
    follows_conclude inStep₃ allowed done⟩
  · rw [same]
    exact (link_block (beq_iff_eq.mp links)).mpr ⟨blockType, rest, code, typed, linked, rfl⟩
  · rw [same]
    cases isLoop : kind == .loop <;> rw [isLoop] at accepted <;>
      simp [Env.immediate, known, popOperands, accepted, closes]

/-- Without a second arm the operands of the construct are its results. -/
theorem accepts_ifThen (links : d.typing.linksBy d.linking = true) (fits : Γ.Fits b N)
    (inStep : Follows c.frames s) (balanced : type.params = type.results)
    (taken : c.pop name (type.params ++ [.i32]) = .ok popped)
    (inner : Simulates Γ N (popped.enter .thenArm type).2 drafts after)
    (left : after.exit = .ok (drafts, closed))
    (allowed : d.effect closed (.ifThen type drafts) = .ok effect)
    (done : closed.conclude d (.ifThen type drafts) = .ok (vars, c'))
    (numbers : List.Forall₂ N effect.references indices) :
    Accepts Γ d effect indices .conditional s c' := by
  obtain ⟨operands, s₁, popOperands, inStep₁⟩ := inStep.pop taken
  obtain ⟨condition, operands', s₀, popFirst, popOthers⟩ := popTypes_of_concat _ popOperands
  obtain ⟨typing, same⟩ := d.effect_ifThen allowed
  rw [typing] at links
  rw [same] at numbers
  obtain ⟨blockType, rest, typed, known, others⟩ := blockType_fits (d := d) fits numbers
  obtain ⟨code, s₂, linked, accepted, inStep₂⟩ := inner rest _ others (inStep₁.enter .thenArm type)
  obtain ⟨s₃, closes, inStep₃⟩ := follows_exit inStep₂ left
  obtain ⟨s₄, skipped, inStep₄⟩ := follows_missing_arm inStep₃ balanced
  refine ⟨.ifThen blockType code, s₄.pushTypes effect.results, ?_, ?_,
    follows_conclude inStep₄ allowed done⟩
  · rw [same]
    refine (link_ifThen (beq_iff_eq.mp links)).mpr
      ⟨blockType, rest, code, typed, ?_, others.length_eq.symm, rfl⟩
    rwa [others.length_eq, List.take_length]
  · have accepted' : Γ.code (s₁.enter false type) code = some s₂ := accepted
    rw [same]
    simp [Env.immediate, known, popFirst, popOthers, accepted', closes, skipped]

/-- A conditional with two arms, of which each is accepted. -/
theorem accepts_ifElse {switched last : Context} {elseDrafts : List Draft}
    (links : d.typing.linksBy d.linking = true) (fits : Γ.Fits b N)
    (inStep : Follows c.frames s) (taken : c.pop name (type.params ++ [.i32]) = .ok popped)
    (inner : Simulates Γ N (popped.enter .thenArm type).2 drafts after)
    (startTypes : after.frame.startTypes = type.params)
    (endTypes : after.frame.endTypes = type.results)
    (changed : after.switchToElse = .ok (drafts, switched))
    (innerElse : Simulates Γ N switched elseDrafts last)
    (left : last.exit = .ok (elseDrafts, closed))
    (allowed : d.effect closed (.ifElse type drafts elseDrafts) = .ok effect)
    (done : closed.conclude d (.ifElse type drafts elseDrafts) = .ok (vars, c'))
    (numbers : List.Forall₂ N effect.references indices) :
    Accepts Γ d effect indices .conditional s c' := by
  obtain ⟨operands, s₁, popOperands, inStep₁⟩ := inStep.pop taken
  obtain ⟨condition, operands', s₀, popFirst, popOthers⟩ := popTypes_of_concat _ popOperands
  obtain ⟨typing, same⟩ := d.effect_ifElse allowed
  rw [typing] at links
  rw [same] at numbers
  obtain ⟨blockType, rest, typed, known, both⟩ := blockType_fits (d := d) fits numbers
  rw [Draft.allReferences, List.flatMap_append] at both
  -- The linker cuts the numbers where the references of the first arm end.
  have enough := both.length_eq
  rw [List.length_append] at enough
  obtain ⟨own, ownElse⟩ := forall₂_split both
  obtain ⟨code, s₂, linked, accepted, inStep₂⟩ := inner _ _ own (inStep₁.enter .thenArm type)
  obtain ⟨s₃, closes, inStep₃⟩ := inStep₂.switch changed
  rw [startTypes, endTypes] at inStep₃
  obtain ⟨elseCode, s₄, linkedElse, acceptedElse, inStep₄⟩ := innerElse _ _ ownElse inStep₃
  obtain ⟨s₅, closesElse, inStep₅⟩ := follows_exit inStep₄ left
  refine ⟨.ifElse blockType code elseCode, s₅.pushTypes effect.results, ?_, ?_,
    follows_conclude inStep₅ allowed done⟩
  · rw [same]
    refine (link_ifElse (beq_iff_eq.mp links)).mpr
      ⟨blockType, rest, code, elseCode, typed, ?_, linked, linkedElse, rfl⟩
    rw [← enough]
    exact Nat.le_add_right _ _
  · have accepted' : Γ.code (s₁.enter false type) code = some s₂ := accepted
    rw [same]
    simp [Env.immediate, known, popFirst, popOthers, accepted', closes, acceptedElse, closesElse]

end Arms

end Validation

end Wasm
