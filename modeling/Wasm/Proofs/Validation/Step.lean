import Wasm.Proofs.Validation.Simple

/-!
# One instruction on both sides

When the stack checker writes an instruction, the validation algorithm accepts
what the linker makes of it, and both are in step again.
-/

namespace Wasm.Validation

variable {b : ModuleBuilder} {N : Reference → UInt32 → Prop} {Γ : Env} {d : InstrDef}
  {c c' : Context} {argument : Argument} {effect : Effect} {vars : List StackVar}
  {indices : List UInt32} {rule : Rule} {s s' : Stacks}

/-- The algorithm accepts what becomes of the instruction, and is then in step
with the stack checker at `c'`. -/
def Accepts (Γ : Env) (d : InstrDef) (effect : Effect) (indices : List UInt32) (rule : Rule)
    (s : Stacks) (c' : Context) : Prop :=
  ∃ immediate s', effect.capture.link d indices = .ok immediate ∧
    Γ.immediate rule s immediate = some s' ∧ Follows c'.frames s'

/-! ## Operands and results -/

/-- The stacks behind an instruction, as its effect describes them. -/
theorem follows_perform (h : Follows c.frames s) (allowed : d.effect c argument = .ok effect)
    (done : c.perform d argument = .ok (vars, c')) : ∃ taken s₁,
      s.popTypes effect.params = some (taken, s₁) ∧
      Follows c'.frames (if effect.diverges then (s₁.pushTypes effect.results).diverge
        else s₁.pushTypes effect.results) := by
  obtain ⟨effect', popped, allowed', taken, -, rfl⟩ := Context.perform_eq_ok.mp done
  cases allowed.symm.trans allowed'
  obtain ⟨values, s₁, same, left⟩ := h.pop taken
  refine ⟨values, s₁, same, ?_⟩
  have pushed := (left.push effect.results).write (Context.draftOf d effect)
  cases effect.diverges with
  | true => exact pushed.diverge
  | false => exact pushed

/-- The type is all that matters of an instruction that has one. -/
theorem simple_of_typeOf {immediate : Immediate} {type : FuncType}
    (typed : Γ.typeOf rule immediate = some type) : Γ.simple s rule immediate = s.apply type := by
  have whole : Γ.simple s rule immediate = (Γ.typeOf rule immediate).bind s.apply := by
    cases rule <;> first | cases typed | rfl
  rw [whole, typed]
  rfl

theorem immediate_of_typeOf {immediate : Immediate} {type : FuncType}
    (typed : Γ.typeOf rule immediate = some type) :
    Γ.immediate rule s immediate = s.apply type := by
  have plain : Γ.immediate rule s immediate = Γ.simple s rule immediate := by
    cases immediate with
    | block | ifThen | ifElse => cases rule <;> cases typed
    | _ => rfl
  rw [plain, simple_of_typeOf typed]

/-- An instruction with a type takes its operands and leaves its results. -/
theorem accepts_of_hasType (h : Follows c.frames s) (allowed : d.effect c argument = .ok effect)
    (done : c.perform d argument = .ok (vars, c')) (typed : HasType Γ d effect indices rule) :
    Accepts Γ d effect indices rule s c' := by
  obtain ⟨goesOn, immediate, linked, type⟩ := typed
  obtain ⟨taken, s₁, popped, left⟩ := follows_perform h allowed done
  refine ⟨immediate, s₁.pushTypes effect.results, linked, ?_, by rwa [goesOn] at left⟩
  rw [immediate_of_typeOf type, Stacks.apply, popped]
  rfl

/-! ## Taking operands one after the other -/

theorem pop_of_popType {value : Option ValType} {type : ValType}
    (popped : s.popType type = some (value, s')) :
    s.pop = some (value, s') ∧ (value = none ∨ value = some type) := by
  simp only [Stacks.popType, Option.bind_eq_bind, Option.bind_eq_some_iff, Prod.exists,
    Option.ite_none_right_eq_some, Option.pure_def, Option.some.injEq, Prod.mk.injEq] at popped
  obtain ⟨actual, s₁, same, fits, rfl, rfl⟩ := popped
  exact ⟨same, fits⟩

theorem popTop_of_cons {type : ValType} {types : List ValType} {taken : List (Option ValType)}
    (popped : s.popTop (type :: types) = some (taken, s')) : ∃ value values s₁,
      s.popType type = some (value, s₁) ∧ s₁.popTop types = some (values, s') := by
  simp only [Stacks.popTop, Option.bind_eq_bind, Option.bind_eq_some_iff, Prod.exists,
    Option.pure_def, Option.some.injEq, Prod.mk.injEq] at popped
  obtain ⟨value, s₁, first, values, s₂, rest, -, rfl⟩ := popped
  exact ⟨value, values, s₁, first, rest⟩

/-- The last operand is the first one taken. -/
theorem popTypes_of_concat {type : ValType} (types : List ValType)
    {taken : List (Option ValType)} (popped : s.popTypes (types ++ [type]) = some (taken, s')) :
    ∃ value values s₁,
      s.popType type = some (value, s₁) ∧ s₁.popTypes types = some (values, s') := by
  rw [Stacks.popTypes, List.reverse_append] at popped
  exact popTop_of_cons popped

theorem popType_of_single {type : ValType} {taken : List (Option ValType)}
    (popped : s.popTypes [type] = some (taken, s')) :
    ∃ value, s.popType type = some (value, s') := by
  obtain ⟨value, values, s₁, first, rest⟩ := popTypes_of_concat [] popped
  cases rest
  exact ⟨value, first⟩

theorem controls_of_popType {value : Option ValType} {type : ValType}
    (popped : s.popType type = some (value, s')) : s'.controls = s.controls := by
  obtain ⟨same, -⟩ := pop_of_popType popped
  unfold Stacks.pop at same
  split at same
  · cases same
  · split at same
    · split at same
      · cases same
        rfl
      · cases same
    · split at same
      · cases same
      · cases same
        rfl

/-- Labels stay the same while operands are taken. -/
theorem labelTypes_of_popType {value : Option ValType} {type : ValType} {label : UInt32}
    (popped : s.popType type = some (value, s')) : s'.labelTypes label = s.labelTypes label := by
  rw [Stacks.labelTypes, controls_of_popType popped, Stacks.labelTypes]

/-- The stack checker looks at the last operand first, too. -/
theorem checkTop_of_concat {name : String} {type : ValType} {types : List ValType} {skip : Nat}
    (checked : c.checkTop name (types ++ [type]) skip = .ok ()) :
    c.checkTop name [type] skip = .ok () ∧ c.checkTop name types (skip + 1) = .ok () := by
  have behind : c.frame.values.drop (skip + 1) = (c.frame.values.drop skip).drop 1 := by
    rw [List.drop_drop]
  simp only [Context.checkTop] at checked ⊢
  split at checked
  · rename_i allowed
    obtain ⟨enough, right⟩ := Bool.and_eq_true_iff.mp allowed
    simp only [Bool.or_eq_true, Bytes.hasAtLeast_iff, List.length_append, List.length_singleton]
      at enough
    rw [List.reverse_append, List.reverse_singleton, List.singleton_append] at right
    have first : Context.agree (c.frame.values.drop skip) [type] = true ∧
        Context.agree (c.frame.values.drop (skip + 1)) types.reverse = true := by
      rw [behind]
      generalize c.frame.values.drop skip = values at right ⊢
      cases values with
      | nil => exact ⟨rfl, rfl⟩
      | cons var rest =>
          obtain ⟨same, others⟩ := Bool.and_eq_true_iff.mp right
          refine ⟨?_, others⟩
          rw [Context.agree, same, Bool.true_and]
          cases rest <;> rfl
    constructor
    · refine if_pos (Bool.and_eq_true_iff.mpr ⟨?_, first.1⟩)
      simp only [Bool.or_eq_true, Bytes.hasAtLeast_iff, List.length_singleton]
      exact enough.imp_right fun many => by omega
    · refine if_pos (Bool.and_eq_true_iff.mpr ⟨?_, first.2⟩)
      simp only [Bool.or_eq_true, Bytes.hasAtLeast_iff]
      exact enough.imp_right fun many => by omega
  · cases checked

/-! ## Branch tables -/

theorem branchLabels_cons_eq_ok {target : Target} {targets : List Target} {arity : Nat}
    {labels : List UInt32} :
    d.branchLabels c arity (target :: targets) = .ok labels ↔ ∃ depth types others,
      c.resolveTarget target = .ok (depth, types) ∧ types.length = arity ∧
      c.checkTop d.name types 1 = .ok () ∧ d.branchLabels c arity targets = .ok others ∧
      labels = UInt32.ofNat depth :: others := by
  rw [InstrDef.branchLabels, Except.bind_eq_ok]
  constructor
  · rintro ⟨⟨depth, types⟩, found, rest⟩
    by_cases same : types.length = arity
    · simp only [same, if_true] at rest
      obtain ⟨_, checked, others, labelled, last⟩ := by
        simpa only [Except.bind_eq_ok, Except.pure_eq_ok, Except.ok.injEq, exists_const] using rest
      exact ⟨depth, types, others, found, same, checked, labelled, last.symm⟩
    · simp [same] at rest
  · rintro ⟨depth, types, others, found, same, checked, labelled, rfl⟩
    refine ⟨(depth, types), found, ?_⟩
    simp [same, checked, labelled]

/-- The values under the index stay where they are while label by label is
checked; only the algorithm takes them and puts them back. -/
theorem checkLabels_of_branchLabels {control : Control} (controls : List Control)
    {values below : List (Option ValType)} {targets : List Target} {labels : List UInt32}
    {arity : Nat} (height : control.height = below.length)
    (flag : control.unreachable = c.frame.unreachable)
    (covers : Covers control.unreachable (c.frame.values.drop 1) values)
    (places : ∀ target depth types, c.resolveTarget target = .ok (depth, types) →
      Stacks.labelTypes ⟨[], control :: controls⟩ (UInt32.ofNat depth) = some types)
    (labelled : d.branchLabels c arity targets = .ok labels) : ∃ values',
      Stacks.checkLabels ⟨values ++ below, control :: controls⟩ arity labels =
        some ⟨values' ++ below, control :: controls⟩ ∧
      Covers control.unreachable (c.frame.values.drop 1) values' := by
  induction targets generalizing values labels with
  | nil =>
      cases labelled
      exact ⟨values, rfl, covers⟩
  | cons target targets ih =>
      obtain ⟨depth, types, others, found, same, checked, rest, rfl⟩ :=
        branchLabels_cons_eq_ok.mp labelled
      have place : Stacks.labelTypes ⟨values ++ below, control :: controls⟩ (UInt32.ofNat depth) =
          some types := places target depth types found
      obtain ⟨taken, left, popped, -, -, whole⟩ := covers.checked controls height flag checked
      obtain ⟨values', others', covers'⟩ := ih whole rest
      refine ⟨values', ?_, covers'⟩
      simp only [Stacks.checkLabels, place, Option.bind_eq_bind, Option.bind_some, same, if_true,
        popped, Stacks.putBack, ← List.append_assoc]
      exact others'

/-! ## Instructions without a type of their own -/

section Untyped

variable (ruled : d.rule = some rule) (links : d.typing.linksBy d.linking = true)
  (allowed : d.effect c argument = .ok effect)
  (numbers : List.Forall₂ N effect.references indices) (h : Follows c.frames s)
  (done : c.perform d argument = .ok (vars, c'))

include ruled links allowed numbers h done

/-! ### Control -/

theorem accepts_trap (typing : d.typing = .trap) : Accepts Γ d effect indices rule s c' := by
  obtain ⟨taken, s₁, popped, left⟩ := follows_perform h allowed done
  obtain ⟨-, signature', rfl⟩ := InstrDef.of_rule ruled typing
  rw [typing] at links
  cases (d.effect_eq_ok typing).mp allowed with
  | trap signature =>
      cases signature'.symm.trans signature
      cases numbers
      cases popped
      exact ⟨.none, _, (link_literal (beq_iff_eq.mp links)).mpr ⟨rfl, rfl⟩, rfl, left⟩

theorem accepts_ret (typing : d.typing = .ret) : Accepts Γ d effect indices rule s c' := by
  obtain ⟨taken, s₁, popped, left⟩ := follows_perform h allowed done
  obtain rfl := InstrDef.of_rule ruled typing
  rw [typing] at links
  cases (d.effect_eq_ok typing).mp allowed
  cases numbers
  refine ⟨.none, s₁.diverge, (link_literal (beq_iff_eq.mp links)).mpr ⟨rfl, rfl⟩, ?_, left⟩
  show Option.bind s.returnTypes _ = _
  rw [h.returnTypes]
  show Option.bind (s.popTypes c.returnTypes) _ = _
  rw [popped]
  rfl

theorem accepts_br (shallow : c.outer.length < 2 ^ 32) (typing : d.typing = .br) :
    Accepts Γ d effect indices rule s c' := by
  obtain ⟨taken, s₁, popped, left⟩ := follows_perform h allowed done
  obtain rfl := InstrDef.of_rule ruled typing
  rw [typing] at links
  cases (d.effect_eq_ok typing).mp allowed with
  | br resolved =>
      cases numbers
      refine ⟨_, s₁.diverge, (link_literal (beq_iff_eq.mp links)).mpr ⟨rfl, rfl⟩, ?_, left⟩
      show Option.bind (s.labelTypes _) _ = _
      rw [h.labelTypes shallow resolved]
      show Option.bind (s.popTypes _) _ = _
      rw [popped]
      rfl

theorem accepts_brIf (shallow : c.outer.length < 2 ^ 32) (typing : d.typing = .brIf) :
    Accepts Γ d effect indices rule s c' := by
  obtain ⟨taken, s₂, popped, left⟩ := follows_perform h allowed done
  obtain rfl := InstrDef.of_rule ruled typing
  rw [typing] at links
  cases (d.effect_eq_ok typing).mp allowed with
  | @brIf target depth types resolved =>
      cases numbers
      -- The condition is on top, and the label is looked up when it is gone.
      obtain ⟨value, values, s₁, first, rest⟩ := popTypes_of_concat _ popped
      refine ⟨_, s₂.pushTypes types, (link_literal (beq_iff_eq.mp links)).mpr ⟨rfl, rfl⟩, ?_, left⟩
      show Option.bind (s.popType .i32) _ = _
      rw [first]
      show Option.bind (s₁.labelTypes _) _ = _
      rw [labelTypes_of_popType first, h.labelTypes shallow resolved]
      show s₁.apply ⟨types, types⟩ = _
      rw [Stacks.apply, rest]
      rfl

/-! ### Operands of any type -/

theorem accepts_drop (typing : d.typing = .drop) : Accepts Γ d effect indices rule s c' := by
  obtain ⟨taken, s₁, popped, left⟩ := follows_perform h allowed done
  obtain rfl := InstrDef.of_rule ruled typing
  rw [typing] at links
  cases (d.effect_eq_ok typing).mp allowed
  cases numbers
  obtain ⟨value, first⟩ := popType_of_single popped
  refine ⟨.none, s₁, (link_literal (beq_iff_eq.mp links)).mpr ⟨rfl, rfl⟩, ?_, left⟩
  show s.pop.map _ = _
  rw [(pop_of_popType first).1]
  rfl

theorem accepts_refIsNull (typing : d.typing = .refIsNull) :
    Accepts Γ d effect indices rule s c' := by
  obtain ⟨taken, s₁, popped, left⟩ := follows_perform h allowed done
  obtain rfl := InstrDef.of_rule ruled typing
  rw [typing] at links
  cases (d.effect_eq_ok typing).mp allowed
  cases numbers
  obtain ⟨value, first⟩ := popType_of_single popped
  obtain ⟨same, fits⟩ := pop_of_popType first
  -- Where the operand is no reference, the stack checker asks for one and fails.
  have isRef : (((c.peekType 0).filter (·.isRef)).getD .funcRef).isRef = true := by
    cases found : (c.peekType 0).filter (·.isRef) with
    | none => rfl
    | some type => exact (Option.filter_eq_some_iff.mp found).2
  have right : value.all (·.isRef) = true := by
    rcases fits with rfl | rfl
    · rfl
    · exact isRef
  refine ⟨.none, s₁.pushTypes [.i32], (link_literal (beq_iff_eq.mp links)).mpr ⟨rfl, rfl⟩, ?_,
    left⟩
  show Option.bind s.pop _ = _
  rw [same]
  exact if_pos right

/-- Of the two operands that `select` picks from, the algorithm may know one
type, both or none, and the result is as well known. -/
theorem accepts_select (typing : d.typing = .select) : Accepts Γ d effect indices rule s c' := by
  obtain ⟨effect', popped, allowed', taken, -, rfl⟩ := Context.perform_eq_ok.mp done
  cases allowed.symm.trans allowed'
  obtain ⟨values, s₃, same, left⟩ := h.pop taken
  obtain rfl := InstrDef.of_rule ruled typing
  rw [typing] at links
  cases (d.effect_eq_ok typing).mp allowed with
  | @select type chosen noRef =>
      cases numbers
      -- The stack checker takes the type of the second operand for both.
      obtain ⟨condition, values₁, s₁, first, rest⟩ := popTypes_of_concat [type, type] same
      obtain ⟨a, values₂, s₂, second, last⟩ := popTypes_of_concat [type] rest
      obtain ⟨b, third⟩ := popType_of_single last
      obtain ⟨popA, fitsA⟩ := pop_of_popType second
      obtain ⟨popB, fitsB⟩ := pop_of_popType third
      have result : (if a = none then b else a) = none ∨
          (if a = none then b else a) = some type := by
        split
        · exact fitsB
        · exact fitsA
      have notRef : ∀ value : Option ValType, value = none ∨ value = some type →
          value.all (! ·.isRef) = true := by
        rintro value (rfl | rfl)
        · rfl
        · simpa using noRef
      refine ⟨.none, s₃.putBack [if a = none then b else a],
        (link_literal (beq_iff_eq.mp links)).mpr ⟨rfl, rfl⟩, ?_,
        (left.pushOne result).write _⟩
      show Option.bind (s.popType .i32) _ = _
      rw [first]
      show Option.bind s₁.pop _ = _
      rw [popA]
      show Option.bind s₂.pop _ = _
      rw [popB]
      refine if_pos ⟨notRef a fitsA, notRef b fitsB, ?_⟩
      rcases fitsA with rfl | rfl
      · exact .inr (.inl rfl)
      · rcases fitsB with rfl | rfl
        · exact .inr (.inr rfl)
        · exact .inl rfl

/-- The stack checker compares the values with each target before it takes any. -/
theorem accepts_brTable (shallow : c.outer.length < 2 ^ 32) (typing : d.typing = .brTable) :
    Accepts Γ d effect indices rule s c' := by
  obtain ⟨effect', popped, allowed', taken, -, rfl⟩ := Context.perform_eq_ok.mp done
  cases allowed.symm.trans allowed'
  obtain rfl := InstrDef.of_rule ruled typing
  rw [typing] at links
  cases (d.effect_eq_ok typing).mp allowed with
  | @brTable targets fallback depth types labels found labelled =>
      cases numbers
      obtain ⟨checked, rfl⟩ := Context.pop_eq_ok.mp taken
      obtain ⟨first, last⟩ := checkTop_of_concat checked
      have places : ∀ target depth types, c.resolveTarget target = .ok (depth, types) →
          s.labelTypes (UInt32.ofNat depth) = some types :=
        fun _ _ _ found => h.labelTypes shallow found
      cases h with
      | @cons _ _ control controls values below tracks height covers level outer =>
          -- The index goes, then every label is checked on what is left.
          obtain ⟨index, values₁, popIndex, covers₁, -⟩ :=
            covers.checked controls height tracks.unreachable first
          obtain ⟨values₂, checkedAll, covers₂⟩ := checkLabels_of_branchLabels controls height
            tracks.unreachable covers₁ places labelled
          obtain ⟨operands, values₃, popLast, -⟩ :=
            covers₂.checked controls height tracks.unreachable last
          refine ⟨.brTable labels (UInt32.ofNat depth),
            ⟨below, { control with unreachable := true } :: controls⟩,
            (link_literal (beq_iff_eq.mp links)).mpr ⟨rfl, rfl⟩, ?_, ?_⟩
          · obtain ⟨value, popOne⟩ := popType_of_single popIndex
            have place : Stacks.labelTypes ⟨values₁ ++ below, control :: controls⟩
                (UInt32.ofNat depth) = some types := places fallback depth types found
            show Option.bind (Stacks.popType _ .i32) _ = _
            rw [popOne]
            show Option.bind (Stacks.labelTypes _ (UInt32.ofNat depth)) _ = _
            rw [place]
            show Option.bind (Stacks.checkLabels _ types.length labels) _ = _
            rw [checkedAll]
            show Option.bind (Stacks.popTypes _ types) _ = _
            rw [popLast]
            exact congrArg some (diverge_cons height)
          · exact .empty ⟨tracks.isLoop, tracks.startTypes, tracks.endTypes, rfl⟩ height rfl outer

end Untyped

/-! ## All instructions -/

/-- Whatever the stack checker lets through, the algorithm accepts. -/
theorem accepts_of_perform (member : d ∈ InstrSet.standard.defs)
    (plain : d.shape.isStructured = false) (ruled : d.rule = some rule)
    (allowed : d.effect c argument = .ok effect)
    (numbers : List.Forall₂ N effect.references indices) (fits : Γ.Fits b N)
    (owns : b.Owns argument) (locals : c.locals.toList <+: Γ.locals)
    (shallow : c.outer.length < 2 ^ 32) (h : Follows c.frames s)
    (done : c.perform d argument = .ok (vars, c')) : Accepts Γ d effect indices rule s c' := by
  have links := (InstrSet.standard_coherent d member).links
  have structured := (InstrSet.standard_coherent d member).structured
  have typed : HasType Γ d effect indices rule → Accepts Γ d effect indices rule s c' :=
    accepts_of_hasType h allowed done
  cases typing : d.typing with
  | fixed => exact typed (hasType_fixed ruled links allowed numbers typing)
  | constant => exact typed (hasType_constant ruled links allowed numbers typing)
  | shuffle => exact typed (hasType_shuffle ruled links allowed numbers typing)
  | lane => exact typed (hasType_lane ruled links allowed numbers typing)
  | fence => exact typed (hasType_fence ruled links allowed numbers typing)
  | memory => exact typed (hasType_memory ruled allowed numbers fits typing)
  | memoryAccess => exact typed (hasType_memoryAccess ruled links allowed numbers fits typing)
  | localGet | localSet | localTee =>
      exact typed (hasType_local ruled links allowed numbers locals (by rw [typing]; rfl))
  | globalGet => exact typed (hasType_global ruled links allowed numbers owns fits (.inl typing))
  | globalSet => exact typed (hasType_global ruled links allowed numbers owns fits (.inr typing))
  | tableGet | tableSet | tableSize | tableGrow | tableFill =>
      exact typed (hasType_table ruled links allowed numbers owns fits (by rw [typing]; rfl))
  | tableCopy => exact typed (hasType_tableCopy ruled links allowed numbers owns fits typing)
  | call => exact typed (hasType_call ruled links allowed numbers owns fits typing)
  | callIndirect =>
      exact typed (hasType_callIndirect ruled links allowed numbers owns fits typing)
  | refFunc => exact typed (hasType_refFunc ruled links allowed numbers owns fits typing)
  | selectTyped => exact typed (hasType_selectTyped ruled links allowed numbers typing)
  | refNull => exact typed (hasType_refNull ruled links allowed numbers typing)
  | trap => exact accepts_trap ruled links allowed numbers h done typing
  | ret => exact accepts_ret ruled links allowed numbers h done typing
  | br => exact accepts_br ruled links allowed numbers h done shallow typing
  | brIf => exact accepts_brIf ruled links allowed numbers h done shallow typing
  | brTable => exact accepts_brTable ruled links allowed numbers h done shallow typing
  | drop => exact accepts_drop ruled links allowed numbers h done typing
  | select => exact accepts_select ruled links allowed numbers h done typing
  | refIsNull => exact accepts_refIsNull ruled links allowed numbers h done typing
  | block | conditional => simp [typing, plain] at structured

end Wasm.Validation
