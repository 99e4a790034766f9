import Wasm.Proofs.Validation.Granted
import Wasm.Proofs.Validation.Known
import Wasm.Proofs.Validation.Step

/-!
# Instructions that are written again

The call for an instruction does to the stack checker what the instruction
does to the validation algorithm, and it fails where that fails. For an
instruction with a type this is because the stack checker takes it for the
same type. The others choose types by what is on the stack, and one of them
may choose where the algorithm leaves a type unknown.
-/

namespace Wasm.Validation

variable {Γ : Env} {ids : ExternKind → UInt32 → Nat} {d : InstrDef} {rule : Rule}
  {immediate : Immediate} {type : FuncType} {c : Context}

/-! ## Answers -/

/-- The call for the instruction does what `step` does to the algorithm, whatever
is on the stack. -/
def Answers (Γ : Env) (ids : ExternKind → UInt32 → Nat)
    (step : Stacks → Rule → Immediate → Option Stacks) (d : InstrDef) (rule : Rule)
    (immediate : Immediate) : Prop :=
  ∃ argument, Γ.argument ids rule immediate = some argument ∧
    ∀ c : Context, Γ.locals <+: c.locals.toList →
      Context.reached (c.perform d argument) = step c.asStacks rule immediate

theorem Granted.answers (h : Granted Γ ids d rule immediate type)
    (typed : Γ.typeOf rule immediate = some type) : Answers Γ ids Γ.simple d rule immediate := by
  obtain ⟨argument, given, allowed⟩ := h
  refine ⟨argument, given, fun c locals => ?_⟩
  obtain ⟨references, capture, granted⟩ := allowed c locals
  rw [Context.reached_perform, granted, simple_of_typeOf typed]
  show c.asStacks.undergo _ = _
  rw [Stacks.undergo, Stacks.apply]
  cases c.asStacks.popTypes type.params <;> rfl

/-! ### Control -/

theorem answers_trap (ruled : d.rule = some .unreachable)
    (accepted : ∃ s s', Γ.simple s .unreachable immediate = some s') (typing : d.typing = .trap) :
    Answers Γ ids Γ.simple d .unreachable immediate := by
  obtain ⟨s, s', accepted⟩ := accepted
  cases immediate with
  | none =>
      obtain ⟨-, signature, -⟩ := InstrDef.of_rule ruled typing
      refine ⟨.none, rfl, fun c _ => ?_⟩
      rw [Context.reached_perform, (InstrDef.HasEffect.trap signature).eq_ok typing]
      rfl
  | _ => cases accepted

theorem answers_ret (accepted : ∃ s s', Γ.simple s .ret immediate = some s')
    (typing : d.typing = .ret) : Answers Γ ids Γ.simple d .ret immediate := by
  obtain ⟨s, s', accepted⟩ := accepted
  cases immediate with
  | none =>
      refine ⟨.none, rfl, fun c _ => ?_⟩
      rw [Context.reached_perform, InstrDef.HasEffect.ret.eq_ok typing]
      show _ = Option.bind c.asStacks.returnTypes fun types =>
        Option.bind (c.asStacks.popTypes types) fun taken => some taken.2.diverge
      rw [Context.returnTypes_asStacks]
      show c.asStacks.undergo _ = Option.bind (c.asStacks.popTypes c.returnTypes) _
      rw [Stacks.undergo]
      cases c.asStacks.popTypes c.returnTypes <;> rfl
  | _ => cases accepted

theorem answers_br (accepted : ∃ s s', Γ.simple s .br immediate = some s')
    (typing : d.typing = .br) : Answers Γ ids Γ.simple d .br immediate := by
  obtain ⟨s, s', accepted⟩ := accepted
  cases immediate with
  | index label =>
      refine ⟨.branch (.depth label), rfl, fun c _ => ?_⟩
      have allowed : d.effect c (.branch (.depth label)) =
          (c.resolveTarget (.depth label)).map fun found => {
            params := found.2
            capture := .literal (.index (UInt32.ofNat found.1))
            diverges := true } := by
        unfold InstrDef.effect
        rw [typing]
        rfl
      rw [Context.reached_perform, allowed]
      show _ = Option.bind (c.asStacks.labelTypes label) _
      rw [Context.labelTypes_asStacks]
      cases c.resolveTarget (.depth label) with
      | error e => rfl
      | ok found =>
          show c.asStacks.undergo _ = Option.bind (c.asStacks.popTypes found.2) _
          rw [Stacks.undergo]
          cases c.asStacks.popTypes found.2 <;> rfl
  | _ => cases accepted

/-- The condition is taken first by the algorithm, and with the operands of the
branch by the stack checker. -/
theorem popTypes_concat (s : Stacks) (types : List ValType) (type : ValType) :
    (s.popTypes (types ++ [type])).map (·.2) =
      (s.popType type).bind fun taken => (taken.2.popTypes types).map (·.2) := by
  rw [Stacks.popTypes, List.reverse_append]
  show Option.map _ (Option.bind (s.popType type) _) = _
  cases s.popType type with
  | none => rfl
  | some taken =>
      show Option.map _ (Option.bind (taken.2.popTypes types) _) =
        Option.map _ (taken.2.popTypes types)
      cases taken.2.popTypes types <;> rfl

theorem answers_brIf (accepted : ∃ s s', Γ.simple s .brIf immediate = some s')
    (typing : d.typing = .brIf) : Answers Γ ids Γ.simple d .brIf immediate := by
  obtain ⟨s, s', accepted⟩ := accepted
  cases immediate with
  | index label =>
      refine ⟨.branch (.depth label), rfl, fun c _ => ?_⟩
      have allowed : d.effect c (.branch (.depth label)) =
          (c.resolveTarget (.depth label)).map fun found => {
            params := found.2 ++ [.i32]
            results := found.2
            capture := .literal (.index (UInt32.ofNat found.1)) } := by
        unfold InstrDef.effect
        rw [typing]
        rfl
      rw [Context.reached_perform, allowed]
      show _ = Option.bind (c.asStacks.popType .i32) fun taken =>
        Option.bind (taken.2.labelTypes label) fun types => taken.2.apply ⟨types, types⟩
      cases popped : c.asStacks.popType .i32 with
      | none =>
          cases c.resolveTarget (.depth label) with
          | error e => rfl
          | ok found =>
              show c.asStacks.undergo _ = none
              rw [Stacks.undergo, popTypes_concat, popped]
              rfl
      | some taken =>
          rw [Option.bind_some, labelTypes_of_popType popped, Context.labelTypes_asStacks]
          cases c.resolveTarget (.depth label) with
          | error e => rfl
          | ok found =>
              show c.asStacks.undergo _ = taken.2.apply ⟨found.2, found.2⟩
              rw [Stacks.undergo, popTypes_concat, popped, Option.bind_some, Stacks.apply]
              cases taken.2.popTypes found.2 <;> rfl
  | _ => cases accepted

/-! ### Branch tables -/

theorem length_le_of_offers {values : List (Option ValType)} {types : List ValType}
    (there : offers false values types = true) : types.length ≤ values.length := by
  induction types generalizing values with
  | nil => exact Nat.zero_le _
  | cons type types ih =>
      cases values with
      | nil => cases there
      | cons value values =>
          obtain ⟨-, rest⟩ := Bool.and_eq_true_iff.mp there
          exact Nat.succ_le_succ (ih rest)

/-- Operands of unknown type below all others change nothing where any are there. -/
theorem offers_pad {unreachable : Bool} {count : Nat} (pads : count = 0 ∨ unreachable = true)
    (values : List (Option ValType)) (types : List ValType) :
    offers unreachable (values ++ List.replicate count none) types =
      offers unreachable values types := by
  rcases pads with rfl | rfl
  · rw [List.replicate_zero, List.append_nil]
  · induction types generalizing values count with
    | nil => simp [offers]
    | cons type types ih =>
        cases values with
        | nil =>
            cases count with
            | zero => rfl
            | succ count =>
                have rest : offers true ([] ++ List.replicate count none) types =
                    offers true [] types := ih []
                have there : offers true [] types = true := by cases types <;> rfl
                rw [List.nil_append, there] at rest
                show (true && offers true (List.replicate count none) types) = true
                rw [rest, Bool.true_and]
        | cons value values =>
            rw [List.cons_append, offers, ih values, offers]

/-- Operands that are put back lie on those that are left. -/
theorem take_pad_drop (values : List (Option ValType)) (count : Nat) :
    values.take count ++ List.replicate (count - values.length) none ++ values.drop count =
      values ++ List.replicate (count - values.length) none := by
  rcases Nat.le_total count values.length with few | many
  · rw [Nat.sub_eq_zero_of_le few, List.replicate_zero, List.append_nil, List.take_append_drop,
      List.append_nil]
  · rw [List.take_of_length_le many, List.drop_eq_nil_of_le many, List.append_nil]

/-- A branch to the label takes this many operands, and they are there. -/
def takes (s : Stacks) (unreachable : Bool) (values : List (Option ValType)) (arity : Nat)
    (label : UInt32) : Bool :=
  (s.labelTypes label).any fun types =>
    types.length == arity && offers unreachable values types.reverse

theorem takes_iff {s : Stacks} {unreachable : Bool} {values : List (Option ValType)} {arity : Nat}
    {label : UInt32} : takes s unreachable values arity label = true ↔ ∃ types,
      s.labelTypes label = some types ∧ types.length = arity ∧
        offers unreachable values types.reverse = true := by
  rw [takes]
  cases s.labelTypes label <;> simp

/-- The labels are checked one by one. What is put back each time may be more
than was taken, but it offers the same. -/
theorem checkLabels_eq {control : Control} {controls : List Control}
    {below : List (Option ValType)} (height : control.height = below.length)
    (values : List (Option ValType)) (arity : Nat) (labels : List UInt32) {count : Nat}
    (pads : count = 0 ∨ control.unreachable = true) :
    ∃ count', (count' = 0 ∨ control.unreachable = true) ∧
      Stacks.checkLabels ⟨values ++ List.replicate count none ++ below, control :: controls⟩ arity
          labels =
        if labels.all (takes ⟨below, control :: controls⟩ control.unreachable values arity) then
          some ⟨values ++ List.replicate count' none ++ below, control :: controls⟩
        else none := by
  induction labels generalizing count with
  | nil => exact ⟨count, pads, rfl⟩
  | cons label labels ih =>
      have place : Stacks.labelTypes ⟨values ++ List.replicate count none ++ below,
          control :: controls⟩ label = Stacks.labelTypes ⟨below, control :: controls⟩ label := rfl
      rw [Stacks.checkLabels, place, List.all_cons]
      by_cases right : takes ⟨below, control :: controls⟩ control.unreachable values arity label
      · obtain ⟨types, found, same, there⟩ := takes_iff.mp right
        -- Operands that were missing are put back below those that were there.
        let missing := types.reverse.length - (values ++ List.replicate count none).length
        have pads' : count + missing = 0 ∨ control.unreachable = true := by
          cases dead : control.unreachable with
          | true => exact .inr rfl
          | false =>
              obtain rfl := pads.resolve_right (by simp [dead])
              rw [dead] at there
              have many := length_le_of_offers there
              left
              simp only [missing, List.replicate_zero, List.append_nil]
              omega
        obtain ⟨count', pads', others⟩ := ih pads'
        refine ⟨count', pads', ?_⟩
        have popped := @popTop_eq _ controls _ height
          (values ++ List.replicate count none) types.reverse
        rw [offers_pad pads, if_pos there] at popped
        rw [right, Bool.true_and, ← others, found]
        show (if types.length = arity then _ else _) = _
        rw [if_pos same]
        show Option.bind (Stacks.popTop _ types.reverse) _ = _
        rw [popped, Option.bind_some]
        show Stacks.checkLabels ⟨_ ++ (_ ++ below), _⟩ arity labels = _
        rw [← List.append_assoc, take_pad_drop, List.append_assoc values, ← List.replicate_add]
      · refine ⟨count, pads, ?_⟩
        rw [Bool.eq_false_iff.mpr right, Bool.false_and, if_neg Bool.false_ne_true]
        cases found : Stacks.labelTypes ⟨below, control :: controls⟩ label with
        | none => rfl
        | some types =>
            show (if types.length = arity then _ else _) = _
            split
            · rename_i same
              have missing : ¬offers control.unreachable values types.reverse = true :=
                fun there => right (takes_iff.mpr ⟨types, found, same, there⟩)
              show Option.bind (Stacks.popTop _ types.reverse) _ = _
              rw [popTop_eq height, offers_pad pads, if_neg missing]
              rfl
            · rfl

theorem labelTypes_eq_some {label : UInt32} {types : List ValType} :
    c.asStacks.labelTypes label = some types ↔
      ∃ depth, c.resolveTarget (.depth label) = .ok (depth, types) := by
  rw [Context.labelTypes_asStacks]
  cases c.resolveTarget (.depth label) with
  | error e => simp [Except.toOption]
  | ok found =>
      obtain ⟨depth, types'⟩ := found
      simp [Except.toOption]

theorem exists_branchLabels_iff (there : c.frame.unreachable = true ∨ 1 ≤ c.frame.values.length)
    (arity : Nat) (labels : List UInt32) :
    (∃ depths, d.branchLabels c arity (labels.map .depth) = .ok depths) ↔
      labels.all (takes c.asStacks c.frame.unreachable (c.frame.known.drop 1) arity) = true := by
  induction labels with
  | nil => exact ⟨fun _ => rfl, fun _ => ⟨[], rfl⟩⟩
  | cons label labels ih =>
      rw [List.all_cons, Bool.and_eq_true, ← ih, takes_iff]
      constructor
      · rintro ⟨depths, labelled⟩
        obtain ⟨depth, types, others, found, same, checked, rest, -⟩ :=
          branchLabels_cons_eq_ok.mp labelled
        exact ⟨⟨types, labelTypes_eq_some.mpr ⟨depth, found⟩, same,
          (Context.checkTop_eq_ok there).mp checked⟩, others, rest⟩
      · rintro ⟨⟨types, known, same, fits⟩, others, rest⟩
        obtain ⟨depth, found⟩ := labelTypes_eq_some.mp known
        exact ⟨_, branchLabels_cons_eq_ok.mpr ⟨depth, types, others, found, same,
          (Context.checkTop_eq_ok there).mpr fits, rest, rfl⟩⟩

/-- The operand that is taken may be one that is missing. -/
theorem popType_asStacks {type : ValType} {taken : Option ValType × Stacks}
    (popped : c.asStacks.popType type = some taken) :
    (c.frame.unreachable = true ∨ c.frame.values ≠ []) ∧ taken.2 = (c.without 1).asStacks := by
  obtain ⟨same, -⟩ := pop_of_popType popped
  rw [Context.pop_asStacks] at same
  obtain ⟨there, same⟩ := Option.ite_none_right_eq_some.mp same
  exact ⟨there, (congrArg Prod.snd (Option.some.inj same)).symm⟩

/-- The labels of a branch table take as many operands as there are types, all
of them are below the index, and so are those for the fallback. -/
def Routes (c : Context) (labels : List UInt32) (types : List ValType) : Prop :=
  labels.all (takes c.asStacks c.frame.unreachable (c.frame.known.drop 1) types.length) = true ∧
    offers c.frame.unreachable (c.frame.known.drop 1) types.reverse = true

instance (c : Context) (labels : List UInt32) (types : List ValType) :
    Decidable (Routes c labels types) :=
  inferInstanceAs (Decidable (_ ∧ _))

/-- The algorithm at a branch table, once the index is taken. -/
theorem checkLabels_routes (labels : List UInt32) (types : List ValType) :
    (((c.without 1).asStacks.checkLabels types.length labels).bind fun s =>
        (s.popTypes types).bind fun taken => some taken.2.diverge) =
      if Routes c labels types then some c.markUnreachable.asStacks else none := by
  obtain ⟨count, pads, checked⟩ := @checkLabels_eq (.ofFrame c.frame c.around.values.length)
    c.around.controls _ rfl (c.frame.known.drop 1) types.length labels 0 (.inl rfl)
  rw [List.replicate_zero, List.append_nil, ← onto_without] at checked
  show Option.bind ((Stacks.onto (c.frame.without 1) c.around).checkLabels _ _) _ = _
  rw [checked]
  show Option.bind (if labels.all (takes c.asStacks c.frame.unreachable (c.frame.known.drop 1)
    types.length) = true then _ else _) _ = _
  by_cases all : labels.all (takes c.asStacks c.frame.unreachable (c.frame.known.drop 1)
    types.length) = true
  · rw [if_pos all, Option.bind_some, Stacks.popTypes, popTop_eq rfl, offers_pad pads]
    show Option.bind (if offers c.frame.unreachable _ _ = true then _ else _) _ = _
    by_cases fits : offers c.frame.unreachable (c.frame.known.drop 1) types.reverse = true
    · rw [if_pos fits, if_pos ⟨all, fits⟩]
      exact congrArg some (diverge_cons rfl)
    · rw [if_neg fits, if_neg fun routes => fits routes.2]
      rfl
  · rw [if_neg all, if_neg fun routes => all routes.1]
    rfl

/-- The stack checker at a branch table, if there is an index. -/
theorem branchLabels_routes {taken : Option ValType × Stacks}
    (popped : c.asStacks.popType .i32 = some taken) (labels : List UInt32) (types : List ValType)
    (depth : Nat) :
    ((d.branchLabels c types.length (labels.map .depth)).toOption.bind fun depths =>
        c.asStacks.undergo {
          params := types ++ [.i32]
          capture := .literal (.brTable depths (UInt32.ofNat depth))
          diverges := true }) =
      if Routes c labels types then some c.markUnreachable.asStacks else none := by
  obtain ⟨there, rest⟩ := popType_asStacks popped
  have labelled := exists_branchLabels_iff (d := d) (there.imp_right List.length_pos_iff.mpr)
    types.length labels
  cases done : d.branchLabels c types.length (labels.map .depth) with
  | error e =>
      have wrong : ¬Routes c labels types := by
        intro routes
        obtain ⟨depths, done'⟩ := labelled.mpr routes.1
        cases done.symm.trans done'
      rw [if_neg wrong]
      rfl
  | ok depths =>
      have all := labelled.mp ⟨depths, done⟩
      show c.asStacks.undergo _ = _
      rw [Stacks.undergo, popTypes_concat, popped, Option.bind_some, rest,
        Context.popTypes_known, Context.known_without]
      show Option.map _ (if offers c.frame.unreachable _ _ = true then _ else _) = _
      by_cases fits : offers c.frame.unreachable (c.frame.known.drop 1) types.reverse = true
      · rw [if_pos fits, if_pos ⟨all, fits⟩]
        exact congrArg some (Context.asStacks_markUnreachable _).symm
      · rw [if_neg fits, if_neg fun routes => fits routes.2]
        rfl

theorem answers_brTable (accepted : ∃ s s', Γ.simple s .brTable immediate = some s')
    (typing : d.typing = .brTable) : Answers Γ ids Γ.simple d .brTable immediate := by
  obtain ⟨s, s', accepted⟩ := accepted
  cases immediate with
  | brTable labels fallback =>
      refine ⟨.branchTable (labels.map .depth) (.depth fallback), rfl, fun c _ => ?_⟩
      have allowed : d.effect c (.branchTable (labels.map .depth) (.depth fallback)) =
          (c.resolveTarget (.depth fallback)).bind fun found =>
            (d.branchLabels c found.2.length (labels.map .depth)).map fun depths => {
              params := found.2 ++ [.i32]
              capture := .literal (.brTable depths (UInt32.ofNat found.1))
              diverges := true } := by
        unfold InstrDef.effect
        rw [typing]
        rfl
      rw [Context.reached_perform, allowed]
      show _ = Option.bind (c.asStacks.popType .i32) fun taken =>
        Option.bind (taken.2.labelTypes fallback) fun types =>
          Option.bind (taken.2.checkLabels types.length labels) fun s =>
            (s.popTypes types).bind fun taken => some taken.2.diverge
      cases popped : c.asStacks.popType .i32 with
      | none =>
          -- There is no index, so whatever the labels are it fails.
          cases c.resolveTarget (.depth fallback) with
          | error e => rfl
          | ok found =>
              show Option.bind (Except.map _ (d.branchLabels c found.2.length _)).toOption _ = none
              cases d.branchLabels c found.2.length (labels.map .depth) with
              | error e => rfl
              | ok depths =>
                  show c.asStacks.undergo _ = none
                  rw [Stacks.undergo, popTypes_concat, popped]
                  rfl
      | some taken =>
          rw [Option.bind_some, labelTypes_of_popType popped, Context.labelTypes_asStacks,
            (popType_asStacks popped).2]
          cases c.resolveTarget (.depth fallback) with
          | error e => rfl
          | ok found =>
              refine Eq.trans ?_ (checkLabels_routes labels found.2).symm
              rw [← branchLabels_routes (d := d) popped labels found.2 found.1]
              show Option.bind (Except.map _ (d.branchLabels c found.2.length _)).toOption _ = _
              cases d.branchLabels c found.2.length (labels.map .depth) <;> rfl
  | _ => cases accepted

/-! ### Operands of any type -/

/-- Asking for the type that is there is asking for anything. -/
theorem offers_peek (c : Context) (type : ValType) :
    offers c.frame.unreachable c.frame.known [(c.peekType 0).getD type] = true ↔
      (c.frame.unreachable = true ∨ c.frame.values ≠ []) := by
  rw [Frame.known, Context.peekType]
  cases c.frame.values <;> simp [offers]

/-- Asking for the reference that is there, or else for any. -/
theorem offers_peekRef (c : Context) :
    offers c.frame.unreachable c.frame.known
        [((c.peekType 0).filter (·.isRef)).getD .funcRef] = true ↔
      (c.frame.unreachable = true ∨ c.frame.values ≠ []) ∧
        (c.peekType 0).all (·.isRef) = true := by
  rw [Frame.known, Context.peekType]
  cases c.frame.values with
  | nil => simp [offers]
  | cons var vars =>
      cases isRef : var.type.isRef with
      | true => simp [offers, Option.filter, isRef]
      | false =>
          have other : var.type ≠ .funcRef := by
            rintro same
            rw [same] at isRef
            cases isRef
          simp [offers, Option.filter, isRef, other]

theorem answers_drop (accepted : ∃ s s', Γ.simple s .drop immediate = some s')
    (typing : d.typing = .drop) : Answers Γ ids Γ.simple d .drop immediate := by
  obtain ⟨s, s', accepted⟩ := accepted
  cases immediate with
  | none =>
      refine ⟨.none, rfl, fun c _ => ?_⟩
      rw [Context.reached_perform, InstrDef.HasEffect.drop.eq_ok typing]
      show c.asStacks.undergo _ = c.asStacks.pop.map (·.2)
      rw [Stacks.undergo, Context.popTypes_known, Context.pop_asStacks, List.reverse_singleton]
      by_cases there : c.frame.unreachable = true ∨ c.frame.values ≠ []
      · rw [if_pos ((offers_peek c .i32).mpr there), if_pos there]
        rfl
      · rw [if_neg (mt (offers_peek c .i32).mp there), if_neg there]
        rfl
  | _ => cases accepted

theorem answers_refIsNull (accepted : ∃ s s', Γ.simple s .refIsNull immediate = some s')
    (typing : d.typing = .refIsNull) : Answers Γ ids Γ.simple d .refIsNull immediate := by
  obtain ⟨s, s', accepted⟩ := accepted
  cases immediate with
  | none =>
      refine ⟨.none, rfl, fun c _ => ?_⟩
      rw [Context.reached_perform, InstrDef.HasEffect.refIsNull.eq_ok typing]
      show c.asStacks.undergo _ = Option.bind c.asStacks.pop fun taken =>
        if taken.1.all (·.isRef) then some (taken.2.pushTypes [.i32]) else none
      rw [Stacks.undergo, Context.popTypes_known, Context.pop_asStacks, List.reverse_singleton]
      by_cases fits : offers c.frame.unreachable c.frame.known
          [((c.peekType 0).filter (·.isRef)).getD .funcRef] = true
      · obtain ⟨there, isRef⟩ := (offers_peekRef c).mp fits
        rw [if_pos fits, if_pos there]
        exact (if_pos isRef).symm
      · rw [if_neg fits]
        by_cases there : c.frame.unreachable = true ∨ c.frame.values ≠ []
        · rw [if_pos there]
          exact (if_neg fun isRef => fits ((offers_peekRef c).mpr ⟨there, isRef⟩)).symm
        · rw [if_neg there]
          rfl
  | _ => cases accepted

/-! ### Untyped selection -/

/-- The stack checker knows all types. -/
theorem commit_asStacks (c : Context) : c.asStacks.commit = c.asStacks := by
  have known : ∀ frames, ((Stacks.ofFrames frames).values.map fun value =>
      some (value.getD .i32)) = (Stacks.ofFrames frames).values := by
    intro frames
    induction frames with
    | nil => rfl
    | cons frame outer ih =>
        rw [Stacks.ofFrames, Stacks.onto, Frame.known, List.map_append, ih, List.map_map]
        rfl
  exact congrArg (Stacks.mk · c.asStacks.controls) (known c.frames)

theorem Answers.committed (h : Answers Γ ids Γ.simple d rule immediate) :
    Answers Γ ids Γ.committed d rule immediate := by
  obtain ⟨argument, given, same⟩ := h
  refine ⟨argument, given, fun c locals => ?_⟩
  rw [Env.committed, ← same c locals, Context.reached]
  cases c.perform d argument with
  | error e => rfl
  | ok done => exact congrArg some (commit_asStacks done.2).symm

/-- The two operands that `select` picks from. -/
def Stacks.pick (s : Stacks) : Option Stacks := do
  let (a, s) ← s.pop
  let (b, s) ← s.pop
  if a.all (! ·.isRef) ∧ b.all (! ·.isRef) ∧ (a = b ∨ a = none ∨ b = none) then
    return s.putBack [if a = none then b else a]
  else none

theorem simple_select (s : Stacks) :
    Γ.simple s .select .none = (s.popType .i32).bind (·.2.pick) := rfl

/-- Where types are known the result has the type of the first operand taken,
and where that is missing it counts as an i32. -/
theorem commit_pick (frame : Frame) (s : Stacks) (type : ValType)
    (same : type = (frame.values[0]?.map (·.type)).getD .i32) :
    (Stacks.onto frame s).pick.map (·.commit) =
      if type.isRef = false ∧ offers frame.unreachable frame.known [type, type] = true then
        some ((Stacks.onto (frame.without 2) s).pushTypes [type]).commit
      else none := by
  subst same
  obtain ⟨label, kind, startTypes, endTypes, unreachable, values, written⟩ := frame
  cases values with
  | nil =>
      show Option.map _ (Option.bind (Stacks.pop ⟨s.values, _⟩) _) = _
      cases unreachable with
      | true =>
          rw [pop_nil rfl rfl, Option.bind_some]
          show Option.map _ (Option.bind (Stacks.pop ⟨s.values, _⟩) _) = _
          rw [pop_nil rfl rfl]
          rfl
      | false =>
          rw [pop_missing rfl rfl]
          rfl
  | cons a values =>
      show Option.map _ (Option.bind
        (Stacks.pop ⟨some a.type :: values.map (some ·.type) ++ s.values, _⟩) _) = _
      rw [pop_cons rfl, Option.bind_some]
      cases values with
      | nil =>
          show Option.map _ (Option.bind (Stacks.pop ⟨s.values, _⟩) _) = _
          cases unreachable with
          | true =>
              rw [pop_nil rfl rfl]
              cases isRef : a.type.isRef <;> simp [offers, isRef, Frame.known]
              rfl
          | false =>
              rw [pop_missing rfl rfl]
              simp [offers, Frame.known]
      | cons b rest =>
          show Option.map _ (Option.bind
            (Stacks.pop ⟨some b.type :: rest.map (some ·.type) ++ s.values, _⟩) _) = _
          rw [pop_cons rfl, Option.bind_some]
          by_cases same : a.type = b.type
          · cases isRef : a.type.isRef <;> simp [offers, Frame.known, same, same ▸ isRef]
            rfl
          · simp [offers, Frame.known, same, Ne.symm same]

theorem answers_select (accepted : ∃ s s', Γ.simple s .select immediate = some s')
    (typing : d.typing = .select) : Answers Γ ids Γ.committed d .select immediate := by
  obtain ⟨s, s', accepted⟩ := accepted
  cases immediate with
  | none =>
      refine ⟨.none, rfl, fun c _ => ?_⟩
      have allowed : d.effect c .none =
          if ((c.peekType 1).getD .i32).isRef then
            .error (.invalidOperand d.name .referenceNeedsType)
          else .ok {
            params := [(c.peekType 1).getD .i32, (c.peekType 1).getD .i32, .i32]
            results := [(c.peekType 1).getD .i32] } := by
        unfold InstrDef.effect
        rw [typing]
      rw [Context.reached_perform, allowed, Env.committed, simple_select]
      generalize chosen : (c.peekType 1).getD .i32 = type
      -- The condition goes first; without one both fail.
      have undergone : c.asStacks.undergo { params := [type, type, .i32], results := [type] } =
          (c.asStacks.popType .i32).bind fun taken =>
            ((taken.2.popTypes [type, type]).map (·.2)).map (·.pushTypes [type]) := by
        rw [Stacks.undergo]
        show Option.map _ ((c.asStacks.popTypes ([type, type] ++ [.i32])).map (·.2)) = _
        rw [popTypes_concat]
        cases c.asStacks.popType .i32 <;> rfl
      cases popped : c.asStacks.popType .i32 with
      | none =>
          rw [popped] at undergone
          cases type.isRef with
          | true => rfl
          | false => exact undergone
      | some taken =>
          rw [popped, Option.bind_some, (popType_asStacks popped).2, Context.popTypes_known,
            Context.known_without] at undergone
          have picked := commit_pick (c.frame.without 1) c.around type (by
            rw [← chosen, Context.peekType, Frame.without, List.getElem?_drop])
          have whole : ((Stacks.onto ((c.frame.without 1).without 2) c.around).pushTypes
              [type]).commit = ((c.without 1).without 2).asStacks.pushTypes [type] := by
            show (((c.without 1).without 2).asStacks.pushTypes [type]).commit = _
            rw [← Context.asStacks_push, commit_asStacks]
          rw [Frame.known_without, whole] at picked
          rw [Option.bind_some, (popType_asStacks popped).2]
          refine Eq.trans ?_ picked.symm
          cases type.isRef with
          | true => exact (if_neg (mt And.left (by decide))).symm
          | false =>
              by_cases fits : offers c.frame.unreachable (c.frame.known.drop 1) [type, type] = true
              · exact (undergone.trans (congrArg (Option.map _) (if_pos fits))).trans
                  (if_pos ⟨rfl, fits⟩).symm
              · exact (undergone.trans (congrArg (Option.map _) (if_neg fits))).trans
                  (if_neg fun known => fits known.2).symm
  | _ => cases accepted

/-! ## All instructions -/

/-- The typing rule for an instruction whose type is found on the stack. -/
def Rule.untyped : Rule → Option TypingRule
  | .unreachable => some .trap
  | .ret => some .ret
  | .br => some .br
  | .brIf => some .brIf
  | .brTable => some .brTable
  | .drop => some .drop
  | .select => some .select
  | .refIsNull => some .refIsNull
  | _ => none

theorem typing_of_untyped (ruled : d.rule = some rule) {typing : TypingRule}
    (untyped : rule.untyped = some typing) : d.typing = typing := by
  have known : d.AmountsTo rule d.typing := InstrDef.of_rule ruled rfl
  cases kind : d.typing <;> rw [kind] at known
  case fixed =>
      obtain ⟨type, -, -, rfl⟩ := known
      cases untyped
  case trap =>
      obtain ⟨-, -, rfl⟩ := known
      cases untyped
      rfl
  case constant =>
      obtain ⟨type, -, -, rfl⟩ := known
      cases untyped
  case shuffle =>
      obtain ⟨-, rfl⟩ := known
      cases untyped
  case lane | memoryAccess =>
      obtain ⟨_, _, -, -, rfl⟩ := known
      cases untyped
  case memory =>
      rcases known with ⟨type, -, -, rfl⟩ | ⟨-, -, rfl⟩ <;> cases untyped
  case block =>
      dsimp only [InstrDef.AmountsTo] at known
      split at known <;> cases known <;> cases untyped
  all_goals
    cases known
    cases untyped
    try rfl

/-- An instruction that is accepted has a type, or is one of the others. -/
theorem typed_or_untyped {s s' : Stacks} (accepted : Γ.simple s rule immediate = some s') :
    (∃ type, Γ.typeOf rule immediate = some type) ∨ ∃ typing, rule.untyped = some typing := by
  cases rule with
  | unreachable | ret | br | brIf | brTable | drop | select | refIsNull => exact .inr ⟨_, rfl⟩
  | block | loop | conditional => cases accepted
  | _ => exact .inl ((Option.bind_eq_some_iff.mp accepted).imp fun _ found => found.1)

/-- All instructions but one are as in the algorithm. -/
theorem answers_simple (ruled : d.rule = some rule) (other : rule ≠ .select)
    (accepted : ∃ s s', Γ.simple s rule immediate = some s') :
    Answers Γ ids Γ.simple d rule immediate := by
  have done := accepted
  obtain ⟨s, s', accepts⟩ := done
  rcases typed_or_untyped accepts with ⟨type, typed⟩ | ⟨typing, untyped⟩
  · exact (granted_of_typeOf ruled typed).answers typed
  · have kind := typing_of_untyped ruled untyped
    cases rule with
    | unreachable => cases untyped; exact answers_trap ruled accepted kind
    | ret => cases untyped; exact answers_ret accepted kind
    | br => cases untyped; exact answers_br accepted kind
    | brIf => cases untyped; exact answers_brIf accepted kind
    | brTable => cases untyped; exact answers_brTable accepted kind
    | drop => cases untyped; exact answers_drop accepted kind
    | refIsNull => cases untyped; exact answers_refIsNull accepted kind
    | select => exact absurd rfl other
    | _ => cases untyped

/-- The one that is left is as in the algorithm, but for an operand of unknown type. -/
theorem answers_committed (ruled : d.rule = some rule)
    (accepted : ∃ s s', Γ.simple s rule immediate = some s') :
    Answers Γ ids Γ.committed d rule immediate := by
  by_cases select : rule = .select
  · subst select
    exact answers_select accepted (typing_of_untyped ruled rfl)
  · exact (answers_simple ruled select accepted).committed

end Wasm.Validation
