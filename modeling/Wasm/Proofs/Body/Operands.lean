import Wasm.Proofs.Body.Fresh
import Wasm.Proofs.InstrSet.Distinct

/-!
# Operands in their places

Operands are listed with the first one deepest on the stack. Those that are on
the stack already are looked for in their places, counted from the last one of
them, and the others are pushed behind them; so when the instruction is written
each one that was named or pushed stands where the list has it. What the
instruction then takes is as many values as it has operands, whatever the
length of the list: from a longer list it takes the last ones.

A value that is not in its place is refused, and a value that is gone has no
place any more. With that a value is consumed at most once, as long as ids have
not started over.
-/

namespace Wasm

/-! ## The values that operands stand for -/

namespace Operand

/-- The type of the value that an operand pushes. -/
def pushedType : Operand → Option ValType
  | .stack | .var _ => none
  | .localVar handle => some handle.type
  | .globalVar handle => some handle.type.value
  | .i32 _ => some .i32
  | .i64 _ => some .i64
  | .f32 _ => some .f32
  | .f64 _ => some .f64

/-- The operand is the value `v`: one that it names, or one that was made between the
states `c` and `c'`. An operand that is just taken from the stack may be any value. -/
def Gives (c c' : Context) : Operand → StackVar → Prop
  | .stack, _ => True
  | .var named, v => v = named
  | explicit, v => ∃ n, c.varsMade ≤ n ∧ n < c'.varsMade ∧ v.id = UInt32.ofNat n ∧
      explicit.pushedType = some v.type

theorem Gives.widen {c c' d d' : Context} {operand : Operand} {v : StackVar}
    (h : operand.Gives c c' v) (before : d.varsMade ≤ c.varsMade)
    (after : c'.varsMade ≤ d'.varsMade) : operand.Gives d d' v := by
  cases operand with
  | stack => trivial
  | var named => exact h
  | _ =>
      obtain ⟨n, since, until', given⟩ := h
      exact ⟨n, Nat.le_trans before since, Nat.lt_of_lt_of_le until' after, given⟩

end Operand

namespace Context

variable {c c' popped : Context} {v : StackVar}

/-! ## Operands on the stack -/

/-- Only places are checked, counted from the last operand. -/
theorem checkPlaces_eq_ok {name : String} {position : Nat} {operands : List Operand} :
    c.checkPlaces name position operands = .ok () ↔ ∀ i v, operands[i]? = some (.var v) →
      c.frame.values[operands.length - 1 - i]? = some v := by
  induction operands generalizing position with
  | nil => simp [checkPlaces]
  | cons operand rest ih =>
      have later : ∀ i, (operand :: rest).length - 1 - (i + 1) = rest.length - 1 - i := fun i => by
        rw [List.length_cons]
        omega
      have others : (∀ i v, (operand :: rest)[i]? = some (.var v) →
          c.frame.values[(operand :: rest).length - 1 - i]? = some v) ↔
          (∀ v, operand = .var v → c.frame.values[rest.length]? = some v) ∧
          ∀ i v, rest[i]? = some (.var v) → c.frame.values[rest.length - 1 - i]? = some v := by
        constructor
        · intro all
          exact ⟨fun v same => all 0 v (congrArg some same), fun i v listed =>
            later i ▸ all (i + 1) v listed⟩
        · rintro ⟨first, behind⟩ (_ | i) v listed
          · exact first v (Option.some.inj listed)
          · exact (later i).symm ▸ behind i v listed
      rw [others, ← @ih (position + 1)]
      cases operand with
      | var named =>
          rw [checkPlaces]
          split
          · rename_i there
            simp [there]
          · rename_i elsewhere
            simp [elsewhere]
      | _ => simp [checkPlaces]

theorem checkPlaces_eq_error {name : String} {position : Nat} {operands : List Operand}
    {e : BuildError} (failed : c.checkPlaces name position operands = .error e) :
    ∃ fault, e = .invalidOperand name fault := by
  induction operands generalizing position with
  | nil => cases failed
  | cons operand rest ih =>
      cases operand with
      | var named =>
          rw [checkPlaces] at failed
          split at failed
          · exact ih failed
          · exact ⟨_, (Except.error.inj failed).symm⟩
      | _ => exact ih failed

/-- The value is on the stack at the place that its position in the list implies:
the operands on the stack come first, the last of them is on top, and none of
them is in a frame around the current one. -/
def InSlot (c : Context) (operands : List Operand) (i : Nat) (v : StackVar) : Prop :=
  ∃ slot, slot + (operands.takeWhile (·.isOnStack)).length = c.stack.length + i ∧
    height c.outer ≤ slot ∧ c.stack[slot]? = some v

theorem length_below (c : Context) : c.below.length = height c.outer :=
  List.length_reverse

/-- Places counted from the top are slots of the whole stack. -/
theorem place_iff_slot {k : Nat} : c.frame.values[k]? = some v ↔
    ∃ slot, slot + (k + 1) = c.stack.length ∧ height c.outer ≤ slot ∧ c.stack[slot]? = some v := by
  rw [stack_eq, List.length_append, List.length_reverse, length_below]
  constructor
  · intro there
    have within := (List.getElem?_eq_some_iff.mp there).1
    refine ⟨height c.outer + (c.frame.values.length - 1 - k), by omega, Nat.le_add_right _ _, ?_⟩
    rw [List.getElem?_append_right (by rw [length_below]; omega), length_below,
      Nat.add_sub_cancel_left, List.getElem?_reverse (by omega), ← there]
    congr 1
    omega
  · rintro ⟨slot, place, inside, there⟩
    rw [List.getElem?_append_right (by rw [length_below]; omega), length_below,
      List.getElem?_reverse (by omega)] at there
    rw [← there]
    congr 1
    omega

/-! ## What an instruction takes -/

/-- The values of the current frame are on the stack, and in no frame around it. -/
theorem mem_stack_of_place {k : Nat} (there : c.frame.values[k]? = some v) : v ∈ c.stack := by
  rw [stack_eq]
  exact List.mem_append_right _ (List.mem_reverse.mpr (List.mem_of_getElem? there))

theorem Ordered.not_mem_below (h : c.Ordered) (few : c.varsMade ≤ 2 ^ 32) {k : Nat}
    (there : c.frame.values[k]? = some v) : v ∉ c.below := by
  have distinct := h.nodup few
  rw [stack_eq, List.nodup_append] at distinct
  exact fun around => distinct.2.2 v around v
    (List.mem_reverse.mpr (List.mem_of_getElem? there)) rfl

/-- Of the values of the frame those stay which are deeper than the number taken. -/
theorem Ordered.mem_popped_iff (h : c.Ordered) (few : c.varsMade ≤ 2 ^ 32) {name : String}
    {types : List ValType} {k : Nat} (taken : c.pop name types = .ok popped)
    (there : c.frame.values[k]? = some v) : v ∈ popped.stack ↔ types.length ≤ k := by
  have distinct : c.frame.values.Nodup := by
    have all := h.nodup few
    rw [stack_eq, List.nodup_append] at all
    exact List.nodup_reverse.mp all.2.1
  obtain ⟨-, rfl⟩ := pop_eq_ok.mp taken
  rw [stack_eq, List.mem_append, List.mem_reverse]
  constructor
  · rintro (around | inside)
    · exact absurd around (h.not_mem_below few there)
    · obtain ⟨i, within, same⟩ := List.mem_drop_iff_getElem.mp inside
      rw [Nat.add_comm] at within
      have again := there.trans (List.getElem?_eq_some_iff.mpr ⟨within, same⟩).symm
      have place := (List.getElem?_inj (List.getElem?_eq_some_iff.mp there).1 distinct).mp again
      omega
  · intro deep
    have within := (List.getElem?_eq_some_iff.mp there).1
    refine .inr (List.mem_of_getElem? (i := k - types.length) ?_)
    rw [values_without, List.getElem?_drop, Nat.add_sub_cancel' deep, there]

/-- An instruction leaves what it did not take, unless it does not hand on control. -/
theorem Ordered.mem_performed_iff (h : c.Ordered) {d : InstrDef} {effect : Effect}
    (few : c.varsMade + effect.results.length ≤ 2 ^ 32) {k : Nat}
    (taken : c.pop d.name effect.params = .ok popped) (there : c.frame.values[k]? = some v) :
    v ∈ (if effect.diverges
        then ((popped.push effect.results).2.write (draftOf d effect)).markUnreachable
        else (popped.push effect.results).2.write (draftOf d effect)).stack ↔
      v ∈ popped.stack ∧ effect.diverges = false := by
  obtain ⟨-, rfl⟩ := pop_eq_ok.mp taken
  have few' : c.varsMade ≤ 2 ^ 32 := Nat.le_trans (Nat.le_add_right _ _) few
  cases effect.diverges with
  | true =>
      rw [if_pos rfl, stack_markUnreachable]
      exact iff_of_false (h.not_mem_below few' there) fun kept => Bool.false_ne_true kept.2.symm
  | false =>
      have old : v ∉ freshVars c.varsMade effect.results := fun new =>
        Nat.not_lt.mpr (((numbered_freshVars _ _).ids_eq few).2 v new).1
          (h.bounded few' (mem_stack_of_place there))
      rw [if_neg Bool.false_ne_true, stack_write, stack_push, List.mem_append]
      exact ⟨fun left => ⟨left.resolve_right old, rfl⟩, fun left => .inl left.1⟩

end Context

namespace Construction

variable {σ : Type}

open Context (Ordered)

/-! ## Operands that are pushed -/

/-- The instruction of a mnemonic that takes nothing and pushes one value. -/
theorem pushes_named {name : String} {d : InstrDef} {argument : Argument} {type : ValType}
    (found : InstrSet.standard.named name = .ok d)
    (pushes : ∀ c effect, d.effect c argument = .ok effect →
      effect.params = [] ∧ effect.diverges = false ∧ effect.results = [type])
    {w w' : Workspace σ}
    (done : (do let _ ← perform (← definition name) argument : Construction σ Unit) w = .ok () w') :
    w'.context.frame.values = ⟨UInt32.ofNat w.context.varsMade, type⟩ :: w.context.frame.values ∧
      w'.context.varsMade = w.context.varsMade + 1 := by
  obtain ⟨d', _, looked, performed⟩ := EStateM.bind_eq_ok.mp done
  obtain ⟨found', rfl⟩ := definition_eq_ok.mp looked
  cases found.symm.trans found'
  obtain ⟨vars, _, performed, last⟩ := EStateM.bind_eq_ok.mp performed
  obtain ⟨c', changed, rfl⟩ := update_eq_ok.mp performed
  cases last
  obtain ⟨effect, popped, allowed, taken, -, rfl⟩ := Context.perform_eq_ok.mp changed
  obtain ⟨nothing, goesOn, one⟩ := pushes _ _ allowed
  rw [nothing] at taken
  obtain ⟨-, rfl⟩ := Context.pop_eq_ok.mp taken
  rw [goesOn, one]
  exact ⟨rfl, rfl⟩

theorem pushes_pushOperand {operand : Operand} (explicit : operand.isOnStack = false)
    {w w' : Workspace σ} (done : pushOperand operand w = .ok () w') :
    ∃ v, w'.context.frame.values = v :: w.context.frame.values ∧
      operand.Gives w.context w'.context v := by
  have next : w.context.varsMade ≤ w.context.varsMade := Nat.le_refl _
  cases operand with
  | stack | var _ => cases explicit
  | localVar handle =>
      obtain ⟨values, made⟩ := pushes_named rfl (fun c effect allowed => by
        cases (InstrDef.effect_eq_ok rfl).mp allowed
        exact ⟨rfl, rfl, rfl⟩) done
      exact ⟨_, values, _, next, made ▸ Nat.lt_succ_self _, rfl, rfl⟩
  | _ =>
      obtain ⟨values, made⟩ := pushes_named rfl (fun c effect allowed => by
        cases allowed
        exact ⟨rfl, rfl, rfl⟩) done
      exact ⟨_, values, _, next, made ▸ Nat.lt_succ_self _, rfl, rfl⟩

/-- One value for each operand, that of the last one on top. -/
theorem pushes_pushOperands {operands : List Operand}
    (explicit : ∀ operand ∈ operands, operand.isOnStack = false) {w w' : Workspace σ}
    (done : pushOperands operands w = .ok () w') : ∃ new,
      w'.context.frame.values = new ++ w.context.frame.values ∧
      List.Forall₂ (Operand.Gives w.context w'.context) operands new.reverse := by
  induction operands generalizing w with
  | nil =>
      cases done
      exact ⟨[], rfl, .nil⟩
  | cons operand rest ih =>
      obtain ⟨here, behind⟩ := List.forall_mem_cons.mp explicit
      obtain ⟨_, w₁, first, others⟩ := EStateM.bind_eq_ok.mp done
      have grown := (traces_covered.pushOperand first).renews.varsMade
      have grown' := (traces_covered.pushOperands others).renews.varsMade
      obtain ⟨v, values, gives⟩ := pushes_pushOperand here first
      obtain ⟨new, values', given⟩ := ih behind others
      refine ⟨new ++ [v], ?_, ?_⟩
      · rw [values', values, List.append_assoc]
        rfl
      · rw [List.reverse_append]
        exact .cons (gives.widen (Nat.le_refl _) grown')
          (given.imp fun operand v gives => gives.widen grown (Nat.le_refl _))

/-! ## All operands -/

/-- With one value for each operand pushed on others, the last one on top, each
value stands as deep as there are operands behind its own. -/
theorem place_of_gives {c c' : Context} {operands : List Operand} {new values : List StackVar}
    (gives : List.Forall₂ (Operand.Gives c c') operands new.reverse) {i : Nat} {operand : Operand}
    (listed : operands[i]? = some operand) :
    ∃ v, (new ++ values)[operands.length - 1 - i]? = some v ∧ operand.Gives c c' v := by
  obtain ⟨within, same⟩ := List.getElem?_eq_some_iff.mp listed
  have count := gives.length_eq
  have within' : i < new.reverse.length := count ▸ within
  refine ⟨new.reverse[i], ?_, ?_⟩
  · rw [List.length_reverse] at within' count
    rw [count, List.getElem?_append_left (by omega), ← List.getElem?_reverse within']
    exact List.getElem?_eq_getElem _
  · subst same
    exact gives.get within within'

/-- When the instruction is written, each operand that was named or pushed
stands where the list has it. -/
theorem place_of_bindOperands {name : String} {operands : List Operand} {w w' : Workspace σ}
    (bound : bindOperands name operands w = .ok () w') {i : Nat} {operand : Operand}
    (listed : operands[i]? = some operand) (given : operand ≠ .stack) :
    ∃ v, w'.context.frame.values[operands.length - 1 - i]? = some v ∧
      operand.Gives w.context w'.context v := by
  obtain ⟨sorted, placed, pushed⟩ := bindOperands_eq_ok.mp bound
  have explicit : ∀ operand ∈ operands.dropWhile (·.isOnStack), operand.isOnStack = false := by
    simpa using sorted
  obtain ⟨new, values, gives⟩ := pushes_pushOperands explicit pushed
  have front : ∀ operand ∈ operands.takeWhile (·.isOnStack), operand.isOnStack = true :=
    fun _ => List.mem_takeWhile_imp
  have parts := List.takeWhile_append_dropWhile (p := (·.isOnStack)) (l := operands)
  generalize operands.takeWhile (·.isOnStack) = onStack at placed front parts
  generalize operands.dropWhile (·.isOnStack) = others at gives parts
  subst parts
  rw [values, List.length_append]
  rcases Nat.lt_or_ge i onStack.length with before | behind
  · rw [List.getElem?_append_left before] at listed
    cases operand with
    | var named =>
        have count := gives.length_eq
        rw [List.length_reverse] at count
        have place : onStack.length + others.length - 1 - i - new.length =
            onStack.length - 1 - i := by omega
        refine ⟨named, ?_, rfl⟩
        rw [List.getElem?_append_right (by omega), place]
        exact Context.checkPlaces_eq_ok.mp placed i named listed
    | stack => exact absurd rfl given
    | _ => cases front _ (List.mem_of_getElem? listed)
  · rw [List.getElem?_append_right behind] at listed
    have place : onStack.length + others.length - 1 - i =
        others.length - 1 - (i - onStack.length) := by omega
    rw [place]
    exact place_of_gives gives listed

/-- An instruction takes the last ones of its listed operands. Each operand that
is named or pushed is a value that stands where the list has it when the
instruction is written. It is taken unless as many operands follow it as the
instruction has, and if it was not taken it stays on the stack, unless control
is not handed on. As long as ids have not started over a value that was taken
is not on the stack any more. -/
theorem consumes_last_listed {type : FuncType} {s : Session} (reached : Session.Reached type s)
    {name : String} {argument : Argument} {operands : List Operand} {vars : List StackVar}
    {client : σ} {w' : Workspace σ}
    (done : instr name argument operands ⟨s.context, client⟩ = .ok vars w') :
    ∃ d effect bound popped, InstrSet.standard.named name = .ok d ∧
      bindOperands d.name operands ⟨s.context, client⟩ = .ok () bound ∧
      d.effect bound.context argument = .ok effect ∧
      bound.context.pop d.name effect.params = .ok popped ∧
      popped.frame.values = bound.context.frame.values.drop effect.params.length ∧
      w'.context.frame.values =
        (if effect.diverges then [] else vars.reverse ++ popped.frame.values) ∧
      ∀ i operand, operands[i]? = some operand → operand ≠ .stack → ∃ v,
        operand.Gives s.context w'.context v ∧
        bound.context.frame.values[operands.length - 1 - i]? = some v ∧
        (operands.length ≤ i + effect.params.length →
          (bound.context.frame.values.take effect.params.length)[operands.length - 1 - i]? =
            some v) ∧
        (i + effect.params.length < operands.length →
          popped.frame.values[operands.length - 1 - i - effect.params.length]? = some v) ∧
        (w'.context.varsMade ≤ 2 ^ 32 →
          (v ∈ popped.stack ↔ i + effect.params.length < operands.length) ∧
          (v ∈ w'.context.stack ↔ v ∈ popped.stack ∧ effect.diverges = false)) := by
  obtain ⟨d, bound, found, -, placed, written⟩ := instr_eq_ok.mp done
  obtain ⟨c', performed, rfl⟩ := update_eq_ok.mp written
  obtain ⟨effect, popped, allowed, taken, rfl, last⟩ := Context.perform_eq_ok.mp performed
  have pushed := (bindOperands_eq_ok.mp placed).2.2
  have ordered : bound.context.Ordered :=
    (traces_covered.pushOperands pushed).renews.ordered reached.ordered
  obtain ⟨-, without⟩ := Context.pop_eq_ok.mp taken
  have values : popped.frame.values = bound.context.frame.values.drop effect.params.length :=
    without ▸ rfl
  have made : c'.varsMade = bound.context.varsMade + effect.results.length := by
    rw [last, without]
    split <;> rfl
  refine ⟨d, effect, bound, popped, found, placed, allowed, taken, values, ?_, ?_⟩
  · rw [last]
    split <;> rfl
  intro i operand listed given
  obtain ⟨v, there, gives⟩ := place_of_bindOperands placed listed given
  have inside := (List.getElem?_eq_some_iff.mp listed).1
  refine ⟨v, gives.widen (Nat.le_refl _) (made ▸ Nat.le_add_right _ _), there, ?_, ?_, ?_⟩
  · intro last
    rwa [List.getElem?_take_of_lt (by omega)]
  · intro surplus
    rw [values, List.getElem?_drop, Nat.add_sub_cancel' (by omega)]
    exact there
  · intro few
    rw [made] at few
    refine ⟨?_, last ▸ ordered.mem_performed_iff few taken there⟩
    rw [ordered.mem_popped_iff (Nat.le_trans (Nat.le_add_right _ _) few) taken there]
    omega

/-- The state that a construction leaves of an empty body. -/
def leftBy (act : Construction Unit Unit) : Context :=
  match act ⟨Context.forFunction ⟨[], []⟩, ()⟩ with
  | .ok _ w | .error _ w => w.context

/-- Pushes one constant. -/
def oneConstant : Construction Unit Unit := do
  let _ ← i32Const 7

theorem reached_oneConstant : ∃ level gone,
    Session.Reached ⟨[], []⟩ ⟨leftBy oneConstant, [level], gone⟩ := by
  have program : Program oneConstant _ := (Program.value _ _ _).bind fun _ => .pure ()
  obtain ⟨notes, gone, -, steps⟩ := program.covered ⟨Context.forFunction ⟨[], []⟩, ()⟩
    ⟨leftBy oneConstant, ()⟩ (.of_ok rfl)
    ⟨⟨0⟩, .function, ⟨[], []⟩, [], Context.forFunction ⟨[], []⟩⟩ [] []
  exact ⟨_, _, steps⟩

/-- The list is longer than the operands of the instruction, and the first one stays. -/
theorem consumes_last_listed_sum : ∃ s vars w', Session.Reached ⟨[], []⟩ s ∧
    instr "i32.add" .none [.var ⟨0, .i32⟩, .i32 1, .i32 2] ⟨s.context, ()⟩ = .ok vars w' ∧
    ⟨0, .i32⟩ ∈ w'.context.stack ∧
    ∃ v, Operand.Gives s.context w'.context (.i32 1) v ∧ v ∉ w'.context.stack := by
  obtain ⟨level, rest, reached⟩ := reached_oneConstant
  obtain ⟨vars, w', done, few⟩ : ∃ vars w', instr "i32.add" .none
      [.var ⟨0, .i32⟩, .i32 1, .i32 2] ⟨leftBy oneConstant, ()⟩ = .ok vars w' ∧
        w'.context.varsMade ≤ 2 ^ 32 := ⟨_, _, rfl, by decide⟩
  obtain ⟨d, effect, bound, popped, found, -, allowed, -, -, -, each⟩ :=
    consumes_last_listed reached done
  cases found
  cases allowed
  refine ⟨_, vars, w', reached, done, ?_, ?_⟩
  · obtain ⟨v, rfl, -, -, -, stays⟩ := each 0 _ rfl nofun
    obtain ⟨taken, left⟩ := stays few
    exact left.mpr ⟨taken.mpr (by decide), rfl⟩
  · obtain ⟨v, gives, -, -, -, stays⟩ := each 1 _ rfl nofun
    obtain ⟨taken, left⟩ := stays few
    exact ⟨v, gives, fun still => absurd (taken.mp (left.mp still).1) (by decide)⟩

/-- Not every operand that is listed is taken. -/
theorem not_forall_listed_consumed : ¬∀ (type : FuncType) (s : Session), Session.Reached type s →
    ∀ name argument operands vars (w' : Workspace Unit),
      instr name argument operands ⟨s.context, ()⟩ = .ok vars w' →
      ∀ v, .var v ∈ operands → v ∉ w'.context.stack := by
  intro claimed
  obtain ⟨level, gone, reached⟩ := reached_oneConstant
  exact claimed _ _ reached "i32.add" .none [.var ⟨0, .i32⟩, .i32 1, .i32 2] _ _ rfl ⟨0, .i32⟩
    List.mem_cons_self List.mem_cons_self

/-! ## Operands that are not in their places -/

variable {c : Context} {name : String} {operands : List Operand} {i : Nat} {v : StackVar}

/-- What passes the checks is in its slot. -/
theorem inSlot_of_checkPlaces
    (sorted : (operands.dropWhile (·.isOnStack)).any (·.isOnStack) = false)
    (placed : c.checkPlaces name 0 (operands.takeWhile (·.isOnStack)) = .ok ())
    (listed : operands[i]? = some (.var v)) : c.InSlot operands i v := by
  have explicit : ∀ operand ∈ operands.dropWhile (·.isOnStack), operand.isOnStack = false := by
    simpa using sorted
  have parts := List.takeWhile_append_dropWhile (p := (·.isOnStack)) (l := operands)
  rw [← parts] at listed
  unfold Context.InSlot
  generalize operands.takeWhile (·.isOnStack) = onStack at *
  rcases Nat.lt_or_ge i onStack.length with before | behind
  · rw [List.getElem?_append_left before] at listed
    obtain ⟨slot, place, inside, there⟩ :=
      Context.place_iff_slot.mp (Context.checkPlaces_eq_ok.mp placed i v listed)
    exact ⟨slot, by omega, inside, there⟩
  · rw [List.getElem?_append_right behind] at listed
    cases explicit _ (List.mem_of_getElem? listed)

/-- An instruction that lists a value out of its slot is refused, and nothing happens. -/
theorem instr_not_inSlot {d : InstrDef} (found : InstrSet.standard.named name = .ok d)
    (plain : d.shape.isStructured = false) (listed : operands[i]? = some (.var v))
    (misplaced : ¬c.InSlot operands i v) (argument : Argument) (client : σ) :
    ∃ fault, instr name argument operands ⟨c, client⟩ =
      .error (.invalidOperand name fault) ⟨c, client⟩ := by
  obtain ⟨-, rfl⟩ := InstrSet.mem_of_named found
  have unbound : ∃ fault, bindOperands d.name operands ⟨c, client⟩ =
      .error (.invalidOperand d.name fault) ⟨c, client⟩ := by
    cases sorted : (operands.dropWhile (·.isOnStack)).any (·.isOnStack) with
    | true => exact ⟨.stackAfterExplicit, by simp only [bindOperands, sorted]; rfl⟩
    | false =>
        cases placed : c.checkPlaces d.name 0 (operands.takeWhile (·.isOnStack)) with
        | ok _ => exact absurd (inSlot_of_checkPlaces sorted placed listed) misplaced
        | error e =>
            obtain ⟨fault, rfl⟩ := Context.checkPlaces_eq_error placed
            refine ⟨fault, ?_⟩
            simp only [bindOperands, sorted]
            exact EStateM.bind_eq_error.mpr (.inl (by rw [inspect, placed]))
  obtain ⟨fault, unbound⟩ := unbound
  refine ⟨fault, EStateM.bind_eq_error.mpr (.inr ⟨d, _, definition_eq_ok.mpr ⟨found, rfl⟩, ?_⟩)⟩
  rw [if_neg (Bool.eq_false_iff.mp plain)]
  exact atomically_eq_error.mpr ⟨_, EStateM.bind_eq_error.mpr (.inl unbound), rfl⟩

/-- A value that is gone has no slot, nor has one in a frame around the current one. -/
theorem not_inSlot (ordered : c.Ordered) (few : c.varsMade ≤ 2 ^ 32)
    (elsewhere : v ∉ c.stack ∨ ∃ k < Context.height c.outer, c.stack[k]? = some v) :
    ¬c.InSlot operands i v := by
  rintro ⟨slot, -, inside, there⟩
  rcases elsewhere with gone | ⟨k, around, place⟩
  · exact gone (List.mem_of_getElem? there)
  · have same := ordered.place_unique few place there
    omega

/-! ## Values are consumed once -/

/-- Each point that a run of a program comes through is that of a session. -/
theorem Visits.reached {α : Type} {type : FuncType} {act : Construction σ α} {client : σ}
    {path : List Opened} {w : Workspace σ}
    (visits : Visits act ⟨Context.forFunction type, client⟩ path w) :
    ∃ s, Session.Reached type s ∧ s.context = w.context := by
  obtain ⟨levels, gone, -, steps⟩ :=
    visits.passes ⟨⟨0⟩, .function, type, [], Context.forFunction type⟩ [] []
  exact ⟨_, steps, rfl⟩

/-- A value is consumed at most once, in bodies of no more than 2^32 values. In
every session the values on the stack have different ids. A value that went from
the stack does not come back by any steps that undo no construct which was open
when it was gone, and so not wherever a program comes through that goes on from
there. An instruction that lists a value is refused as it is if the value is
gone, if it is in a frame around the current one, or if it is out of its slot. -/
theorem value_consumed_once (type : FuncType) :
    (∀ s, Session.Reached type s → s.context.varsMade ≤ 2 ^ 32 →
      (s.context.stack.map (·.id)).Nodup) ∧
    (∀ s s₁ count s₂ v, Session.Reached type s → v ∈ s.context.stack → Session.Steps s s₁ →
      v ∉ s₁.context.stack → Session.Lasts s₁ count s₂ → s₂.context.varsMade ≤ 2 ^ 32 →
      v ∉ s₂.context.stack) ∧
    (∀ (α β γ : Type) (run : Construction σ α) (client : σ) path w,
      Visits run ⟨Context.forFunction type, client⟩ path w →
      (∃ s, Session.Reached type s ∧ s.context = w.context) ∧
      ∀ (call : Construction σ β) calls w₁ (next : Construction σ γ) path' w₂ v,
        Program call calls → v ∈ w.context.stack → EStateM.Leaves call w w₁ →
        v ∉ w₁.context.stack → Visits next w₁ path' w₂ → w₂.context.varsMade ≤ 2 ^ 32 →
        v ∉ w₂.context.stack) ∧
    ∀ s name d argument operands i v (client : σ), Session.Reached type s →
      s.context.varsMade ≤ 2 ^ 32 → InstrSet.standard.named name = .ok d →
      d.shape.isStructured = false → operands[i]? = some (.var v) →
      (v ∉ s.context.stack ∨
        (∃ k < Context.height s.context.outer, s.context.stack[k]? = some v) ∨
        ¬s.context.InSlot operands i v) →
      ∃ fault, instr name argument operands ⟨s.context, client⟩ =
        .error (.invalidOperand name fault) ⟨s.context, client⟩ := by
  refine ⟨fun s reached few => reached.ordered.nodup_id few, ?_, ?_, ?_⟩
  · intro s s₁ count s₂ v reached there steps gone lasts few
    have renews := lasts.since.renews
    have known := reached.ordered.bounded
      (Nat.le_trans steps.varsMade (Nat.le_trans renews.varsMade few)) there
    exact renews.not_mem few (Nat.lt_of_lt_of_le known steps.varsMade) gone
  · intro α β γ run client path w visits
    obtain ⟨s, reached, same⟩ := visits.reached
    refine ⟨⟨s, reached, same⟩, ?_⟩
    intro call calls w₁ next path' w₂ v program there left gone visits' few
    have grown := (program.covered w w₁ left).renews.varsMade
    have renews := visits'.passes.renews
    rw [← same] at there grown
    have known := reached.ordered.bounded
      (Nat.le_trans grown (Nat.le_trans renews.varsMade few)) there
    exact renews.not_mem few (Nat.lt_of_lt_of_le known grown) gone
  · intro s name d argument operands i v client reached few found plain listed wrong
    refine instr_not_inSlot found plain listed ?_ argument client
    rcases wrong with gone | around | misplaced
    · exact not_inSlot reached.ordered few (.inl gone)
    · exact not_inSlot reached.ordered few (.inr around)
    · exact misplaced

/-- Takes the constant away again. -/
def droppedConstant : Construction Unit Unit := do
  oneConstant
  drop (.var ⟨0, .i32⟩)

/-- A value that was dropped is refused in a block that begins behind that. -/
theorem value_consumed_once_dropped : ∃ s s₁ count s₂ fault, Session.Reached ⟨[], []⟩ s ∧
    ⟨0, .i32⟩ ∈ s.context.stack ∧ Session.Steps s s₁ ∧ ⟨0, .i32⟩ ∉ s₁.context.stack ∧
    Session.Lasts s₁ count s₂ ∧ s₂.levels.length = 2 ∧ ⟨0, .i32⟩ ∉ s₂.context.stack ∧
    instr "i32.eqz" .none [.var ⟨0, .i32⟩] ⟨s₂.context, ()⟩ =
      .error (.invalidOperand "i32.eqz" fault) ⟨s₂.context, ()⟩ := by
  obtain ⟨level, gone, reached⟩ := reached_oneConstant
  have program : Program (σ := Unit) (drop (.var ⟨0, .i32⟩)) _ := Program.effect _ _ _
  obtain ⟨notes, gone₁, -, steps⟩ := program.covered ⟨leftBy oneConstant, ()⟩
    ⟨leftBy droppedConstant, ()⟩ (.of_ok rfl) level [] gone
  have taken : (leftBy droppedConstant).pop "block" [] = .ok (leftBy droppedConstant) := rfl
  have begins : Session.Step ⟨leftBy droppedConstant, [level.add notes], gone₁⟩
      ⟨((leftBy droppedConstant).enter .block ⟨[], []⟩).2, _ :: [level.add notes], gone₁⟩ :=
    .enter .block (.inl rfl) taken
  have there : (⟨0, .i32⟩ : StackVar) ∈ (leftBy oneConstant).stack := List.mem_singleton_self _
  have away : (⟨0, .i32⟩ : StackVar) ∉ (leftBy droppedConstant).stack := nofun
  have lasts := Session.Lasts.refl.step begins nofun
  obtain ⟨-, once, -, refused⟩ := value_consumed_once (σ := Unit) ⟨[], []⟩
  have few : ((leftBy droppedConstant).enter .block ⟨[], []⟩).2.varsMade ≤ 2 ^ 32 := by decide
  have still := once _ _ _ _ _ reached there steps away lasts few
  obtain ⟨fault, failed⟩ := refused _ "i32.eqz" _ .none [.var ⟨0, .i32⟩] 0 _ ()
    ((reached.trans steps).then begins) few rfl rfl rfl (.inl still)
  exact ⟨_, _, _, _, fault, reached, there, steps, away, lasts, rfl, still, failed⟩

end Construction

end Wasm
