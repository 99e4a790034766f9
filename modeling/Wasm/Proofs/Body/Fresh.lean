import Mathlib.Data.List.Nodup
import Wasm.Proofs.Body.Covered

/-!
# Values come and go

The stack of a body is a part of what it was, from the bottom, and on top of
that values made since then. That holds along all steps of a session but those
that undo a construct, which bring back the stack from which it was begun. So
the values on a stack stand in the order in which they were made. In a body of
no more than 2^32 values the ids increase from the bottom to the top, and a
value that is gone comes back only if a construct is undone that was open when
it went.
-/

namespace Wasm

namespace Context

variable {c c' c'' : Context}

/-! ## The stack after each change -/

/-- The values around the current frame, bottom first. -/
def below (c : Context) : List StackVar := (c.outer.flatMap (·.values)).reverse

theorem stack_eq (c : Context) : c.stack = c.below ++ c.frame.values.reverse := by
  rw [stack, frames, List.flatMap_cons, List.reverse_append, below]

theorem stack_push (c : Context) (types : List ValType) :
    (c.push types).2.stack = c.stack ++ freshVars c.varsMade types := by
  rw [stack_eq, stack_eq, List.append_assoc]
  exact congrArg (c.below ++ ·) (by rw [push, List.reverse_append, List.reverse_reverse])

theorem stack_write (c : Context) (draft : Draft) : (c.write draft).stack = c.stack := rfl

theorem stack_prefix_of_pop {name : String} {types : List ValType}
    (taken : c.pop name types = .ok c') : c'.stack <+: c.stack := by
  obtain ⟨-, rfl⟩ := pop_eq_ok.mp taken
  rw [stack_eq, stack_eq]
  exact (List.prefix_append_right_inj c.below).mpr
    (List.reverse_prefix.mpr (List.drop_suffix types.length c.frame.values))

theorem stack_markUnreachable (c : Context) : c.markUnreachable.stack = c.below := by
  rw [stack_eq]
  exact List.append_nil _

/-- A frame ends with nothing left of its values. -/
theorem stack_exit {drafts : List Draft} (left : c.exit = .ok (drafts, c')) :
    c'.stack = c.below := by
  obtain ⟨-, -, parent, outer, around, rfl⟩ := exit_eq_ok.mp left
  rw [below, around]
  rfl

theorem below_starts_stack (c : Context) : c.below <+: c.stack :=
  c.stack_eq ▸ List.prefix_append _ _

/-! ## Numbers of values -/

/-- In the order in which they stand the values were made one after the other, all of
them behind `low` values of the body and before there were more than `high`. Their
ids are their numbers, modulo 2^32. -/
def Numbered (low high : Nat) (vars : List StackVar) : Prop :=
  ∃ numbers : List Nat, vars.map (·.id) = numbers.map UInt32.ofNat ∧
    numbers.Pairwise (· < ·) ∧ ∀ n ∈ numbers, low ≤ n ∧ n < high

namespace Numbered

variable {low low' middle high high' : Nat} {vars others : List StackVar} {v : StackVar}

theorem nil : Numbered low high [] := ⟨[], rfl, List.Pairwise.nil, nofun⟩

theorem widen (h : Numbered low high vars) (lower : low' ≤ low) (higher : high ≤ high') :
    Numbered low' high' vars := by
  obtain ⟨numbers, ids, increasing, between⟩ := h
  exact ⟨numbers, ids, increasing, fun n member =>
    ⟨Nat.le_trans lower (between n member).1, Nat.lt_of_lt_of_le (between n member).2 higher⟩⟩

theorem sublist (h : Numbered low high vars) (fewer : others.Sublist vars) :
    Numbered low high others := by
  obtain ⟨numbers, ids, increasing, between⟩ := h
  have part := fewer.map (·.id)
  rw [ids] at part
  obtain ⟨numbers', fewer', ids'⟩ := List.sublist_map_iff.mp part
  exact ⟨numbers', ids', increasing.sublist fewer', fun n member =>
    between n (fewer'.subset member)⟩

/-- Later values on top of earlier ones. -/
theorem append (h : Numbered low middle vars) (later : Numbered middle high others)
    (between : low ≤ middle ∧ middle ≤ high) : Numbered low high (vars ++ others) := by
  obtain ⟨numbers, ids, increasing, inside⟩ := h
  obtain ⟨numbers', ids', increasing', inside'⟩ := later
  refine ⟨numbers ++ numbers', by rw [List.map_append, List.map_append, ids, ids'], ?_, ?_⟩
  · exact List.pairwise_append.mpr ⟨increasing, increasing', fun n first m second =>
      Nat.lt_of_lt_of_le (inside n first).2 (inside' m second).1⟩
  · intro n member
    rcases List.mem_append.mp member with first | second
    · exact ⟨(inside n first).1, Nat.lt_of_lt_of_le (inside n first).2 between.2⟩
    · exact ⟨Nat.le_trans between.1 (inside' n second).1, (inside' n second).2⟩

/-- As long as the ids have not started over they are the numbers. -/
theorem ids_eq (h : Numbered low high vars) (few : high ≤ 2 ^ 32) :
    (vars.map (·.id.toNat)).Pairwise (· < ·) ∧
      ∀ v ∈ vars, low ≤ v.id.toNat ∧ v.id.toNat < high := by
  obtain ⟨numbers, ids, increasing, between⟩ := h
  have same : vars.map (·.id.toNat) = numbers := by
    have read := congrArg (List.map UInt32.toNat) ids
    rw [List.map_map, List.map_map] at read
    refine read.trans ((List.map_congr_left fun n member => ?_).trans (List.map_id numbers))
    rw [Function.comp_apply, UInt32.toNat_ofNat', id]
    exact Nat.mod_eq_of_lt (Nat.lt_of_lt_of_le (between n member).2 few)
  refine ⟨same ▸ increasing, fun v member => between _ ?_⟩
  rw [← same]
  exact List.mem_map_of_mem member

theorem nodup_id (h : Numbered low high vars) (few : high ≤ 2 ^ 32) :
    (vars.map (·.id)).Nodup := by
  refine List.Nodup.of_map UInt32.toNat ?_
  rw [List.map_map]
  exact (h.ids_eq few).1.imp Nat.ne_of_lt

end Numbered

theorem map_id_freshVars (made : Nat) (types : List ValType) :
    (freshVars made types).map (·.id) = (List.range' made types.length).map UInt32.ofNat := by
  refine List.ext_getElem (by simp [freshVars]) fun i inside _ => ?_
  simp [freshVars]

theorem numbered_freshVars (made : Nat) (types : List ValType) :
    Numbered made (made + types.length) (freshVars made types) :=
  ⟨_, map_id_freshVars made types, List.pairwise_lt_range', fun _ => List.mem_range'_1.mp⟩

/-! ## New values on top of old ones -/

/-- What is left of the values of `c` is what was on the bottom of its stack, and
what is on top of that was made since then. -/
structure Renews (c c' : Context) : Prop where
  varsMade : c.varsMade ≤ c'.varsMade
  stack : ∃ kept new, c'.stack = kept ++ new ∧ kept <+: c.stack ∧
    Numbered c.varsMade c'.varsMade new

theorem Renews.of_kept (varsMade : c.varsMade ≤ c'.varsMade) (stack : c'.stack <+: c.stack) :
    c.Renews c' :=
  ⟨varsMade, c'.stack, [], (List.append_nil _).symm, stack, .nil⟩

theorem Renews.refl (c : Context) : c.Renews c :=
  .of_kept (Nat.le_refl _) List.prefix_rfl

theorem Renews.trans (first : c.Renews c') (second : c'.Renews c'') : c.Renews c'' := by
  obtain ⟨grown, kept, new, stack, old, fresh⟩ := first
  obtain ⟨grown', kept', new', stack', old', fresh'⟩ := second
  refine ⟨Nat.le_trans grown grown', ?_⟩
  rw [stack] at old'
  -- Either some of the old values went as well, or all that went were new ones.
  rcases List.prefix_or_prefix_of_prefix old' (List.prefix_append kept new) with fewer | ⟨part, rfl⟩
  · exact ⟨kept', new', stack', fewer.trans old, fresh'.widen grown (Nat.le_refl _)⟩
  · have left : part <+: new := (List.prefix_append_right_inj kept).mp old'
    refine ⟨kept, part ++ new', by rw [stack', List.append_assoc], old, ?_⟩
    exact (fresh.sublist left.sublist).append fresh' ⟨grown, grown'⟩

/-- A value that is gone stays away, as long as its id is not handed out again. -/
theorem Renews.not_mem (h : c.Renews c') (few : c'.varsMade ≤ 2 ^ 32) {v : StackVar}
    (known : v.id.toNat < c.varsMade) (gone : v ∉ c.stack) : v ∉ c'.stack := by
  obtain ⟨-, kept, new, stack, old, fresh⟩ := h
  rw [stack]
  intro member
  rcases List.mem_append.mp member with before | since
  · exact gone (old.subset before)
  · exact Nat.not_lt.mpr ((fresh.ids_eq few).2 v since).1 known

theorem renews_push (c : Context) (types : List ValType) : c.Renews (c.push types).2 :=
  ⟨Nat.le_add_right _ _, c.stack, _, stack_push c types, List.prefix_rfl,
    numbered_freshVars c.varsMade types⟩

theorem renews_write (c : Context) (draft : Draft) : c.Renews (c.write draft) :=
  .of_kept (Nat.le_refl _) (stack_write c draft ▸ List.prefix_rfl)

theorem renews_pop {name : String} {types : List ValType} (taken : c.pop name types = .ok c') :
    c.Renews c' :=
  .of_kept (extends_pop taken).varsMade (stack_prefix_of_pop taken)

/-- An instruction takes its operands and leaves its results, or nothing at all in its frame. -/
theorem renews_perform {d : InstrDef} {argument : Argument} {vars : List StackVar}
    (done : c.perform d argument = .ok (vars, c')) : c.Renews c' := by
  obtain ⟨effect, popped, -, taken, -, rfl⟩ := perform_eq_ok.mp done
  have written := ((renews_pop taken).trans (renews_push popped effect.results)).trans
    (renews_write _ (draftOf d effect))
  split
  · exact written.trans (.of_kept (Nat.le_refl _) (stack_markUnreachable _ ▸ below_starts_stack _))
  · exact written

theorem renews_enter (c : Context) (kind : FrameKind) (type : FuncType) :
    c.Renews (c.enter kind type).2 := by
  obtain ⟨grown, stack⟩ := renews_push { c with
    frame := { label := c.nextLabel, kind, startTypes := type.params, endTypes := type.results }
    outer := c.frame :: c.outer
    labelsMade := c.labelsMade + 1 } type.params
  exact ⟨grown, stack⟩

theorem renews_exit {drafts : List Draft} (left : c.exit = .ok (drafts, c')) : c.Renews c' :=
  .of_kept (grows_exit left).varsMade (stack_exit left ▸ below_starts_stack c)

theorem renews_switchToElse {drafts : List Draft} (done : c.switchToElse = .ok (drafts, c')) :
    c.Renews c' := by
  obtain ⟨-, -, rfl⟩ := switchToElse_eq_ok.mp done
  have cleared : c.Renews { c with frame := { c.frame with
      kind := .elseArm, unreachable := false, values := [], written := [] } } := by
    refine .of_kept (Nat.le_refl _) ?_
    rw [stack_eq]
    exact (List.append_nil _).symm ▸ below_starts_stack c
  exact cleared.trans (renews_push _ c.frame.startTypes)

theorem renews_conclude {d : InstrDef} {argument : Argument} {vars : List StackVar}
    (done : c.conclude d argument = .ok (vars, c')) : c.Renews c' := by
  obtain ⟨effect, -, -, rfl⟩ := conclude_eq_ok.mp done
  exact (renews_push c effect.results).trans (renews_write _ _)

/-- A failure brings back the stack of the state before, but no ids. -/
theorem Renews.rollback {before : Context} (h : c.Renews before)
    (grown : before.varsMade ≤ c'.varsMade) : c.Renews (c'.rollbackTo before) := by
  obtain ⟨varsMade, kept, new, stack, old, fresh⟩ := h
  exact ⟨Nat.le_trans varsMade grown, kept, new, stack, old, fresh.widen (Nat.le_refl _) grown⟩

end Context

namespace Session

open Context (Renews)

/-! ## Steps that undo nothing from before -/

/-- The step undoes the innermost construct. -/
inductive Undoing : Session → Session → Prop
  | abort {c : Context} {level parent : Level} {rest : List Level} {gone : List Label} :
      Undoing ⟨c, level :: parent :: rest, gone⟩
        ⟨c.rollbackTo level.before, parent :: rest, level.label :: gone⟩

/-- Every other step leaves a part of the stack and puts new values on it. -/
theorem Step.renews {s s' : Session} (step : Step s s') :
    s.context.Renews s'.context ∨ Undoing s s' := by
  cases step with
  | quiet undone same =>
      refine .inl (.of_kept undone.varsMade ?_)
      rw [Context.stack, Context.frames, undone.frame, undone.outer]
      exact List.prefix_rfl
  | instr found plain done => exact .inl (Context.renews_perform done)
  | enter stage begins taken =>
      exact .inl ((Context.renews_pop taken).trans (Context.renews_enter _ _ _))
  | switch first done => exact .inl (Context.renews_switchToElse done)
  | close found left done =>
      exact .inl ((Context.renews_exit left).trans (Context.renews_conclude done))
  | abort => exact .inr .abort

/-- No step gives an id back. -/
theorem Steps.varsMade {s s' : Session} (steps : Steps s s') :
    s.context.varsMade ≤ s'.context.varsMade := by
  induction steps with
  | refl => exact Nat.le_refl _
  | tail _ step ih =>
      refine Nat.le_trans ih ?_
      rcases step.renews with renewed | undoing
      · exact renewed.varsMade
      · cases undoing
        exact Nat.le_refl _

/-- Steps from `s` that undo no construct which is open in `s`. The outermost
`open` ones of the constructs are still the same; others that were open have
ended. -/
inductive Lasts (s : Session) : Nat → Session → Prop
  | refl : Lasts s s.levels.length s
  | step {count : Nat} {s' s'' : Session} (before : Lasts s count s') (step : Step s' s'')
      (spares : Undoing s' s'' → count < s'.levels.length) :
      Lasts s (min count s''.levels.length) s''

/-- The stack of `s` is on the bottom of that of `s'`, as far as it is left, and
so it is in all states that constructs begun since then would go back to. -/
structure Since (s : Session) (count : Nat) (s' : Session) : Prop where
  renews : s.context.Renews s'.context
  back : ∃ opened kept, s'.levels.map (·.before) = opened ++ kept ∧ kept.length = count ∧
    ∀ before ∈ opened, s.context.Renews before ∧ before.varsMade ≤ s'.context.varsMade

namespace Since

variable {s s' : Session} {count : Nat} {c : Context} {levels rest : List Level}
  {level parent : Level} {gone : List Label}

theorem count_le (h : Since s count s') : count ≤ s'.levels.length := by
  obtain ⟨opened, kept, befores, rfl, -⟩ := h.back
  have total := congrArg List.length befores
  rw [List.length_map, List.length_append] at total
  omega

/-- The same constructs are open. -/
theorem stay (h : Since s count s') (renewed : s'.context.Renews c)
    (same : levels.map (·.before) = s'.levels.map (·.before)) :
    Since s (min count levels.length) ⟨c, levels, gone⟩ := by
  have length := congrArg List.length same
  rw [List.length_map, List.length_map] at length
  rw [length, Nat.min_eq_left h.count_le]
  obtain ⟨opened, kept, befores, counted, back⟩ := h.back
  refine ⟨h.renews.trans renewed, opened, kept, same.trans befores, counted, ?_⟩
  intro before member
  exact ⟨(back before member).1, Nat.le_trans (back before member).2 renewed.varsMade⟩

/-- One more construct is begun. -/
theorem enter (h : Since s count s') (renewed : s'.context.Renews c)
    (before : level.before = s'.context) :
    Since s (min count (level :: s'.levels).length) ⟨c, level :: s'.levels, gone⟩ := by
  rw [List.length_cons, Nat.min_eq_left (Nat.le_succ_of_le h.count_le)]
  obtain ⟨opened, kept, befores, counted, back⟩ := h.back
  refine ⟨h.renews.trans renewed, s'.context :: opened, kept, ?_, counted, ?_⟩
  · rw [List.map_cons, befores, before]
    rfl
  · refine List.forall_mem_cons.mpr ⟨⟨h.renews, renewed.varsMade⟩, fun before member => ?_⟩
    exact ⟨(back before member).1, Nat.le_trans (back before member).2 renewed.varsMade⟩

/-- The innermost construct has ended. -/
theorem close (h : Since s count ⟨c, level :: parent :: rest, gone⟩) {c' : Context}
    {parent' : Level} {gone' : List Label} (renewed : c.Renews c')
    (same : parent'.before = parent.before) :
    Since s (min count (parent' :: rest).length) ⟨c', parent' :: rest, gone'⟩ := by
  have total := h.count_le
  obtain ⟨opened, kept, befores, counted, back⟩ := h.back
  have renews := h.renews.trans renewed
  cases opened with
  | nil =>
      -- It was one of those that were open in `s`.
      refine ⟨renews, [], (parent' :: rest).map (·.before), rfl, ?_, List.forall_mem_nil _⟩
      have length := congrArg List.length befores
      simp only [List.map_cons, List.length_cons, List.length_map, List.nil_append] at length ⊢
      omega
  | cons first opened =>
      obtain ⟨-, behind⟩ := List.cons.inj befores
      refine ⟨renews, opened, kept, ?_, ?_, fun before member => ?_⟩
      · rw [List.map_cons, same]
        exact behind
      · have length := congrArg List.length behind
        simp only [List.map_cons, List.length_cons, List.length_map, List.append_eq,
          List.length_append] at length ⊢
        omega
      · have known := back before (List.mem_cons_of_mem _ member)
        exact ⟨known.1, Nat.le_trans known.2 renewed.varsMade⟩

/-- The innermost construct is undone. -/
theorem abort (h : Since s count ⟨c, level :: parent :: rest, gone⟩) {gone' : List Label}
    (spares : count < (level :: parent :: rest).length) :
    Since s (min count (parent :: rest).length)
      ⟨c.rollbackTo level.before, parent :: rest, gone'⟩ := by
  rw [List.length_cons] at spares
  rw [Nat.min_eq_left (Nat.lt_succ_iff.mp spares)]
  obtain ⟨opened, kept, befores, counted, back⟩ := h.back
  cases opened with
  | nil =>
      have length := congrArg List.length befores
      simp only [List.map_cons, List.length_cons, List.length_map, List.nil_append] at length spares
      omega
  | cons first opened =>
      obtain ⟨rfl, behind⟩ := List.cons.inj befores
      obtain ⟨⟨renewed, grown⟩, others⟩ := List.forall_mem_cons.mp back
      exact ⟨renewed.rollback grown, opened, kept, behind, counted, others⟩

end Since

theorem Lasts.since {s s' : Session} {count : Nat} (h : Lasts s count s') : Since s count s' := by
  induction h with
  | refl => exact ⟨Renews.refl _, [], _, rfl, List.length_map _, List.forall_mem_nil _⟩
  | step _ step spares ih =>
      rcases step.renews with renewed | undoing
      · cases step with
        | quiet | instr | switch => exact ih.stay renewed rfl
        | enter => exact ih.enter renewed rfl
        | close => exact ih.close renewed rfl
        | abort => exact ih.abort (spares .abort)
      · cases undoing
        exact ih.abort (spares .abort)

/-- The function itself is never undone. -/
theorem Steps.lasts {s s' : Session} (alone : s.levels.length = 1) (steps : Steps s s') :
    Lasts s 1 s' := by
  induction steps with
  | refl => exact alone ▸ .refl
  | tail _ step ih =>
      have open' := ih.since.count_le
      have next := ih.step step fun undoing => by
        cases undoing
        simp only [List.length_cons]
        omega
      rwa [Nat.min_eq_left] at next
      cases step <;> simp only [List.length_cons] at open' ⊢ <;> omega

end Session

/-! ## Runs of programs -/

namespace Construction

variable {σ α : Type}

/-- Wherever a run comes through, what is left of the stack is at its bottom. -/
theorem Passes.renews {path : List Opened} {c c' : Context} (h : Passes path c c') :
    c.Renews c' := by
  obtain ⟨levels, gone, -, steps⟩ := h ⟨⟨0⟩, .function, ⟨[], []⟩, [], c⟩ [] []
  exact (Session.Steps.lasts rfl steps).since.renews

theorem Covered.renews {calls : List Call} {c c' : Context} (h : Covered calls c c') :
    c.Renews c' :=
  (h.passes (Passes.refl c')).renews

end Construction

/-- The values stand in the order in which they were made. -/
def Context.Ordered (c : Context) : Prop := Context.Numbered 0 c.varsMade c.stack

namespace Context

variable {c c' : Context}

theorem Renews.ordered (h : c.Renews c') (ordered : c.Ordered) : c'.Ordered := by
  obtain ⟨grown, kept, new, stack, old, fresh⟩ := h
  rw [Ordered, stack]
  exact (Numbered.sublist ordered old.sublist).append fresh ⟨Nat.zero_le _, grown⟩

namespace Ordered

/-- Ids increase from the bottom of the stack to its top. -/
theorem increasing (h : c.Ordered) (few : c.varsMade ≤ 2 ^ 32) :
    (c.stack.map (·.id)).Pairwise (· < ·) :=
  List.pairwise_map.mpr
    ((List.pairwise_map.mp (Numbered.ids_eq h few).1).imp UInt32.lt_iff_toNat_lt.mpr)

theorem bounded (h : c.Ordered) (few : c.varsMade ≤ 2 ^ 32) {v : StackVar} (there : v ∈ c.stack) :
    v.id.toNat < c.varsMade :=
  ((Numbered.ids_eq h few).2 v there).2

theorem nodup (h : c.Ordered) (few : c.varsMade ≤ 2 ^ 32) : c.stack.Nodup :=
  (Numbered.nodup_id h few).of_map _

/-- A value stands in one place only. -/
theorem place_unique (h : c.Ordered) (few : c.varsMade ≤ 2 ^ 32) {i j : Nat} {v : StackVar}
    (first : c.stack[i]? = some v) (second : c.stack[j]? = some v) : i = j :=
  (List.getElem?_inj (List.getElem?_eq_some_iff.mp first).1 (h.nodup few)).mp
    (first.trans second.symm)

end Ordered

end Context

/-- A function starts with nothing on its stack. -/
theorem Session.Reached.ordered {type : FuncType} {s : Session} (h : Session.Reached type s) :
    s.context.Ordered :=
  (Session.Steps.lasts rfl h).since.renews.ordered Context.Numbered.nil

end Wasm
