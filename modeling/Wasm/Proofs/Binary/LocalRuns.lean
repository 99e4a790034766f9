import Mathlib.Algebra.Order.BigOperators.Group.List
import Mathlib.Data.List.Chain
import Mathlib.Data.List.Induction
import Wasm.Proofs.Binary.Image

/-!
# Runs of locals

A body declares its locals in runs of equal types. There are many lists of runs
for the same locals, with empty runs and with runs that are split, and the
reader takes all of them. The writer goes through the locals once and looks at
the last run only. What it makes is the one list without empty runs in which
the type changes from run to run. No shorter list declares the same locals, and
in which runs these were read before does not matter.
-/

namespace Wasm

/-- Runs with one local more, which the last run takes if it is of its type. -/
def extendRuns (runs : List (Nat × ValType)) (type : ValType) : List (Nat × ValType) :=
  match runs.getLast? with
  | some (n, last) =>
    if last = type then runs.dropLast ++ [(n + 1, last)] else runs ++ [(1, type)]
  | none => [(1, type)]

/-- A run in front of others. It joins the first of them if both are of one type. -/
def joinRun (run : Nat × ValType) : List (Nat × ValType) → List (Nat × ValType)
  | [] => [run]
  | (m, other) :: runs =>
    if run.2 = other then (run.1 + m, other) :: runs else run :: (m, other) :: runs

/-- Runs with neighbours of one type put together. -/
def mergeRuns (runs : List (Nat × ValType)) : List (Nat × ValType) := runs.foldr joinRun []

/-- No run is empty, and the type changes from each run to the next one. -/
structure CanonicalRuns (runs : List (Nat × ValType)) : Prop where
  filled : ∀ run ∈ runs, 1 ≤ run.1
  changes : runs.IsChain (·.2 ≠ ·.2)

/-- The declarations of a function body can be read as these runs. -/
def Decoder.AcceptsRuns (runs : List (Nat × ValType)) : Prop :=
  ∃ c c' : Cursor, (Codec.count "local declarations" Bound.locals >>= fun n =>
    Decoder.runs n 0) c = .ok runs c'

/-! ## One run in front -/

section Joining

variable {run : Nat × ValType} {runs : List (Nat × ValType)}

theorem joinRun_cons (run next : Nat × ValType) (runs : List (Nat × ValType)) :
    joinRun run (next :: runs) =
      if run.2 = next.2 then (run.1 + next.1, next.2) :: runs else run :: next :: runs := rfl

theorem mergeRuns_cons (run : Nat × ValType) (runs : List (Nat × ValType)) :
    mergeRuns (run :: runs) = joinRun run (mergeRuns runs) := rfl

/-- The runs are made from the last local to the first one. -/
theorem localRuns_cons (type : ValType) (locals : List ValType) :
    localRuns (type :: locals) = joinRun (1, type) (localRuns locals) := by
  rw [localRuns]
  cases localRuns locals with
  | nil => rfl
  | cons next runs =>
      rw [joinRun_cons, Nat.add_comm 1]

/-- Two runs of one type in front are one run. -/
theorem joinRun_joinRun (n m : Nat) (type : ValType) (runs : List (Nat × ValType)) :
    joinRun (n, type) (joinRun (m, type) runs) = joinRun (n + m, type) runs := by
  cases runs with
  | nil => rw [joinRun, joinRun_cons, if_pos rfl, joinRun]
  | cons next runs =>
      rw [joinRun_cons (m, type), joinRun_cons (n + m, type)]
      split
      · rename_i same
        rw [joinRun_cons, if_pos same, Nat.add_assoc]
      · rw [joinRun_cons, if_pos rfl]

theorem length_joinRun_le (run : Nat × ValType) (runs : List (Nat × ValType)) :
    (joinRun run runs).length ≤ runs.length + 1 := by
  cases runs with
  | nil => exact Nat.le_refl 1
  | cons next runs =>
      rw [joinRun_cons]
      split <;> simp only [List.length_cons] <;> omega

/-- Unless two runs became one, the run stands in front. -/
theorem joinRun_eq_cons (whole : runs.length < (joinRun run runs).length) :
    joinRun run runs = run :: runs := by
  cases runs with
  | nil => rfl
  | cons next runs =>
      rw [joinRun_cons] at whole ⊢
      split
      · rename_i same
        rw [if_pos same] at whole
        exact absurd whole (Nat.lt_irrefl _)
      · rfl

theorem CanonicalRuns.joinRun (canonical : CanonicalRuns runs) (filled : 1 ≤ run.1) :
    CanonicalRuns (joinRun run runs) := by
  cases runs with
  | nil => exact ⟨List.forall_mem_singleton.mpr filled, List.isChain_singleton _⟩
  | cons next runs =>
      obtain ⟨first, others⟩ := List.forall_mem_cons.mp canonical.filled
      rw [joinRun_cons]
      split
      · -- The joined run is of the type of the one that it replaces.
        refine ⟨List.forall_mem_cons.mpr ⟨Nat.le_add_right_of_le filled, others⟩, ?_⟩
        have changes := canonical.changes
        cases runs with
        | nil => exact List.isChain_singleton _
        | cons _ _ =>
            rw [List.isChain_cons_cons] at changes ⊢
            exact changes
      · rename_i different
        refine ⟨List.forall_mem_cons.mpr ⟨filled, canonical.filled⟩, ?_⟩
        exact List.isChain_cons_cons.mpr ⟨different, canonical.changes⟩

end Joining

/-! ## The runs that are written -/

theorem canonical_localRuns (locals : List ValType) : CanonicalRuns (localRuns locals) := by
  induction locals with
  | nil => exact ⟨List.forall_mem_nil _, List.isChain_nil⟩
  | cons type rest ih =>
      rw [localRuns_cons]
      exact ih.joinRun (Nat.le_refl 1)

/-- No run is longer than the list of locals. -/
theorem le_length_of_mem_localRuns {locals : List ValType} {run : Nat × ValType}
    (member : run ∈ localRuns locals) : run.1 ≤ locals.length := by
  have total : runTotal (localRuns locals) = locals.length := by
    rw [← length_expandRuns, expandRuns_localRuns]
  rw [← total]
  exact List.le_sum_of_mem (List.mem_map_of_mem member)

/-! ### From the first local to the last one -/

theorem extendRuns_cons_cons (run next : Nat × ValType) (runs : List (Nat × ValType))
    (type : ValType) :
    extendRuns (run :: next :: runs) type = run :: extendRuns (next :: runs) type := by
  rw [extendRuns, extendRuns, List.getLast?_cons_cons, List.dropLast_cons_cons]
  split
  · split <;> rfl
  · rename_i last
    cases List.getLast?_eq_none_iff.mp last

/-- Both ends of a list of runs can be changed in either order. -/
theorem joinRun_extendRuns (run : Nat × ValType) (runs : List (Nat × ValType)) (type : ValType) :
    joinRun run (extendRuns runs type) = extendRuns (joinRun run runs) type := by
  match runs with
  | [] =>
      show (if run.2 = type then [(run.1 + 1, type)] else [run, (1, type)]) =
        if run.2 = type then [(run.1 + 1, run.2)] else [run, (1, type)]
      split
      · rename_i same
        rw [same]
      · rfl
  | [next] =>
      -- The only run takes what comes in front of it and what comes behind it.
      show joinRun run (if next.2 = type then [(next.1 + 1, next.2)] else [next, (1, type)]) =
        extendRuns (if run.2 = next.2 then [(run.1 + next.1, next.2)] else [run, next]) type
      split <;> rename_i back <;> split <;> rename_i front
      · rw [joinRun_cons, if_pos front, extendRuns, List.getLast?_singleton]
        simp only [back, if_pos, List.dropLast_singleton, List.nil_append, Nat.add_assoc]
      · rw [joinRun_cons, if_neg front]
        simp [extendRuns, back]
      · rw [joinRun_cons, if_pos front]
        simp [extendRuns, back]
      · rw [joinRun_cons, if_neg front]
        simp [extendRuns, back]
  | next :: third :: runs =>
      rw [extendRuns_cons_cons, joinRun_cons, joinRun_cons]
      split <;> simp only [extendRuns_cons_cons]

/-- One local more. -/
theorem localRuns_concat (locals : List ValType) (type : ValType) :
    localRuns (locals ++ [type]) = extendRuns (localRuns locals) type := by
  induction locals with
  | nil => rfl
  | cons first rest ih =>
      rw [List.cons_append, localRuns_cons, localRuns_cons, ih, joinRun_extendRuns]

/-- The writer goes through the locals once and looks at the last run only. -/
theorem localRuns_eq_foldl (locals : List ValType) :
    localRuns locals = locals.foldl extendRuns [] := by
  induction locals using List.reverseRecOn with
  | nil => rfl
  | append_singleton rest type ih => rw [localRuns_concat, List.foldl_concat, ih]

/-! ## Other runs for the same locals -/

theorem localRuns_replicate_append (n : Nat) (type : ValType) (locals : List ValType) :
    localRuns (List.replicate (n + 1) type ++ locals) =
      joinRun (n + 1, type) (localRuns locals) := by
  induction n with
  | zero => exact localRuns_cons type locals
  | succ n ih =>
      rw [List.replicate_succ, List.cons_append, localRuns_cons, ih, joinRun_joinRun,
        Nat.add_comm 1]

/-- Whatever runs the locals were declared in, they are written in the merged
runs without the empty ones. -/
theorem localRuns_expandRuns (runs : List (Nat × ValType)) :
    localRuns (expandRuns runs) = mergeRuns (runs.filter (1 ≤ ·.1)) := by
  induction runs with
  | nil => rfl
  | cons run rest ih =>
      obtain ⟨n, type⟩ := run
      rw [expandRuns_cons]
      cases n with
      | zero => exact ih
      | succ n =>
          rw [localRuns_replicate_append, ih, List.filter_cons_of_pos (by simp), mergeRuns_cons]

theorem length_mergeRuns_le (runs : List (Nat × ValType)) :
    (mergeRuns runs).length ≤ runs.length := by
  induction runs with
  | nil => exact Nat.le_refl 0
  | cons run rest ih =>
      rw [mergeRuns_cons]
      exact (length_joinRun_le _ _).trans (Nat.succ_le_succ ih)

/-- If merging makes the list no shorter, then there was nothing to merge. -/
theorem mergeRuns_eq_self {runs : List (Nat × ValType)}
    (same : runs.length ≤ (mergeRuns runs).length) : mergeRuns runs = runs := by
  induction runs with
  | nil => rfl
  | cons run rest ih =>
      rw [mergeRuns_cons, List.length_cons] at same
      have bound := length_joinRun_le run (mergeRuns rest)
      have kept : mergeRuns rest = rest := ih (by omega)
      rw [kept] at same
      rw [mergeRuns_cons, kept, joinRun_eq_cons same]

/-- No list of runs for the same locals is shorter, and no other is as short. -/
theorem shortest_localRuns (runs : List (Nat × ValType)) :
    (localRuns (expandRuns runs)).length ≤ runs.length ∧
      (runs.length ≤ (localRuns (expandRuns runs)).length →
        runs = localRuns (expandRuns runs)) := by
  have merged := length_mergeRuns_le (runs.filter (1 ≤ ·.1))
  have filtered := List.length_filter_le (fun run : Nat × ValType => 1 ≤ run.1) runs
  rw [localRuns_expandRuns]
  refine ⟨merged.trans filtered, fun same => ?_⟩
  -- Nothing was empty, and nothing was merged.
  have whole : runs.filter (1 ≤ ·.1) = runs :=
    List.filter_eq_self.mpr (List.length_filter_eq_length_iff.mp (by omega))
  rw [whole] at same ⊢
  exact (mergeRuns_eq_self same).symm

/-! ## The runs that are read -/

theorem Decoder.yields_length_runs (n total : Nat) :
    Yields (runs n total) fun items => items.length = n := by
  induction n generalizing total with
  | zero => exact Yields.pure rfl
  | succ n ih =>
      refine Yields.after fun start => Yields.after fun length => Yields.after fun type => ?_
      refine Yields.ite (fun _ => Yields.failAt _ _) fun _ => ?_
      exact (ih _).bind fun rest counted => Yields.pure (congrArg (· + 1) counted)

/-- Any runs are read that are not too many and declare not too many locals. -/
theorem Decoder.acceptsRuns_iff (runs : List (Nat × ValType)) :
    AcceptsRuns runs ↔
      runs.length ≤ Bound.locals.toNat ∧ runTotal runs ≤ Bound.locals.toNat := by
  constructor
  · rintro ⟨c, c', read⟩
    have few := (Codec.yields_count "local declarations" Bound.locals).bind
      (fun n bounded => (yields_length_runs n 0).mono fun items counted =>
        (show items.length ≤ Bound.locals.toNat from counted ▸ bounded)) c runs c' read
    have total := Yields.after (fun n => yields_runs n (Nat.zero_le _)) c runs c' read
    rw [Nat.zero_add] at total
    exact ⟨few, total⟩
  · rintro ⟨few, total⟩
    exact ⟨_, _, reads_localDeclarations few total 0 [] none⟩

/-- Locals are written in the runs that one pass over them makes. These are canonical, short
enough to be written in 32 bits, and declare the locals again; no other list of runs that does
is as short. The reader takes any runs within the bounds, empty ones and split ones included,
and whatever runs locals come from, they are written in the merged ones. -/
theorem localRuns_canonical_inverse :
    (∀ locals : List ValType, locals.length < 2 ^ 32 →
      localRuns locals = locals.foldl extendRuns [] ∧
      CanonicalRuns (localRuns locals) ∧
      (∀ run ∈ localRuns locals, (UInt32.ofNat run.1).toNat = run.1) ∧
      expandRuns (localRuns locals) = locals ∧
      ∀ runs, expandRuns runs = locals → (localRuns locals).length ≤ runs.length ∧
        (runs.length ≤ (localRuns locals).length → runs = localRuns locals)) ∧
    ∀ runs : List (Nat × ValType),
      (Decoder.AcceptsRuns runs ↔
        runs.length ≤ Bound.locals.toNat ∧ runTotal runs ≤ Bound.locals.toNat) ∧
      localRuns (expandRuns runs) = mergeRuns (runs.filter (1 ≤ ·.1)) := by
  refine ⟨fun locals short => ?_, fun runs => ?_⟩
  · refine ⟨localRuns_eq_foldl locals, canonical_localRuns locals, fun run member => ?_,
      expandRuns_localRuns locals, ?_⟩
    · have bounded := le_length_of_mem_localRuns member
      exact UInt32.toNat_ofNat_of_lt' (Nat.lt_of_le_of_lt bounded short)
    · rintro runs rfl
      exact shortest_localRuns runs
  · exact ⟨Decoder.acceptsRuns_iff runs, localRuns_expandRuns runs⟩

/-- Six runs for six locals. Two are empty, one of them between two runs of its neighbours'
type, and of the four runs with locals two are one run that was split. -/
theorem localRuns_canonical_inverse_split :
    let runs : List (Nat × ValType) :=
      [(2, .i32), (0, .i64), (1, .i32), (2, .i64), (0, .f32), (1, .i32)]
    Decoder.AcceptsRuns runs ∧ (expandRuns runs).length < 2 ^ 32 ∧
      localRuns (expandRuns runs) = [(3, .i32), (2, .i64), (1, .i32)] ∧
      CanonicalRuns (localRuns (expandRuns runs)) := by
  intro runs
  obtain ⟨ofLocals, ofRuns⟩ := localRuns_canonical_inverse
  have short : (expandRuns runs).length < 2 ^ 32 := by decide
  exact ⟨(ofRuns runs).1.mpr (by decide), short, (ofRuns runs).2, (ofLocals _ short).2.1⟩

end Wasm
