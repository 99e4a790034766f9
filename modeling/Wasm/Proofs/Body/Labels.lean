import Wasm.Proofs.Body.Accounted

/-!
# Labels keep their meaning

In every session the label of an open construct resolves to the number of
constructs that were begun inside it and to what a branch to it takes, labels
of all other constructs are refused, and a depth is taken if there are as many
constructs. What is linked from the bodies has depths that count out to the
construct whose closures were given the label.

That is so while there are no more than 2^32 labels, for labels of the same
body, and where every branch is linked in the construct in which it was
written.
-/

namespace Wasm

namespace Session

/-! ## The meaning of labels -/

/-- Labels and depths mean what they meant when the labels were handed out. -/
structure Labelled (s : Session) : Prop where
  /-- An open construct is as many frames away as constructs were begun inside it
  and are open. -/
  here : ∀ i level, s.levels[i]? = some level →
    s.context.resolveTarget (.label level.label) = .ok (i, level.opened.labelTypes)
  /-- The label of a construct that ended or was undone. -/
  gone : ∀ l ∈ s.gone, s.context.resolveTarget (.label l) = .error (.unknownLabel (.label l))
  /-- A label that was handed out has gone or is that of an open construct. -/
  given : ∀ l, l.id.toNat < s.context.labelsMade ↔ l ∈ s.gone ∨ l ∈ Level.scope s.levels
  unknown : ∀ l, s.context.labelsMade ≤ l.id.toNat →
    s.context.resolveTarget (.label l) = .error (.unknownLabel (.label l))
  counted : ∀ (d : UInt32) level, s.levels[d.toNat]? = some level →
    s.context.resolveTarget (.depth d) = .ok (d.toNat, level.opened.labelTypes)
  depth : ∀ d : UInt32,
    (∃ answer, s.context.resolveTarget (.depth d) = .ok answer) ↔ d.toNat ≤ s.context.depth
  beyond : ∀ d : UInt32, s.context.depth < d.toNat →
    s.context.resolveTarget (.depth d) = .error (.unknownLabel (.depth d))
  /-- No two constructs have the same label, neither open ones nor such as ended
  and were kept. -/
  distinct : (s.levels.flatMap (·.note.labels)).Nodup
  /-- What is written in a frame is linked to code whose branches count out to
  the constructs of their labels. -/
  code : ∀ i level frame, s.levels[i]? = some level → s.context.frames[i]? = some frame →
    ∀ indices code, Draft.linkAll indices frame.body = .ok code →
      Note.AllStand ((Level.scope s.levels).drop i) level.notes code

/-- Every level has a frame. -/
theorem Tally.frame {frames : List Frame} {level : Level} {levels : List Level} {i : Nat}
    (h : Tally frames levels) (there : levels[i]? = some level) :
    ∃ frame, frames[i]? = some frame := by
  obtain ⟨inside, -⟩ := List.getElem?_eq_some_iff.mp there
  rw [← h.length_eq] at inside
  exact ⟨_, List.getElem?_eq_getElem inside⟩

theorem Sound.labelled {s : Session} (h : s.Sound) : s.Labelled := by
  obtain ⟨tally, accounted⟩ := h
  have scope := tally.scope_eq
  have distinct : (s.context.frames.map (·.label)).Nodup := by
    rw [scope]
    exact accounted.distinct.sublist (scope_sublist s.levels)
  have closed : ∀ l, l ∉ Level.scope s.levels →
      s.context.resolveTarget (.label l) = .error (.unknownLabel (.label l)) := by
    intro l closed
    rw [← scope] at closed
    exact Context.resolveTarget_unknown closed
  constructor
  case here =>
    intro i level there
    obtain ⟨frame, found⟩ := tally.frame there
    have fits := tally.fits there found
    rw [← fits.label, ← fits.types]
    exact Context.resolveTarget_label distinct found
  case gone =>
    intro l gone
    refine closed l fun there => ?_
    obtain ⟨level, member, rfl⟩ := List.mem_map.mp there
    exact accounted.parted level member gone
  case given => exact accounted.given
  case unknown =>
    intro l fresh
    refine closed l fun there => ?_
    exact Nat.not_lt.mpr fresh ((accounted.given l).mpr (.inr there))
  case counted =>
    intro d level there
    obtain ⟨frame, found⟩ := tally.frame there
    rw [← (tally.fits there found).types]
    exact Context.resolveTarget_depth found
  case depth =>
    intro d
    constructor
    · rintro ⟨answer, resolved⟩
      refine Nat.not_lt.mp fun beyond => ?_
      rw [Context.resolveTarget_beyond beyond] at resolved
      cases resolved
    · intro inside
      exact ⟨_, Context.resolveTarget_depth (List.getElem?_eq_getElem (Nat.lt_succ_of_le inside))⟩
  case beyond => exact fun d => Context.resolveTarget_beyond
  case distinct => exact accounted.distinct
  case code =>
    intro i level frame there found indices code linked
    have fits := tally.fits there found
    exact Note.allStand_of_linkAll _ _ _ _ _ fits.notes linked

/-- The function alone is open where nothing that a run began is. -/
theorem exists_function_level {type : FuncType} {calls : List Call} {c : Context}
    (covered : Construction.Covered calls (Context.forFunction type) c) :
    ∃ notes gone, Note.calls notes = calls ∧ Reached type
      ⟨c, [⟨⟨0⟩, .function, type, notes, Context.forFunction type⟩], gone⟩ := by
  obtain ⟨notes, gone, made, steps⟩ :=
    covered ⟨⟨0⟩, .function, type, [], Context.forFunction type⟩ [] []
  exact ⟨notes, gone, made, steps⟩

/-- Labels keep their meaning as long as they have not started over. In every
session they resolve as they should; each point that a run of a program comes
through is that of a session in which the constructs that it has begun are
open; and a body that a program built has notes of the calls that were made and
kept, with a label for each construct, such that whatever numbers the
references get the branches of the linked code count out to the constructs of
their labels. -/
theorem label_selects_construct (type : FuncType) :
    (∀ s, Reached type s → s.context.labelsMade ≤ 2 ^ 32 → s.Labelled) ∧
    (∀ (σ α : Type) (act : Construction σ α) (client : σ) (path : List Opened) (w : Workspace σ),
      Construction.Visits act ⟨Context.forFunction type, client⟩ path w →
      ∃ s, Reached type s ∧ s.context = w.context ∧
        s.levels.map Level.opened = path ++ [Opened.function type]) ∧
    ∀ (σ : Type) (build : Construction σ Unit) made (client : σ) after body,
      Construction.Program build made →
      build ⟨Context.forFunction type, client⟩ = .ok () after →
      after.context.labelsMade ≤ 2 ^ 32 → after.context.finish = .ok body →
      ∃ s notes, Reached type s ∧ s.context = after.context ∧
        s.levels.map Level.opened = [Opened.function type] ∧
        Note.calls notes = made ⟨Context.forFunction type, client⟩ ∧
        (⟨0⟩ :: Note.allLabels notes).Nodup ∧
        ∀ indices code, Draft.linkAll indices body.code = .ok code →
          Note.AllStand [⟨0⟩] notes code := by
  refine ⟨fun s reached few => (reached.sound few).labelled, ?_, ?_⟩
  · intro σ α act client path w visits
    obtain ⟨levels, gone, same, steps⟩ :=
      visits.passes ⟨⟨0⟩, .function, type, [], Context.forFunction type⟩ [] []
    rw [List.append_nil] at steps
    exact ⟨⟨w.context, levels, gone⟩, steps, rfl, same⟩
  · intro σ build made client after body program ran few finished
    obtain ⟨_, -, built⟩ := Except.bind_eq_ok.mp finished
    cases built
    obtain ⟨notes, gone, same, reached⟩ :=
      exists_function_level (program.covered _ _ (.of_ok ran))
    have labelled := (reached.sound few).labelled
    refine ⟨_, notes, reached, rfl, rfl, same, ?_, ?_⟩
    · have distinct := labelled.distinct
      rw [List.flatMap_singleton] at distinct
      exact distinct
    · exact labelled.code 0 _ _ rfl rfl

/-! ## An example -/

open Construction

/-- A loop that fails, and whose failure is caught. -/
def failingLoop : Construction Unit Unit :=
  tryCatch (do let _ ← loop ⟨[], []⟩ fun _ => throw .immutableGlobal) fun _ => pure ()

/-- A loop from which a branch table leads back to its start and out of the
construct of the label. -/
def leavingLoop (outer : Label) : Construction Unit Unit := do
  let _ ← loop ⟨[], []⟩ fun inner => do
    let _ ← instr "br_table" (.branchTable [.label inner] (.label outer)) [.i32 0]

/-- In the block the second loop has the label behind that of the first. -/
def loopsInBlock : Construction Unit Unit := do
  let _ ← block ⟨[], []⟩ fun outer => do
    failingLoop
    leavingLoop outer

def loopDraft : Draft :=
  ⟨⟨"loop", InstrSet.byte 0x03, .block, none, .block, .block⟩, [], [], [], .block ⟨[], []⟩ [
    ⟨InstrSet.constant "i32.const" (InstrSet.byte 0x41) .i32 .i32, [], [], [.i32],
      .literal (.i32 0)⟩,
    ⟨⟨"br_table", InstrSet.byte 0x0E, .brTable, none, .brTable, .literal⟩, [], [.i32], [],
      .literal (.brTable [0] 1)⟩]⟩

def blockOf (body : List Draft) : Draft :=
  ⟨⟨"block", InstrSet.byte 0x02, .block, none, .block, .block⟩, [], [], [], .block ⟨[], []⟩ body⟩

/-- The body in the block. -/
def insideBlock : Context := ((Context.forFunction ⟨[], []⟩).enter .block ⟨[], []⟩).2

theorem failingLoop_eq : failingLoop ⟨insideBlock, ()⟩ =
    .ok () ⟨{ insideBlock with labelsMade := 3 }, ()⟩ := rfl

theorem leavingLoop_eq : leavingLoop ⟨1⟩ ⟨{ insideBlock with labelsMade := 3 }, ()⟩ =
    .ok () ⟨{ insideBlock.write loopDraft with labelsMade := 4, varsMade := 1 }, ()⟩ := rfl

theorem inside_eq : (do failingLoop; leavingLoop ⟨1⟩ : Construction Unit Unit) ⟨insideBlock, ()⟩ =
    .ok () ⟨{ insideBlock.write loopDraft with labelsMade := 4, varsMade := 1 }, ()⟩ :=
  EStateM.bind_eq_ok.mpr ⟨(), _, failingLoop_eq, leavingLoop_eq⟩

theorem block_eq : block ⟨[], []⟩ (fun outer => do failingLoop; leavingLoop outer)
    ⟨Context.forFunction ⟨[], []⟩, ()⟩ = .ok []
      ⟨{ (Context.forFunction ⟨[], []⟩).write (blockOf [loopDraft]) with
        labelsMade := 4, varsMade := 1 }, ()⟩ :=
  structured_eq_ok.mpr
    ⟨_, ⟨1⟩, ⟨insideBlock, ()⟩, _, [loopDraft], _, rfl, rfl, inside_eq, rfl, rfl⟩

def loopCall : Call := .block "loop" ⟨[], []⟩ [.instr "i32.const" (.literal (.i32 0)),
  .instr "br_table" (.branchTable [.label ⟨3⟩] (.label ⟨1⟩))]

theorem failingLoop_program : ∃ calls, Program failingLoop calls ∧
    calls ⟨insideBlock, ()⟩ = [] := by
  refine ⟨_, .tryCatch (.bind (.loop fun _ => .throw _) fun _ => .pure ()) fun _ => .pure (), ?_⟩
  rfl

theorem leavingLoop_program : ∃ calls : Label → Workspace Unit → List Call,
    (∀ outer, Program (leavingLoop outer) (calls outer)) ∧
    calls ⟨1⟩ ⟨{ insideBlock with labelsMade := 3 }, ()⟩ = [loopCall] := by
  refine ⟨_, fun outer => .bind (.loop fun inner => .bind (.instr _ _ _) fun _ => .pure ())
    fun _ => .pure (), ?_⟩
  rfl

theorem loopsInBlock_program : ∃ made, Program loopsInBlock made ∧
    made ⟨Context.forFunction ⟨[], []⟩, ()⟩ = [.block "block" ⟨[], []⟩ [loopCall]] := by
  obtain ⟨calls, program, none⟩ := failingLoop_program
  obtain ⟨leavingCalls, leaving, made⟩ := leavingLoop_program
  refine ⟨_, .bind (.block fun outer => .bind program fun _ => leaving outer) fun _ => .pure (), ?_⟩
  have opened : opening "block" [] .block ⟨[], []⟩
      ⟨Context.forFunction ⟨[], []⟩, ()⟩ = .ok ⟨1⟩ ⟨insideBlock, ()⟩ := rfl
  simp only [ifOk, andThen, block_eq, structuredCalls, opened, none, failingLoop_eq, made]
  rfl

theorem label_selects_construct_loopsInBlock :
    let type : FuncType := ⟨[], []⟩
    let code : List Instr := [.mk "block" (.block .empty [.mk "loop" (.block .empty
      [.mk "i32.const" (.i32 0), .mk "br_table" (.brTable [0] 1)])])]
    Draft.linkAll [] [blockOf [loopDraft]] = .ok code ∧
    (∃ notes, Note.calls notes = [.block "block" type [loopCall]] ∧
      Note.AllStand [⟨0⟩] notes code) ∧
    ∃ s, Reached type s ∧ s.context.labelsMade ≤ 2 ^ 32 ∧ s.Labelled ∧
      s.levels.map Level.opened =
        [⟨⟨3⟩, .loop, type⟩, ⟨⟨1⟩, .block, type⟩, Opened.function type] ∧
      s.context.resolveTarget (.label ⟨1⟩) = .ok (1, []) ∧
      s.context.resolveTarget (.label ⟨2⟩) = .error (.unknownLabel (.label ⟨2⟩)) := by
  intro type code
  obtain ⟨labelled, visited, built⟩ := label_selects_construct type
  have linked : Draft.linkAll [] [blockOf [loopDraft]] = .ok code := rfl
  refine ⟨linked, ?_, ?_⟩
  · obtain ⟨made, program, calls⟩ := loopsInBlock_program
    obtain ⟨-, notes, -, -, -, noted, -, stands⟩ := built Unit loopsInBlock made () _
      ⟨[], [blockOf [loopDraft]]⟩ program (EStateM.bind_eq_ok.mpr ⟨[], _, block_eq, rfl⟩)
      (by decide) rfl
    exact ⟨notes, noted.trans calls, stands [] code linked⟩
  · -- The point where the closure of the second loop begins.
    obtain ⟨calls, program, -⟩ := failingLoop_program
    have inLoop : Visits (leavingLoop ⟨1⟩) ⟨{ insideBlock with labelsMade := 3 }, ()⟩
        ([] ++ [⟨⟨3⟩, .loop, type⟩])
        ⟨({ insideBlock with labelsMade := 3 }.enter .loop type).2, ()⟩ :=
      .first (.structured (.inr ⟨rfl, rfl⟩) rfl (.start _ _))
    have visits : Visits loopsInBlock ⟨Context.forFunction type, ()⟩
        ([⟨⟨3⟩, .loop, type⟩] ++ [⟨⟨1⟩, .block, type⟩]) _ :=
      .first (.structured (.inl ⟨rfl, rfl⟩) rfl (.second program failingLoop_eq inLoop))
    obtain ⟨s, reached, same, opened⟩ := visited Unit Unit loopsInBlock () _ _ visits
    have few : s.context.labelsMade ≤ 2 ^ 32 := by
      rw [same]
      decide
    refine ⟨s, reached, few, labelled s reached few, opened, ?_, ?_⟩ <;> rw [same] <;> rfl

/-! ## Where labels lose their meaning -/

/-- Loops that fail, one after the other. Each of them is given a label. -/
def failingLoops : Nat → Construction Unit Unit
  | 0 => pure ()
  | count + 1 => do
    failingLoop
    failingLoops count

/-- Nothing is left of them but the labels that they were given. -/
theorem failingLoops_eq (made count : Nat) :
    failingLoops count ⟨{ Context.forFunction ⟨[], []⟩ with labelsMade := made }, ()⟩ =
      .ok () ⟨{ Context.forFunction ⟨[], []⟩ with labelsMade := made + count }, ()⟩ := by
  induction count generalizing made with
  | zero => rfl
  | succ count ih =>
      have here : failingLoop ⟨{ Context.forFunction ⟨[], []⟩ with labelsMade := made }, ()⟩ =
          .ok () ⟨{ Context.forFunction ⟨[], []⟩ with labelsMade := made + 1 }, ()⟩ := rfl
      refine EStateM.bind_eq_ok.mpr ⟨(), _, here, ?_⟩
      rw [ih, Nat.add_right_comm, Nat.add_assoc]

theorem failingLoops_program (count : Nat) : ∃ made, Program (failingLoops count) made := by
  induction count with
  | zero => exact ⟨_, .pure ()⟩
  | succ count ih =>
      obtain ⟨calls, program, -⟩ := failingLoop_program
      obtain ⟨others, rest⟩ := ih
      exact ⟨_, .bind program fun _ => rest⟩

/-- A block behind a number of loops that failed. -/
def blockBehind (count : Nat) : Construction Unit Unit := do
  failingLoops count
  let _ ← block ⟨[], []⟩ fun label => br (.label label)

/-- The body in that block. -/
def insideBehind (count : Nat) : Context :=
  ({ Context.forFunction ⟨[], []⟩ with labelsMade := 1 + count }.enter .block ⟨[], []⟩).2

theorem visits_blockBehind (count : Nat) :
    Visits (blockBehind count) ⟨Context.forFunction ⟨[], []⟩, ()⟩
      [⟨⟨UInt32.ofNat (1 + count)⟩, .block, ⟨[], []⟩⟩] ⟨insideBehind count, ()⟩ := by
  obtain ⟨calls, program⟩ := failingLoops_program count
  have inside : Visits (do let _ ← block ⟨[], []⟩ fun label => br (.label label))
      ⟨{ Context.forFunction ⟨[], []⟩ with labelsMade := 1 + count }, ()⟩
      ([] ++ [⟨⟨UInt32.ofNat (1 + count)⟩, .block, ⟨[], []⟩⟩]) ⟨insideBehind count, ()⟩ :=
    .first (.structured (.inl ⟨rfl, rfl⟩) rfl (.start _ _))
  exact .second program (failingLoops_eq 1 count) inside

/-- The newest label is the one that is found. -/
theorem resolve_insideBehind (count : Nat) :
    (insideBehind count).resolveTarget (.label ⟨UInt32.ofNat (1 + count)⟩) = .ok (0, []) := by
  have own : (insideBehind count).frame.label = ⟨UInt32.ofNat (1 + count)⟩ := rfl
  simp only [Context.resolveTarget, Context.frames, List.findIdx_cons, own, decide_true,
    cond_true, List.getElem?_cons_zero]
  rfl

/-- A branch to the construct of the label, and a block that was made by hand around a
copy of that branch. -/
def branchAndCopy (label : Label) : Construction Unit Unit := do
  br (.label label)
  let code ← inspect fun c => .ok c.frame.body
  let _ ← perform (← definition "block") (.block ⟨[], []⟩ code)

def copiedBranch : Construction Unit Unit := do
  let _ ← block ⟨[], []⟩ branchAndCopy

def branchDraft : Draft :=
  ⟨⟨"br", InstrSet.byte 0x0C, .index, none, .br, .literal⟩, [], [], [], .literal (.index 0)⟩

theorem branchAndCopy_eq : branchAndCopy ⟨1⟩ ⟨insideBlock, ()⟩ =
    .ok () ⟨(insideBlock.write branchDraft).markUnreachable.write (blockOf [branchDraft]), ()⟩ :=
  rfl

theorem copiedBranch_eq : copiedBranch ⟨Context.forFunction ⟨[], []⟩, ()⟩ =
    .ok () ⟨{ (Context.forFunction ⟨[], []⟩).write (blockOf [branchDraft, blockOf [branchDraft]])
      with labelsMade := 2 }, ()⟩ := by
  refine EStateM.bind_eq_ok.mpr ⟨[], _, ?_, rfl⟩
  exact structured_eq_ok.mpr ⟨_, ⟨1⟩, ⟨insideBlock, ()⟩, _, [branchDraft, blockOf [branchDraft]], _,
    rfl, rfl, branchAndCopy_eq, rfl, rfl⟩

/-- Labels do not keep their meaning in all bodies. A label of a construct that was
undone is that of a block in another body, and is taken there. After 2^32 labels
they start over, and that of the function is taken for that of a block. And a
branch that was copied into a block counts out to the copy's block, not to that of
its label. -/
theorem not_forall_label_selects :
    (∃ s s', Reached ⟨[], []⟩ s ∧ Reached ⟨[], []⟩ s' ∧ ⟨1⟩ ∈ s.gone ∧
      s'.context.resolveTarget (.label ⟨1⟩) = .ok (0, [])) ∧
    (¬∀ (act : Construction Unit Unit) path w,
      Visits act ⟨Context.forFunction ⟨[], []⟩, ()⟩ path w →
      w.context.resolveTarget (.label ⟨0⟩) = .ok (path.length, [])) ∧
    ∃ body, FuncBody.construct ⟨[], []⟩ () copiedBranch = (.ok body, ()) ∧
      Draft.linkAll [] body.code = .ok [.mk "block" (.block .empty [.mk "br" (.index 0),
        .mk "block" (.block .empty [.mk "br" (.index 0)])])] := by
  refine ⟨?_, fun claimed => ?_, ⟨[], [blockOf [branchDraft, blockOf [branchDraft]]]⟩,
    FuncBody.construct_eq_ok.mpr ⟨_, copiedBranch_eq, rfl, rfl, rfl⟩, rfl⟩
  · have begun : Step (start ⟨[], []⟩) ⟨insideBlock,
        ⟨⟨1⟩, .block, ⟨[], []⟩, [], Context.forFunction ⟨[], []⟩⟩ :: (start ⟨[], []⟩).levels, []⟩ :=
      .enter .block (.inl rfl) rfl
    exact ⟨_, _, begun.steps.then .abort, begun.steps, List.mem_singleton_self _, rfl⟩
  · have taken := claimed _ _ _ (visits_blockBehind (2 ^ 32 - 1))
    have wrapped : UInt32.ofNat (1 + (2 ^ 32 - 1)) = 0 := by decide
    have newest := resolve_insideBehind (2 ^ 32 - 1)
    rw [wrapped] at newest
    cases newest.symm.trans taken

end Session

end Wasm
