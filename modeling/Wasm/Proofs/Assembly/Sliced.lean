import Wasm.Assembly.IndexSpace
import Wasm.Proofs.Assembly.Scripted
import Wasm.Proofs.Body.Held

/-!
# A body by the numbers of its module

A module hands the linker one list with the numbers of all references of a body,
and the linker cuts it up on its way through the body. For any code that is
recorded while a body is being written this is what the plain way makes of it, by
which each instruction looks up its own references and the bodies of a construct
are linked on their own: with the numbers of a module, and with any other ones.
-/

namespace Wasm

namespace IndexSpace

/-- The numbers of a module. -/
def table (space : IndexSpace) : IndexTable where
  entity? entity := (space.index? (.entity entity)).map UInt32.ofNat
  type? type := (space.index? (.signature type)).map UInt32.ofNat

theorem table_index? (space : IndexSpace) (reference : Reference) :
    space.table.index? reference = (space.index? reference).map UInt32.ofNat := by
  cases reference <;> rfl

theorem table_index (space : IndexSpace) (reference : Reference) :
    space.table.index reference = space.index reference := by
  rw [IndexTable.index, table_index?, index]
  cases space.index? reference <;> rfl

theorem table_linkBody (space : IndexSpace) (body : List Draft) :
    space.table.linkBody body = space.linkBody body := by
  have same : space.table.index = space.index := funext space.table_index
  rw [IndexTable.linkBody, linkBody, same]

end IndexSpace

namespace Script

variable {σ : Type} {type : FuncType} {client : σ} {build : Script σ Unit} {m : FlatSpace σ}

/-- The linker succeeds exactly where the plain way does, and with the same code,
on every body that a context holds while a script is run: of the function and of
the constructs in it, finished or not, behind calls that failed, and with any
definitions. Where the script makes a construct by hand, the bodies that it hands
over are made of drafts as they are written, so that each lists what its own bodies
refer to. -/
theorem linkBody_directly (only : build.OnlyWritten ⟨Context.forFunction type, client⟩)
    (visits : build.Visits ⟨FlatContext.forFunction type, client⟩ m) {body : List Draft}
    (held : body ∈ m.machine.bodies) (code : List Instr) :
    (∀ table : IndexTable,
      table.linkBody body = .ok code ↔ Draft.linkAllDirectly table body = .ok code) ∧
    ∀ space : IndexSpace,
      space.linkBody body = .ok code ↔ Draft.linkAllDirectly space.table body = .ok code := by
  have alike : ∀ table : IndexTable,
      table.linkBody body = .ok code ↔ Draft.linkAllDirectly table body = .ok code :=
    fun table => table.linkBody_iff_directly (visits.written only held) code
  refine ⟨alike, fun space => ?_⟩
  rw [← space.table_linkBody]
  exact alike space.table

/-! ## An example -/

/-- A call of a function that returns a pair, as it is recorded. -/
def callDraft (id : Nat) : Draft :=
  ⟨⟨"call", InstrSet.byte 0x10, .index, none, .call, .index⟩, [.func id], [], [.i32, .i32],
    .literal .none⟩

/-- A block around such a call. -/
def blockDraft : Draft :=
  ⟨⟨"block", InstrSet.byte 0x02, .block, none, .block, .block⟩,
    [.signature ⟨[], [.i32, .i32]⟩, .func 1], [], [.i32, .i32],
    .block ⟨[], [.i32, .i32]⟩ [callDraft 1]⟩

theorem written_callDraft (id : Nat) : (callDraft id).Written := by
  have allowed : (callDraft id).definition.effect default (.func ⟨id, ⟨[], [.i32, .i32]⟩⟩) =
      .ok { results := [.i32, .i32], references := [.func id] } := rfl
  exact .intro (List.forall_mem_nil _) allowed

theorem written_blockDraft : blockDraft.Written := by
  have bodies : ∀ draft ∈ (Argument.block ⟨[], [.i32, .i32]⟩ [callDraft 1]).bodies, draft.Written :=
    List.forall_mem_singleton.mpr (written_callDraft 1)
  exact .intro bodies (d := blockDraft.definition) (c := default) rfl

/-- Inside a block a conditional is written with recorded code for its arms. -/
def copiedArms : Script Unit Unit :=
  .bind (.block ⟨[], [.i32, .i32]⟩ fun _ =>
    .bind (.instr "i32.const" (.literal (.i32 7)) []) fun _ =>
      .bind (.perform ⟨"if", InstrSet.byte 0x04, .conditional, none, .conditional, .conditional⟩
        (.ifElse ⟨[], [.i32, .i32]⟩ [callDraft 0] [blockDraft])) fun _ => .pure ()) fun _ =>
    .bind (.instr "unreachable" .none []) fun _ => .pure ()

theorem onlyWritten_copiedArms (w : Workspace Unit) : copiedArms.OnlyWritten w := by
  refine ⟨fun _ _ _ => ⟨trivial, fun _ _ _ => ⟨?_, fun _ _ _ => trivial⟩⟩,
    fun _ _ _ => ⟨trivial, fun _ _ _ => trivial⟩⟩
  exact List.forall_mem_cons.mpr
    ⟨written_callDraft 0, List.forall_mem_singleton.mpr written_blockDraft⟩

/-- The functions and the signatures of the example, with numbers. -/
def copiedNumbers : IndexSpace where
  entities := [⟨.func, 1⟩, ⟨.func, 0⟩]
  types := [⟨[], []⟩, ⟨[], [.i32, .i32]⟩]

/-- Before the block ends, the code that it holds so far. -/
theorem linkBody_directly_copiedArms : ∃ m body,
    copiedArms.Visits ⟨FlatContext.forFunction ⟨[], []⟩, ()⟩ m ∧ body ∈ m.machine.bodies ∧
    Draft.linkAllDirectly copiedNumbers.table body = .ok [
      .mk "i32.const" (.i32 7),
      .mk "if" (.ifElse (.funcType 1) [.mk "call" (.index 1)]
        [.mk "block" (.block (.funcType 1) [.mk "call" (.index 0)])])] := by
  have visits : ∃ m, copiedArms.Visits ⟨FlatContext.forFunction ⟨[], []⟩, ()⟩ m ∧
      copiedNumbers.linkBody m.machine.body = .ok [
        .mk "i32.const" (.i32 7),
        .mk "if" (.ifElse (.funcType 1) [.mk "call" (.index 1)]
          [.mk "block" (.block (.funcType 1) [.mk "call" (.index 0)])])] :=
    ⟨_, .first (.block rfl (.second rfl (.second rfl (.start _ _)))), rfl⟩
  obtain ⟨m, visited, linked⟩ := visits
  have only := onlyWritten_copiedArms ⟨Context.forFunction ⟨[], []⟩, ()⟩
  have held : m.machine.body ∈ m.machine.bodies := List.mem_cons_self
  refine ⟨m, m.machine.body, visited, held, ?_⟩
  exact ((linkBody_directly only visited held _).2 copiedNumbers).mp linked

/-- The linker has no number for a call that is hidden, and the plain way looks for
it where it is. -/
theorem not_forall_linkBody_directly : ¬∀ (build : Script Unit Unit) (m : FlatSpace Unit)
    (body : List Draft) (table : IndexTable) (code : List Instr),
    build.Visits ⟨FlatContext.forFunction ⟨[], []⟩, ()⟩ m → body ∈ m.machine.bodies →
      (table.linkBody body = .ok code ↔ Draft.linkAllDirectly table body = .ok code) := by
  intro same
  have visits : ∃ m, aroundHiding.Visits ⟨FlatContext.forFunction ⟨[], []⟩, ()⟩ m ∧
      copiedNumbers.table.linkBody m.machine.body =
        .error (.unresolved (.tooFewRemain "call" 1 0)) ∧
      Draft.linkAllDirectly copiedNumbers.table m.machine.body = .ok [
        .mk "block" (.block .empty [.mk "block" (.block .empty [.mk "call" (.index 1)])])] :=
    ⟨_, .finish rfl, rfl, rfl⟩
  obtain ⟨m, visited, refused, linked⟩ := visits
  have found := (same aroundHiding m _ copiedNumbers.table _ visited List.mem_cons_self).mpr linked
  cases refused.symm.trans found

end Script

end Wasm
