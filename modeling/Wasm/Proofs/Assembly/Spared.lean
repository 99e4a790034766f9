import Wasm.Proofs.Assembly.Built
import Wasm.Proofs.Assembly.Inserted

/-!
# Declarations that leave no trace

What a module does not need does not show in it. If a client makes further
declarations between the others, and none of these entities comes into the
module, then the module is the one that there would have been without them.
-/

namespace Wasm

/-- An entity has its counterpart in its place. The first list has nothing
beyond its end, and nor has the second one. -/
theorem Carries.getElem?_place {α : Type} {places : List Nat} {Same : α → α → Prop}
    {items items' : List α} (h : Carries places Same items items') {f : α → α}
    (same : ∀ a a', Same a a' → a' = f a) (id : Nat) :
    items'[places[id]?.getD (items'.length + id)]? = items[id]?.map f := by
  cases placed : places[id]? with
  | some place =>
      have inside : id < items.length := h.length ▸ (List.getElem?_eq_some_iff.mp placed).1
      obtain ⟨a', found', related⟩ :=
        h.carried id place _ placed (List.getElem?_eq_getElem inside)
      rw [Option.getD_some, found', List.getElem?_eq_getElem inside, same _ _ related,
        Option.map_some]
  | none =>
      have outside : items.length ≤ id := h.length ▸ List.getElem?_eq_none_iff.mp placed
      rw [Option.getD_none, List.getElem?_eq_none_iff.mpr outside,
        List.getElem?_eq_none_iff.mpr (Nat.le_add_right _ _), Option.map_none]

namespace Embeds

variable {p : Places} {b b' : ModuleBuilder}

/-- The places of a class ascend, and they are places of the second builder. -/
theorem places (h : Embeds p b b') (kind : ExternKind) :
    (p kind).Pairwise (· < ·) ∧ ∀ id ∈ p kind, id < b'.count kind := by
  cases kind with
  | func => exact ⟨h.funcs.increasing, h.funcs.bounded⟩
  | table => exact ⟨h.tables.increasing, h.tables.bounded⟩
  | memory => exact ⟨h.memories.increasing, h.memories.bounded⟩
  | global => exact ⟨h.globals.increasing, h.globals.bounded⟩

theorem strictMono_extend (h : Embeds p b b') (kind : ExternKind) :
    StrictMono (p.extend b'.count kind) := by
  obtain ⟨ascending, bounded⟩ := h.places kind
  intro i j less
  unfold Places.extend
  cases second : (p kind)[j]? with
  | some jd =>
      obtain ⟨inside, rfl⟩ := List.getElem?_eq_some_iff.mp second
      rw [List.getElem?_eq_getElem (less.trans inside)]
      exact List.pairwise_iff_getElem.mp ascending i j _ inside less
  | none =>
      cases first : (p kind)[i]? with
      | some id =>
          have := bounded id (List.mem_of_getElem? first)
          simp only [Option.getD_some, Option.getD_none]
          omega
      | none =>
          simp only [Option.getD_none]
          omega

/-- The second builder has the entities of the first one in their places. -/
theorem renamed (h : Embeds p b b') : Renamed (p.extend b'.count) b b' where
  increasing := h.strictMono_extend
  funcs := h.funcs.getElem?_place fun _ _ same => same _ (p.agrees_extend _)
  globals := h.globals.getElem?_place fun _ _ same => same _ (p.agrees_extend _)
  tables := h.tables.getElem?_place fun _ _ same => same _ (p.agrees_extend _)
  memories id :=
    (h.memories.getElem?_place (fun _ _ same => same.symm) id).trans Option.map_id_apply

end Embeds

namespace ModuleBuilder

variable {p : Places} {b b' : ModuleBuilder} {roots roots' : Roots} {m : Module}

/-- Declarations that do not come into a module leave no trace in it. -/
theorem build_of_inserted (inserted : Inserted p b b')
    (config : p.Renames Roots.rename roots roots') (done : b'.build roots' = .ok m)
    (spared : ∀ found, b'.reach roots' = .ok found → ∀ e ∈ found.entities, e.id ∈ p e.kind) :
    b.build roots = .ok m := by
  have renamed := inserted.embeds.renamed
  cases config _ (p.agrees_extend b'.count)
  obtain ⟨distinct, found', reached', assembled'⟩ := build_eq_ok.mp done
  have placed : ∀ e ∈ found'.entities, ∃ id, p.extend b'.count e.kind id = e.id := by
    intro e member
    obtain ⟨i, place⟩ := List.mem_iff_getElem?.mp (spared found' reached' e member)
    exact ⟨i, p.agrees_extend b'.count e.kind i e.id place⟩
  obtain ⟨found, reached, rfl⟩ := renamed.reach_rename reached' placed
  have assembled := (renamed.assemble_rename roots found).eq_ok assembled'
  refine build_eq_ok.mpr ⟨?_, found, reached, assembled⟩
  rw [← distinct, Roots.rename, List.map_map]
  rfl

/-- `callsImport` with a function before the import that never gets a body. -/
def callsImportBehind : ModuleBuilder where
  funcs := [
    ⟨⟨[.f64], []⟩, .pending⟩,
    ⟨⟨[.i32], []⟩, .imported ⟨"m", "f"⟩⟩,
    ⟨⟨[], []⟩, .defined ⟨[], [
      ⟨InstrSet.constant "i32.const" (InstrSet.byte 0x41) .i32 .i32, [], [], [.i32],
        .literal (.i32 7)⟩,
      ⟨⟨"call", InstrSet.byte 0x10, .index, none, .call, .index⟩, [.func 1], [.i32], [],
        .literal .none⟩]⟩⟩]

/-- The places of both functions behind the one that is new. -/
def placesBehind : Places := Places.add (Places.add (fun _ => []) .func 1) .func 2

theorem callsImportBehind_inserted : Inserted placesBehind callsImport callsImportBehind := by
  let before : Places := Places.add (fun _ => []) .func 1
  have spares : (Operation.declareFunc ⟨[.f64], []⟩).Spares fun _ => [] := trivial
  have imported := (Inserted.start.second spares rfl).both (.importFunc ⟨"m", "f"⟩ ⟨[.i32], []⟩)
  -- Each client has its own handle of the imported function.
  have called : before.Renames Argument.rename (.func ⟨0, ⟨[.i32], []⟩⟩)
      (.func ⟨1, ⟨[.i32], []⟩⟩) := by
    intro ρ agrees
    rw [Argument.rename, FuncHandle.rename, agrees .func 0 1 rfl]
  let act (handle : FuncHandle) : Construction Unit Unit := do
    let _ ← Construction.instr "call" (.func handle) [.i32 7]
  have bodies : Construction.Alike before Eq Eq (act ⟨0, ⟨[.i32], []⟩⟩)
      (act ⟨1, ⟨[.i32], []⟩⟩) :=
    .bind (.instr "call" called fun _ _ => rfl) fun _ _ _ => .pure rfl
  have same : () = () := rfl
  exact imported.both (.func ⟨[], []⟩ same bodies)

theorem callsImportBehind_reach : callsImportBehind.reach { exports := [("run", ⟨.func, 2⟩)] } =
    .ok { entities := [⟨.func, 1⟩, ⟨.func, 2⟩] } :=
  Except.bind_eq_ok.mpr ⟨_, follow_pair rfl rfl rfl, rfl⟩

theorem build_of_inserted_callsImport : Inserted placesBehind callsImport callsImportBehind ∧
    ∃ m, callsImportBehind.build { exports := [("run", ⟨.func, 2⟩)] } = .ok m ∧
      callsImport.build { exports := [("run", ⟨.func, 1⟩)] } = .ok m := by
  have config : placesBehind.Renames Roots.rename { exports := [("run", ⟨.func, 1⟩)] }
      { exports := [("run", ⟨.func, 2⟩)] } := by
    intro ρ agrees
    simp [Roots.rename, Entity.rename, agrees .func 1 2 rfl]
  have done := build_eq_ok.mpr ⟨rfl, _, callsImportBehind_reach, rfl⟩
  refine ⟨callsImportBehind_inserted, _, done, ?_⟩
  refine build_of_inserted callsImportBehind_inserted config done fun found reached => ?_
  cases callsImportBehind_reach.symm.trans reached
  decide

/-! ## Handles of other builders -/

/-- The builder after a sequence of operations. -/
def run (ops : List Operation) : ModuleBuilder := ops.foldl after {}

/-- Two functions are imported, and a third one calls a function which another
builder declared second. -/
def foreignCall : List Operation := [
  .importFunc ⟨"m", "f"⟩ ⟨[], []⟩,
  .importFunc ⟨"m", "g"⟩ ⟨[], []⟩,
  .func ⟨[], []⟩ () do
    let _ ← Construction.instr "call" (.func ⟨1, ⟨[], []⟩⟩) []]

/-- A handle of another builder means whatever stands in its place. A function
that is declared before all others changes that, and is itself not needed. -/
theorem not_build_of_inserted_foreign : ¬∀ m found,
    (run (.declareFunc ⟨[], []⟩ :: foreignCall)).build { exports := [("run", ⟨.func, 3⟩)] } =
      .ok m →
    (run (.declareFunc ⟨[], []⟩ :: foreignCall)).reach { exports := [("run", ⟨.func, 3⟩)] } =
      .ok found → ⟨.func, 0⟩ ∉ found.entities →
    (run foreignCall).build { exports := [("run", ⟨.func, 2⟩)] } = .ok m := by
  intro claim
  have found' : (run (.declareFunc ⟨[], []⟩ :: foreignCall)).reach
      { exports := [("run", ⟨.func, 3⟩)] } = .ok { entities := [⟨.func, 1⟩, ⟨.func, 3⟩] } :=
    Except.bind_eq_ok.mpr ⟨_, follow_pair rfl rfl rfl, rfl⟩
  have found : (run foreignCall).reach { exports := [("run", ⟨.func, 2⟩)] } =
      .ok { entities := [⟨.func, 1⟩, ⟨.func, 2⟩] } :=
    Except.bind_eq_ok.mpr ⟨_, follow_pair rfl rfl rfl, rfl⟩
  have done' := build_eq_ok.mpr ⟨rfl, _, found', rfl⟩
  have done := build_eq_ok.mpr ⟨rfl, _, found, rfl⟩
  have same := Except.ok.inj (done.symm.trans (claim _ _ done' found' (by decide)))
  -- The one module imports `g`, the other one `f`.
  exact absurd (congrArg (fun m => m.imports.map (·.name)) same) (by decide)

end ModuleBuilder

end Wasm
