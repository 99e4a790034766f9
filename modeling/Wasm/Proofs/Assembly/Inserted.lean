import Wasm.Proofs.Assembly.Reached
import Wasm.Proofs.Assembly.Renamed
import Wasm.Proofs.Body.Mirrored

/-!
# Declarations between the others

Two clients make the same sequence of declarations, but the second one makes
further declarations in between. What it declares on the way gets ids of its
own, so what both declare stands in other places with the second one. There it
is the same, with the ids in it changed.
-/

namespace Wasm

/-! ## Operations -/

/-- What can be asked of a builder. -/
inductive Operation : Type 1 where
  | declareFunc (type : FuncType)
  | importFunc (name : ImportName) (type : FuncType)
  | func {σ : Type} (type : FuncType) (client : σ) (build : Construction σ Unit)
  | defineFunc {σ : Type} (handle : FuncHandle) (client : σ) (build : Construction σ Unit)
  | global (init : ConstExpr) (isMutable : Bool)
  | importGlobal (name : ImportName) (type : GlobalType)
  | table (type : TableType) (elements : Option (List ConstExpr))
  | importTable (name : ImportName) (type : TableType)
  | memory (type : MemoryType) (data : Option Bytes)
  | importMemory (name : ImportName) (type : MemoryType) (data : Option Bytes)

namespace Operation

/-- The class in which there is one more entity after the operation, if it is
not refused. -/
def declares : Operation → Option ExternKind
  | .declareFunc _ | .importFunc .. | .func .. => some .func
  | .defineFunc .. => none
  | .global .. | .importGlobal .. => some .global
  | .table .. | .importTable .. => some .table
  | .memory .. | .importMemory .. => some .memory

end Operation

namespace ModuleBuilder

/-- The builder after an operation, unless this is refused. -/
def perform (b : ModuleBuilder) : Operation → Except BuildError ModuleBuilder
  | .declareFunc type => .ok (b.declareFunc type).2
  | .importFunc name type => .ok (b.importFunc name type).2
  | .func type client build => (b.func type client build).1.map (·.2)
  | .defineFunc handle client build => (b.defineFunc handle client build).1
  | .global init isMutable => (b.global init isMutable).map (·.2)
  | .importGlobal name type => .ok (b.importGlobal name type).2
  | .table type elements => (b.table type elements).map (·.2)
  | .importTable name type => (b.importTable name type).map (·.2)
  | .memory type data => (b.memory type data).map (·.2)
  | .importMemory name type data => (b.importMemory name type data).map (·.2)

/-- The builder that a client goes on with: if the operation is refused, the
one it had. -/
def after (b : ModuleBuilder) (op : Operation) : ModuleBuilder :=
  match b.perform op with
  | .ok b' => b'
  | .error _ => b

/-- The number of entities of a class. -/
def count (b : ModuleBuilder) : ExternKind → Nat
  | .func => b.funcs.length
  | .table => b.tables.length
  | .memory => b.memories.length
  | .global => b.globals.length

end ModuleBuilder

/-! ## Corresponding operations -/

namespace Operation

/-- Both clients ask for the same, each with its own handles. -/
inductive Alike (p : Places) : Operation → Operation → Prop
  | declareFunc (type : FuncType) : Alike p (.declareFunc type) (.declareFunc type)
  | importFunc (name : ImportName) (type : FuncType) :
      Alike p (.importFunc name type) (.importFunc name type)
  | func {σ σ' : Type} {S : σ → σ' → Prop} {client : σ} {client' : σ'}
      {build : Construction σ Unit} {build' : Construction σ' Unit} (type : FuncType)
      (same : S client client') (bodies : Construction.Alike p S Eq build build') :
      Alike p (.func type client build) (.func type client' build')
  | defineFunc {σ σ' : Type} {S : σ → σ' → Prop} {handle handle' : FuncHandle} {client : σ}
      {client' : σ'} {build : Construction σ Unit} {build' : Construction σ' Unit}
      (given : p.Renames FuncHandle.rename handle handle') (same : S client client')
      (bodies : Construction.Alike p S Eq build build') :
      Alike p (.defineFunc handle client build) (.defineFunc handle' client' build')
  | global {init init' : ConstExpr} (given : p.Renames ConstExpr.rename init init')
      (isMutable : Bool) : Alike p (.global init isMutable) (.global init' isMutable)
  | importGlobal (name : ImportName) (type : GlobalType) :
      Alike p (.importGlobal name type) (.importGlobal name type)
  | table {elements elements' : Option (List ConstExpr)} (type : TableType)
      (given : p.Renames (fun ρ => Option.map (List.map (ConstExpr.rename ρ)))
        elements elements') : Alike p (.table type elements) (.table type elements')
  | importTable (name : ImportName) (type : TableType) :
      Alike p (.importTable name type) (.importTable name type)
  | memory (type : MemoryType) (data : Option Bytes) :
      Alike p (.memory type data) (.memory type data)
  | importMemory (name : ImportName) (type : MemoryType) (data : Option Bytes) :
      Alike p (.importMemory name type data) (.importMemory name type data)

/-- The operation does not define one of the functions that both clients declare. -/
def Spares (p : Places) : Operation → Prop
  | .defineFunc handle _ _ => handle.id ∉ p .func
  | _ => True

end Operation

/-- One more entity and its place. -/
def Places.add (p : Places) (kind : ExternKind) (id : Nat) : Places :=
  fun k => if k = kind then p k ++ [id] else p k

/-- The places after both clients asked for the same. -/
def Places.after (p : Places) (b b' : ModuleBuilder) (op : Operation) : Places :=
  match b.perform op, op.declares with
  | .ok _, some kind => p.add kind (b'.count kind)
  | _, _ => p

/-- The builders of two clients, the second of which does everything that the
first one does and makes further declarations anywhere in between. -/
inductive Inserted : Places → ModuleBuilder → ModuleBuilder → Prop
  | start : Inserted (fun _ => []) {} {}
  | both {p : Places} {b b' : ModuleBuilder} {op op' : Operation} (h : Inserted p b b')
      (alike : op.Alike p op') : Inserted (p.after b b' op) (b.after op) (b'.after op')
  | second {p : Places} {b b' b'' : ModuleBuilder} {op : Operation} (h : Inserted p b b')
      (spares : op.Spares p) (accepted : b'.perform op = .ok b'') : Inserted p b b''

/-! ## Items in their places -/

/-- In its place every item of the first list has its counterpart in the second one. -/
structure Carries {α : Type} (places : List Nat) (Same : α → α → Prop) (items items' : List α) :
    Prop where
  length : places.length = items.length
  increasing : places.Pairwise (· < ·)
  bounded : ∀ id ∈ places, id < items'.length
  carried : ∀ (i id : Nat) (a : α), places[i]? = some id → items[i]? = some a →
    ∃ a', items'[id]? = some a' ∧ Same a a'

namespace Carries

variable {α : Type} {places : List Nat} {Same Same' : α → α → Prop} {items items' : List α}

theorem nil : Carries [] Same [] items' :=
  ⟨rfl, List.Pairwise.nil, List.forall_mem_nil _, fun _ _ _ placed => by cases placed⟩

theorem mono (h : Carries places Same items items') (weaker : ∀ a a', Same a a' → Same' a a') :
    Carries places Same' items items' where
  length := h.length
  increasing := h.increasing
  bounded := h.bounded
  carried i id a placed found := by
    obtain ⟨a', found', same⟩ := h.carried i id a placed found
    exact ⟨a', found', weaker a a' same⟩

/-- An item that the second list has alone. -/
theorem append_right (h : Carries places Same items items') (a : α) :
    Carries places Same items (items' ++ [a]) where
  length := h.length
  increasing := h.increasing
  bounded id member := by
    have := h.bounded id member
    rw [List.length_append, List.length_singleton]
    omega
  carried i id a placed found := by
    obtain ⟨a', found', same⟩ := h.carried i id a placed found
    refine ⟨a', ?_, same⟩
    rw [List.getElem?_append_left (h.bounded id (List.mem_of_getElem? placed)), found']

/-- An item that both lists get. -/
theorem append (h : Carries places Same items items') {a a' : α} (same : Same a a') :
    Carries (places ++ [items'.length]) Same (items ++ [a]) (items' ++ [a']) where
  length := by rw [List.length_append, List.length_append, h.length]; rfl
  increasing := by
    refine List.pairwise_append.mpr ⟨h.increasing, List.pairwise_singleton _ _, ?_⟩
    intro id member last isLast
    rw [List.mem_singleton.mp isLast]
    exact h.bounded id member
  bounded id member := by
    rw [List.length_append, List.length_singleton]
    rcases List.mem_append.mp member with old | last
    · have := h.bounded id old
      omega
    · have := List.mem_singleton.mp last
      omega
  carried i id x placed found := by
    by_cases old : i < places.length
    · rw [List.getElem?_append_left old] at placed
      rw [List.getElem?_append_left (h.length ▸ old)] at found
      obtain ⟨x', found', same'⟩ := h.carried i id x placed found
      refine ⟨x', ?_, same'⟩
      rw [List.getElem?_append_left (h.bounded id (List.mem_of_getElem? placed)), found']
    · -- The item that was added last stands behind everything else.
      have last : i = places.length := by
        have := (List.getElem?_eq_some_iff.mp placed).1
        rw [List.length_append, List.length_singleton] at this
        omega
      subst last
      rw [List.getElem?_concat_length] at placed
      rw [h.length, List.getElem?_concat_length] at found
      cases placed
      cases found
      exact ⟨a', List.getElem?_concat_length, same⟩

/-- Places are as distinct as the items. -/
theorem eq_of_place (h : Carries places Same items items') {i j id : Nat}
    (first : places[i]? = some id) (second : places[j]? = some id) : i = j := by
  have inside := (List.getElem?_eq_some_iff.mp first).1
  exact (List.getElem?_inj inside (h.increasing.imp Nat.ne_of_lt)).mp (first.trans second.symm)

/-- An item of both lists that is replaced. -/
theorem set (h : Carries places Same items items') {a a' : α} {i id : Nat}
    (place : places[i]? = some id) (same : Same a a') :
    Carries places Same (items.set i a) (items'.set id a') where
  length := by rw [List.length_set, h.length]
  increasing := h.increasing
  bounded := by simpa only [List.length_set] using h.bounded
  carried j jd x placed found := by
    by_cases this : j = i
    · subst this
      cases place.symm.trans placed
      have inside := (List.getElem?_eq_some_iff.mp placed).1
      rw [List.getElem?_set_self (h.length ▸ inside)] at found
      cases found
      exact ⟨a', List.getElem?_set_self (h.bounded _ (List.mem_of_getElem? placed)), same⟩
    · have other : id ≠ jd := fun equal => this (h.eq_of_place placed (equal ▸ place))
      rw [List.getElem?_set_ne (Ne.symm this)] at found
      obtain ⟨x', found', same'⟩ := h.carried j jd x placed found
      exact ⟨x', by rw [List.getElem?_set_ne other, found'], same'⟩

/-- An item that the second list has alone is replaced. -/
theorem set_right (h : Carries places Same items items') {id : Nat} (other : id ∉ places) (a : α) :
    Carries places Same items (items'.set id a) where
  length := h.length
  increasing := h.increasing
  bounded := by simpa only [List.length_set] using h.bounded
  carried j jd x placed found := by
    obtain ⟨x', found', same'⟩ := h.carried j jd x placed found
    refine ⟨x', ?_, same'⟩
    have apart : id ≠ jd := fun equal => other (equal ▸ List.mem_of_getElem? placed)
    rw [List.getElem?_set_ne apart, found']

end Carries

/-! ## Keeping up -/

namespace Places

variable {p : Places} {kind : ExternKind} {id : Nat}

theorem Agrees.of_add {ρ : Renaming} (h : (p.add kind id).Agrees ρ) : p.Agrees ρ := by
  intro k i id' placed
  refine h k i id' ?_
  unfold add
  split
  · rw [List.getElem?_append_left (List.getElem?_eq_some_iff.mp placed).1, placed]
  · exact placed

theorem Renames.add {α : Type} {rename : Renaming → α → α} {x x' : α}
    (h : p.Renames rename x x') : (p.add kind id).Renames rename x x' :=
  fun ρ agrees => h ρ agrees.of_add

/-- A renaming for the entities that have places, with `beyond` for the others. -/
def extend (p : Places) (beyond : ExternKind → Nat) : Renaming :=
  fun kind i => (p kind)[i]?.getD (beyond kind + i)

theorem agrees_extend (p : Places) (beyond : ExternKind → Nat) : p.Agrees (p.extend beyond) := by
  intro kind i id placed
  rw [extend, placed]
  rfl

/-- Some renaming does what all of them do. -/
theorem Renames.exists {α : Type} {rename : Renaming → α → α} {x x' : α}
    (h : p.Renames rename x x') : ∃ ρ, p.Agrees ρ ∧ x' = rename ρ x :=
  ⟨_, p.agrees_extend fun _ => 0, h _ (p.agrees_extend _)⟩

/-- What every renaming for the places sends to the same id has a place. -/
theorem place_of_forall {i : Nat} (h : ∀ ρ, p.Agrees ρ → id = ρ kind i) :
    (p kind)[i]? = some id := by
  have low := h _ (p.agrees_extend fun _ => 0)
  have high := h _ (p.agrees_extend fun _ => 1)
  simp only [extend] at low high
  cases placed : (p kind)[i]? with
  | some id' =>
      rw [placed] at low
      exact congrArg some low.symm
  | none =>
      rw [placed, Option.getD_none] at low high
      omega

/-- The handle of a function is known by its place. -/
theorem Renames.func {handle handle' : FuncHandle}
    (h : p.Renames FuncHandle.rename handle handle') :
    (p .func)[handle.id]? = some handle'.id ∧ handle'.type = handle.type := by
  refine ⟨place_of_forall fun ρ agrees => congrArg FuncHandle.id (h ρ agrees), ?_⟩
  obtain ⟨ρ, -, rfl⟩ := h.exists
  rfl

end Places

/-- Everything in the first builder has its counterpart in the second one. -/
structure Embeds (p : Places) (b b' : ModuleBuilder) : Prop where
  funcs : Carries (p .func) (p.Renames FuncDecl.rename) b.funcs b'.funcs
  globals : Carries (p .global) (p.Renames GlobalDecl.rename) b.globals b'.globals
  tables : Carries (p .table) (p.Renames TableDecl.rename) b.tables b'.tables
  memories : Carries (p .memory) Eq b.memories b'.memories

namespace Embeds

variable {p : Places} {b b' : ModuleBuilder}

theorem addFunc (h : Embeds p b b') {decl decl' : FuncDecl}
    (same : p.Renames FuncDecl.rename decl decl') :
    Embeds (p.add .func b'.funcs.length) { b with funcs := b.funcs ++ [decl] }
      { b' with funcs := b'.funcs ++ [decl'] } where
  funcs := (h.funcs.append same).mono fun _ _ => Places.Renames.add
  globals := h.globals.mono fun _ _ => Places.Renames.add
  tables := h.tables.mono fun _ _ => Places.Renames.add
  memories := h.memories

theorem addGlobal (h : Embeds p b b') {decl decl' : GlobalDecl}
    (same : p.Renames GlobalDecl.rename decl decl') :
    Embeds (p.add .global b'.globals.length) { b with globals := b.globals ++ [decl] }
      { b' with globals := b'.globals ++ [decl'] } where
  funcs := h.funcs.mono fun _ _ => Places.Renames.add
  globals := (h.globals.append same).mono fun _ _ => Places.Renames.add
  tables := h.tables.mono fun _ _ => Places.Renames.add
  memories := h.memories

theorem addTable (h : Embeds p b b') {decl decl' : TableDecl}
    (same : p.Renames TableDecl.rename decl decl') :
    Embeds (p.add .table b'.tables.length) { b with tables := b.tables ++ [decl] }
      { b' with tables := b'.tables ++ [decl'] } where
  funcs := h.funcs.mono fun _ _ => Places.Renames.add
  globals := h.globals.mono fun _ _ => Places.Renames.add
  tables := (h.tables.append same).mono fun _ _ => Places.Renames.add
  memories := h.memories

theorem addMemory (h : Embeds p b b') (decl : MemoryDecl) :
    Embeds (p.add .memory b'.memories.length) { b with memories := b.memories ++ [decl] }
      { b' with memories := b'.memories ++ [decl] } where
  funcs := h.funcs.mono fun _ _ => Places.Renames.add
  globals := h.globals.mono fun _ _ => Places.Renames.add
  tables := h.tables.mono fun _ _ => Places.Renames.add
  memories := h.memories.append rfl

theorem setFunc (h : Embeds p b b') {i id : Nat} {decl decl' : FuncDecl}
    (place : (p .func)[i]? = some id) (same : p.Renames FuncDecl.rename decl decl') :
    Embeds p { b with funcs := b.funcs.set i decl } { b' with funcs := b'.funcs.set id decl' } :=
  { h with funcs := h.funcs.set place same }

/-- The counterpart of a function. -/
theorem func (h : Embeds p b b') {i id : Nat} (place : (p .func)[i]? = some id) :
    ∃ decl decl', b.funcs[i]? = some decl ∧ b'.funcs[id]? = some decl' ∧
      p.Renames FuncDecl.rename decl decl' := by
  have inside : i < b.funcs.length := h.funcs.length ▸ (List.getElem?_eq_some_iff.mp place).1
  have found := List.getElem?_eq_getElem inside
  obtain ⟨decl', found', same⟩ := h.funcs.carried i id _ place found
  exact ⟨_, decl', found, found', same⟩

theorem global (h : Embeds p b b') {i id : Nat} (place : (p .global)[i]? = some id) :
    ∃ decl decl', b.globals[i]? = some decl ∧ b'.globals[id]? = some decl' ∧
      p.Renames GlobalDecl.rename decl decl' := by
  have inside : i < b.globals.length := h.globals.length ▸ (List.getElem?_eq_some_iff.mp place).1
  have found := List.getElem?_eq_getElem inside
  obtain ⟨decl', found', same⟩ := h.globals.carried i id _ place found
  exact ⟨_, decl', found, found', same⟩

end Embeds

/-! ## Checks -/

section Checks

variable {p : Places} {b b' : ModuleBuilder} {ρ : Renaming}

theorem checkConst_alike (h : Embeds p b b') {init init' : ConstExpr}
    (given : p.Renames ConstExpr.rename init init') : b'.checkConst init' = b.checkConst init := by
  obtain ⟨ρ, agrees, rfl⟩ := given.exists
  cases init with
  | globalGet handle =>
      have place : (p .global)[handle.id]? = some (ρ .global handle.id) :=
        Places.place_of_forall fun ρ' agrees' =>
          congrArg GlobalHandle.id (ConstExpr.globalGet.inj (given ρ' agrees'))
      obtain ⟨decl, decl', found, found', same⟩ := h.global place
      unfold ModuleBuilder.checkConst
      rw [ConstExpr.check_rename]
      simp only [ConstExpr.rename, GlobalHandle.rename, found, found', same ρ agrees,
        Option.map_some, GlobalDecl.isImported_rename]
  | _ => rfl

theorem checkElements_alike (h : Embeds p b b') (element : ValType)
    {elements elements' : List ConstExpr}
    (given : p.Renames (fun ρ => List.map (ConstExpr.rename ρ)) elements elements') :
    b'.checkElements element elements' = b.checkElements element elements := by
  obtain ⟨ρ, -, rfl⟩ := given.exists
  induction elements with
  | nil => rfl
  | cons init rest ih =>
      -- What holds of the list holds of its head and of its tail.
      have split := fun ρ' agrees => List.cons.inj (given ρ' agrees)
      have first : p.Renames ConstExpr.rename init (init.rename ρ) :=
        fun ρ' agrees => (split ρ' agrees).1
      have others := ih fun ρ' agrees => (split ρ' agrees).2
      rw [List.map_cons, ModuleBuilder.checkElements, ModuleBuilder.checkElements,
        checkConst_alike h first, others, ConstExpr.type_rename]

theorem checkPending_alike (h : Embeds p b b') {handle handle' : FuncHandle}
    (given : p.Renames FuncHandle.rename handle handle') :
    (b.checkPending handle).Together Eq (b'.checkPending handle') := by
  obtain ⟨place, type⟩ := given.func
  obtain ⟨decl, decl', found, found', same⟩ := h.func place
  obtain ⟨ρ, -, rfl⟩ := same.exists
  simp only [ModuleBuilder.checkPending, found, found', type, FuncDecl.type_rename,
    FuncDecl.isPending_rename]
  split
  · split
    · exact .done rfl
    · exact .failed _ _
  · exact .failed _ _

/-- Alike bodies are refused both, or they are the same under other ids. -/
theorem construct_together {σ σ' : Type} {S : σ → σ' → Prop} {client : σ} {client' : σ'}
    {build : Construction σ Unit} {build' : Construction σ' Unit} (type : FuncType)
    (bodies : Construction.Alike p S Eq build build') (same : S client client') :
    (FuncBody.construct type client build).1.Together
      (fun body body' => p.Renames FuncDecl.rename ⟨type, .defined body⟩ ⟨type, .defined body'⟩)
      (FuncBody.construct type client' build').1 := by
  have renamed := fun ρ (agrees : p.Agrees ρ) => FuncBody.construct_alike bodies same agrees type
  have known := renamed _ (p.agrees_extend fun _ => 0)
  cases built : (FuncBody.construct type client build).1 with
  | error e =>
      rw [built] at known
      rw [known]
      exact .failed _ _
  | ok body =>
      simp only [built, Except.map] at renamed known
      rw [known]
      refine .done fun ρ agrees => ?_
      rw [FuncDecl.rename, Except.ok.inj (known.symm.trans (renamed ρ agrees))]
      rfl

end Checks

/-! ## Operations keep up -/

namespace ModuleBuilder

variable {b : ModuleBuilder} {σ : Type} {client : σ} {build : Construction σ Unit}

theorem perform_func (type : FuncType) : b.perform (.func type client build) =
    (FuncBody.construct type client build).1.map fun body =>
      { b with funcs := b.funcs ++ [⟨type, .defined body⟩] } := by
  unfold perform ModuleBuilder.func
  dsimp only
  cases (FuncBody.construct type client build).1 <;> rfl

theorem perform_defineFunc (handle : FuncHandle) : b.perform (.defineFunc handle client build) =
    (b.checkPending handle >>= fun _ =>
      (FuncBody.construct handle.type client build).1.map fun body =>
        { b with funcs := b.funcs.set handle.id ⟨handle.type, .defined body⟩ }) := by
  unfold perform ModuleBuilder.defineFunc
  dsimp only
  cases b.checkPending handle with
  | error e => rfl
  | ok _ => rfl

end ModuleBuilder

namespace Embeds

variable {p : Places} {b b' : ModuleBuilder} {op op' : Operation}

/-- The places with one more entity of the class of an operation. -/
def placesAfter (p : Places) (b' : ModuleBuilder) (op : Operation) : Places :=
  match op.declares with
  | some kind => p.add kind (b'.count kind)
  | none => p

theorem addTable_alike (h : Embeds p b b') {decl decl' : TableDecl}
    (same : p.Renames TableDecl.rename decl decl') :
    (b.addTable decl).Together (fun r r' => Embeds (p.add .table b'.tables.length) r.2 r'.2)
      (b'.addTable decl') := by
  have entries : p.Renames (fun ρ => List.map (ConstExpr.rename ρ)) (decl.elements.getD [])
      (decl'.elements.getD []) := by
    intro ρ agrees
    rw [same ρ agrees, TableDecl.rename]
    cases decl.elements <;> rfl
  have checks := checkElements_alike h decl.type.element entries
  have type : decl'.type = decl.type := by
    obtain ⟨ρ, -, rfl⟩ := same.exists
    rfl
  have length : (decl'.elements.getD []).length = (decl.elements.getD []).length := by
    obtain ⟨ρ, -, renamed⟩ := entries.exists
    rw [renamed, List.length_map]
  refine .of_ok (fun r added => ?_) fun r' added' => ?_
  · obtain ⟨isRef, checked, room, -, after⟩ := ModuleBuilder.addTable_eq_ok.mp added
    have added' := ModuleBuilder.addTable_eq_ok.mpr
      ⟨type ▸ isRef, type ▸ checks.trans checked, type ▸ length ▸ room, rfl, rfl⟩
    exact ⟨_, added', after ▸ h.addTable same⟩
  · obtain ⟨isRef, checked, room, -, -⟩ := ModuleBuilder.addTable_eq_ok.mp added'
    rw [type] at isRef checked room
    exact ⟨_, ModuleBuilder.addTable_eq_ok.mpr
      ⟨isRef, checks.symm.trans checked, length ▸ room, rfl, rfl⟩⟩

/-- The checks of a memory look at nothing else. -/
theorem addMemory_alike (h : Embeds p b b') (decl : MemoryDecl) :
    (b.addMemory decl).Together (fun r r' => Embeds (p.add .memory b'.memories.length) r.2 r'.2)
      (b'.addMemory decl) := by
  refine .of_ok (fun r added => ?_) fun r' added' => ?_
  · obtain ⟨bounded, room, -, after⟩ := ModuleBuilder.addMemory_eq_ok.mp added
    exact ⟨_, ModuleBuilder.addMemory_eq_ok.mpr ⟨bounded, room, rfl, rfl⟩,
      after ▸ h.addMemory decl⟩
  · obtain ⟨bounded, room, -, -⟩ := ModuleBuilder.addMemory_eq_ok.mp added'
    exact ⟨_, ModuleBuilder.addMemory_eq_ok.mpr ⟨bounded, room, rfl, rfl⟩⟩

/-- What both clients ask for is refused both, or keeps them in step. -/
theorem perform (h : Embeds p b b') (alike : op.Alike p op') :
    (b.perform op).Together (Embeds (placesAfter p b' op)) (b'.perform op') := by
  cases alike with
  | declareFunc type => exact .done (h.addFunc fun _ _ => rfl)
  | importFunc name type => exact .done (h.addFunc fun _ _ => rfl)
  | importGlobal name type => exact .done (h.addGlobal fun _ _ => rfl)
  | func type same bodies =>
      rw [ModuleBuilder.perform_func, ModuleBuilder.perform_func]
      exact (construct_together type bodies same).map fun _ _ renamed => h.addFunc renamed
  | defineFunc given same bodies =>
      obtain ⟨place, type⟩ := given.func
      rw [ModuleBuilder.perform_defineFunc, ModuleBuilder.perform_defineFunc, type]
      exact (checkPending_alike h given).bind fun _ _ _ =>
        (construct_together _ bodies same).map fun _ _ renamed => h.setFunc place renamed
  | global given isMutable =>
      rename_i init init'
      have type : init'.type = init.type := by
        obtain ⟨ρ, -, rfl⟩ := given.exists
        exact init.type_rename
      simp only [ModuleBuilder.perform, ModuleBuilder.global, checkConst_alike h given]
      cases b.checkConst init with
      | error e => exact .failed e e
      | ok _ =>
          refine .done (h.addGlobal fun ρ agrees => ?_)
          rw [GlobalDecl.rename, type, given ρ agrees]
  | table type given =>
      rename_i elements elements'
      have same : p.Renames TableDecl.rename { type, elements } { type, elements := elements' } :=
        fun ρ agrees => by rw [TableDecl.rename, given ρ agrees]
      exact (h.addTable_alike same).map fun _ _ embeds => embeds
  | importTable name type =>
      have same : p.Renames TableDecl.rename { type, importName := some name }
        { type, importName := some name } := fun ρ agrees => rfl
      exact (h.addTable_alike same).map fun _ _ embeds => embeds
  | memory type data =>
      exact (h.addMemory_alike { type, data }).map fun _ _ embeds => embeds
  | importMemory name type data =>
      exact (h.addMemory_alike { type, data, importName := some name }).map fun _ _ embeds => embeds

/-- A declaration of the second client alone. -/
theorem second {b'' : ModuleBuilder} (h : Embeds p b b') (spares : op.Spares p)
    (accepted : b'.perform op = .ok b'') : Embeds p b b'' := by
  cases op with
  | declareFunc type | importFunc name type =>
      cases accepted
      exact { h with funcs := h.funcs.append_right _ }
  | func type client build =>
      rw [ModuleBuilder.perform_func, Except.map_eq_ok] at accepted
      obtain ⟨body, -, rfl⟩ := accepted
      exact { h with funcs := h.funcs.append_right _ }
  | defineFunc handle client build =>
      rw [ModuleBuilder.perform_defineFunc, Except.bind_eq_ok] at accepted
      obtain ⟨_, -, built⟩ := accepted
      obtain ⟨body, -, rfl⟩ := Except.map_eq_ok.mp built
      exact { h with funcs := h.funcs.set_right spares _ }
  | global init isMutable =>
      obtain ⟨⟨handle, after⟩, declared, rfl⟩ := Except.map_eq_ok.mp accepted
      obtain ⟨-, added⟩ := ModuleBuilder.global_eq_ok.mp declared
      obtain ⟨-, rfl⟩ := Prod.mk.inj added
      exact { h with globals := h.globals.append_right _ }
  | importGlobal name type =>
      cases accepted
      exact { h with globals := h.globals.append_right _ }
  | table type elements | importTable name type =>
      obtain ⟨⟨handle, after⟩, declared, rfl⟩ := Except.map_eq_ok.mp accepted
      obtain ⟨-, -, -, -, rfl⟩ := ModuleBuilder.addTable_eq_ok.mp declared
      exact { h with tables := h.tables.append_right _ }
  | memory type data | importMemory name type data =>
      obtain ⟨⟨handle, after⟩, declared, rfl⟩ := Except.map_eq_ok.mp accepted
      obtain ⟨-, -, -, rfl⟩ := ModuleBuilder.addMemory_eq_ok.mp declared
      exact { h with memories := h.memories.append_right _ }

end Embeds

theorem Inserted.embeds {p : Places} {b b' : ModuleBuilder} (h : Inserted p b b') :
    Embeds p b b' := by
  induction h with
  | start => exact ⟨.nil, .nil, .nil, .nil⟩
  | both h alike ih =>
      rename_i p b b' op op'
      unfold Places.after ModuleBuilder.after
      have outcome := ih.perform alike
      revert outcome
      generalize b.perform op = result
      generalize b'.perform op' = result'
      rintro (⟨e, e'⟩ | ⟨embeds⟩)
      · exact ih
      · unfold Embeds.placesAfter at embeds
        cases declared : op.declares <;> simpa only [declared] using embeds
  | second _ spares accepted ih => exact ih.second spares accepted

end Wasm
