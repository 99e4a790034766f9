import Mathlib.Logic.Relation
import Wasm.Proofs.Assembly.Inserted

/-!
# Handles stay true

A client makes declarations one after the other on one builder, which is
changed in place, and collects the handles that it is given. What a declaration
does to the builder is said once: it puts one new entity behind the others of
its class, or gives a function its body that was declared ahead. So a handle
goes on denoting the entity that it was given for, with the type that it
carries, and nothing about the entity changes but that a pending function is
defined, once. A declaration that is refused was refused before it changed
anything.
-/

namespace Wasm

/-! ## Handles and what they denote -/

/-- A handle of any class. -/
inductive Handle where
  | func (handle : FuncHandle)
  | global (handle : GlobalHandle)
  | table (handle : TableHandle)
  | memory (handle : MemoryHandle)

/-- A declaration of any class. -/
inductive Entry where
  | func (decl : FuncDecl)
  | global (decl : GlobalDecl)
  | table (decl : TableDecl)
  | memory (decl : MemoryDecl)

def Handle.entity : Handle → Entity
  | .func handle => handle.entity
  | .global handle => handle.entity
  | .table handle => handle.entity
  | .memory handle => handle.entity

/-- The declarations of a class, in their order. -/
def ModuleBuilder.declared (b : ModuleBuilder) : ExternKind → List Entry
  | .func => b.funcs.map .func
  | .global => b.globals.map .global
  | .table => b.tables.map .table
  | .memory => b.memories.map .memory

/-- The declaration of an entity of the builder. -/
def ModuleBuilder.entry (b : ModuleBuilder) (entity : Entity) : Option Entry :=
  (b.declared entity.kind)[entity.id]?

/-- The declaration is one of the class of the handle, and of the type that the
handle carries. -/
def Handle.Fits : Handle → Entry → Prop
  | .func handle, .func decl => decl.type = handle.type
  | .global handle, .global decl => decl.type = handle.type
  | .table handle, .table decl => decl.type = handle.type
  | .memory handle, .memory decl => decl.type = handle.type
  | _, _ => False

/-- All that can happen to a declaration: a function that was declared ahead is
defined. -/
inductive Entry.Becomes : Entry → Entry → Prop
  | same (entry : Entry) : Becomes entry entry
  | defined (type : FuncType) (body : FuncBody) :
      Becomes (.func ⟨type, .pending⟩) (.func ⟨type, .defined body⟩)

namespace Entry.Becomes

variable {entry entry' entry'' : Entry}

theorem trans (first : entry.Becomes entry') (second : entry'.Becomes entry'') :
    entry.Becomes entry'' := by
  cases first with
  | same => exact second
  | defined type body =>
      cases second
      exact .defined type body

theorem fits (h : entry.Becomes entry') {handle : Handle} (fits : handle.Fits entry) :
    handle.Fits entry' := by
  cases h with
  | same => exact fits
  | defined type body => cases handle <;> exact fits

end Entry.Becomes

/-! ## Declarations in place -/

/-- What a client does to its builder, which stays as the failure left it. -/
abbrev Declaring := EStateM BuildError ModuleBuilder

namespace Declaring

variable {α : Type}

/-- Goes on if a check or a construction succeeds. -/
def demand (result : Except BuildError α) : Declaring α := fun b =>
  match result with
  | .ok a => .ok a b
  | .error e => .error e b

def pushFunc (type : FuncType) (content : FuncContent) : Declaring Handle :=
  modifyGet fun b =>
    (.func ⟨b.funcs.length, type⟩, { b with funcs := b.funcs ++ [{ type, content }] })

/-- Fills in the body of a function; its type stays. -/
def fillFunc (id : Nat) (body : FuncBody) : Declaring Unit :=
  modify fun b =>
    { b with funcs := b.funcs.modify id fun decl => { decl with content := .defined body } }

def pushGlobal (type : GlobalType) (content : GlobalContent) : Declaring Handle :=
  modifyGet fun b =>
    (.global ⟨b.globals.length, type⟩, { b with globals := b.globals ++ [{ type, content }] })

def pushTable (decl : TableDecl) : Declaring Handle := do
  let type := decl.type
  unless type.element.isRef do
    throw (.invalidArguments "table" (.notReference type.element))
  let elements := decl.elements.getD []
  demand ((← get).checkElements type.element elements)
  unless elements.length ≤ type.limits.min.toNat do
    throw (.invalidArguments "table" (.tooManyElements elements.length type.limits.min))
  modifyGet fun b =>
    (.table ⟨b.tables.length, type⟩, { b with tables := b.tables ++ [decl] })

def pushMemory (decl : MemoryDecl) : Declaring Handle := do
  let type := decl.type
  if type.shared ∧ type.limits.max.isNone then
    throw (.invalidArguments "memory" .sharedWithoutMaximum)
  let data := decl.data.getD []
  unless data.length ≤ type.limits.min.toNat * ModuleBuilder.pageSize do
    throw (.invalidArguments "memory" (.tooMuchData data.length type.limits.min))
  modifyGet fun b =>
    (.memory ⟨b.memories.length, type⟩, { b with memories := b.memories ++ [decl] })

end Declaring

open Declaring

/-- The operation on a builder that is changed in place, and the handle that the
client is given. The definition of a function gives none. -/
def Operation.enact : Operation → Declaring (Option Handle)
  | .declareFunc type => some <$> pushFunc type .pending
  | .importFunc name type => some <$> pushFunc type (.imported name)
  | .func type client build => do
    let body ← demand (FuncBody.construct type client build).1
    some <$> pushFunc type (.defined body)
  | .defineFunc handle client build => do
    demand ((← get).checkPending handle)
    let body ← demand (FuncBody.construct handle.type client build).1
    fillFunc handle.id body
    return none
  | .global init isMutable => do
    demand ((← get).checkConst init)
    some <$> pushGlobal { value := init.type, isMutable } (.defined init)
  | .importGlobal name type => some <$> pushGlobal type (.imported name)
  | .table type elements => some <$> pushTable { type, elements }
  | .importTable name type => some <$> pushTable { type, importName := some name }
  | .memory type data => some <$> pushMemory { type, data }
  | .importMemory name type data => some <$> pushMemory { type, data, importName := some name }

/-- The answer of the library: what the client is given, and the next builder. -/
def ModuleBuilder.answer (b : ModuleBuilder) :
    Operation → Except BuildError (Option Handle × ModuleBuilder)
  | .declareFunc type => .ok ((b.declareFunc type).map (some ∘ .func) id)
  | .importFunc name type => .ok ((b.importFunc name type).map (some ∘ .func) id)
  | .func type client build => (b.func type client build).1.map (·.map (some ∘ .func) id)
  | .defineFunc handle client build => (b.defineFunc handle client build).1.map (none, ·)
  | .global init isMutable => (b.global init isMutable).map (·.map (some ∘ .global) id)
  | .importGlobal name type => .ok ((b.importGlobal name type).map (some ∘ .global) id)
  | .table type elements => (b.table type elements).map (·.map (some ∘ .table) id)
  | .importTable name type => (b.importTable name type).map (·.map (some ∘ .table) id)
  | .memory type data => (b.memory type data).map (·.map (some ∘ .memory) id)
  | .importMemory name type data => (b.importMemory name type data).map (·.map (some ∘ .memory) id)

namespace Operation

theorem checkPending_eq_ok {b : ModuleBuilder} {handle : FuncHandle} :
    b.checkPending handle = .ok () ↔ b.funcs[handle.id]? = some ⟨handle.type, .pending⟩ := by
  unfold ModuleBuilder.checkPending
  cases found : b.funcs[handle.id]? with
  | none => simp
  | some decl =>
      obtain ⟨type, content⟩ := decl
      by_cases same : type = handle.type <;> cases content <;>
        simp [same, FuncContent.isPending]

theorem demand_bind {α β : Type} (result : Except BuildError α) (next : α → Declaring β)
    (b : ModuleBuilder) : (demand result >>= next) b =
      match result with
      | .ok a => next a b
      | .error e => .error e b := by
  cases result <;> rfl

theorem pushTable_eq (decl : TableDecl) (b : ModuleBuilder) : pushTable decl b =
    match b.addTable decl with
    | .ok (handle, b') => .ok (.table handle) b'
    | .error e => .error e b := by
  unfold pushTable ModuleBuilder.addTable
  by_cases isRef : decl.type.element.isRef
  · simp only [if_pos isRef]
    show (demand (b.checkElements decl.type.element (decl.elements.getD [])) >>= _) b = _
    cases b.checkElements decl.type.element (decl.elements.getD []) with
    | error e => rfl
    | ok _ =>
        by_cases room : (decl.elements.getD []).length ≤ decl.type.limits.min.toNat
        · simp only [if_pos room]
          rfl
        · simp only [if_neg room]
          rfl
  · simp only [if_neg isRef]
    rfl

theorem pushMemory_eq (decl : MemoryDecl) (b : ModuleBuilder) : pushMemory decl b =
    match b.addMemory decl with
    | .ok (handle, b') => .ok (.memory handle) b'
    | .error e => .error e b := by
  unfold pushMemory ModuleBuilder.addMemory
  by_cases unbounded : decl.type.shared ∧ decl.type.limits.max.isNone
  · simp only [if_pos unbounded]
    rfl
  · simp only [if_neg unbounded]
    by_cases room : (decl.data.getD []).length ≤ decl.type.limits.min.toNat * ModuleBuilder.pageSize
    · simp only [if_pos room]
      rfl
    · simp only [if_neg room]
      rfl

theorem some_map_eq (act : Declaring Handle) (b : ModuleBuilder) : (some <$> act) b =
    match act b with
    | .ok handle b' => .ok (some handle) b'
    | .error e b' => .error e b' := by
  show EStateM.map some act b = _
  unfold EStateM.map
  cases act b <;> rfl

/-- Filling in a body is the same as replacing a pending declaration. -/
theorem modify_eq_set {funcs : List FuncDecl} {id : Nat} {type : FuncType} {body : FuncBody}
    (pending : funcs[id]? = some ⟨type, .pending⟩) :
    (funcs.modify id fun decl => { decl with content := .defined body }) =
      funcs.set id { type, content := .defined body } := by
  rw [List.modify_eq_set_getElem?, pending]
  rfl

/-- In place the operations do what the library answers, and a refusal leaves the
builder as it was. -/
theorem enact_eq (op : Operation) (b : ModuleBuilder) : op.enact b =
    match b.answer op with
    | .ok (given, b') => .ok given b'
    | .error e => .error e b := by
  cases op with
  | declareFunc type | importFunc name type | importGlobal name type => rfl
  | func type client build =>
      show (demand (FuncBody.construct type client build).1 >>= _) b = _
      rw [demand_bind, ModuleBuilder.answer, ModuleBuilder.func]
      obtain ⟨result, after⟩ := FuncBody.construct type client build
      cases result <;> rfl
  | defineFunc handle client build =>
      show (demand (b.checkPending handle) >>= _) b = _
      rw [demand_bind, ModuleBuilder.answer, ModuleBuilder.defineFunc]
      cases checked : b.checkPending handle with
      | error e => rfl
      | ok _ =>
          have pending := checkPending_eq_ok.mp checked
          obtain ⟨result, after⟩ := FuncBody.construct handle.type client build
          cases result with
          | error e => rfl
          | ok body =>
              show EStateM.Result.ok none { b with funcs := b.funcs.modify handle.id _ } = _
              rw [modify_eq_set pending]
              rfl
  | global init isMutable =>
      show (demand (b.checkConst init) >>= _) b = _
      rw [demand_bind, ModuleBuilder.answer, ModuleBuilder.global]
      cases b.checkConst init <;> rfl
  | table type elements =>
      rw [enact, some_map_eq, pushTable_eq, ModuleBuilder.answer, ModuleBuilder.table]
      cases b.addTable _ <;> rfl
  | importTable name type =>
      rw [enact, some_map_eq, pushTable_eq, ModuleBuilder.answer, ModuleBuilder.importTable]
      cases b.addTable _ <;> rfl
  | memory type data =>
      rw [enact, some_map_eq, pushMemory_eq, ModuleBuilder.answer, ModuleBuilder.memory]
      cases b.addMemory _ <;> rfl
  | importMemory name type data =>
      rw [enact, some_map_eq, pushMemory_eq, ModuleBuilder.answer, ModuleBuilder.importMemory]
      cases b.addMemory _ <;> rfl

end Operation

/-! ## What a declaration changes -/

/-- The entity is declared like this now, and all others are as they were. -/
structure ModuleBuilder.Puts (b : ModuleBuilder) (entity : Entity) (entry : Entry)
    (b' : ModuleBuilder) : Prop where
  there : b'.entry entity = some entry
  others : ∀ other, other ≠ entity → b'.entry other = b.entry other

namespace ModuleBuilder

variable {b b' : ModuleBuilder}

theorem length_declared (b : ModuleBuilder) (kind : ExternKind) :
    (b.declared kind).length = b.count kind := by
  cases kind <;> exact List.length_map _

/-- One more declaration of a class stands behind the others. -/
theorem puts_append {entry : Entry} (kind : ExternKind)
    (more : b'.declared kind = b.declared kind ++ [entry])
    (rest : ∀ other, other ≠ kind → b'.declared other = b.declared other) :
    b.entry ⟨kind, b.count kind⟩ = none ∧ b.Puts ⟨kind, b.count kind⟩ entry b' := by
  have count := b.length_declared kind
  refine ⟨?_, ?_, ?_⟩
  · rw [ModuleBuilder.entry, ← count]
    exact List.getElem?_eq_none (Nat.le_refl _)
  · rw [ModuleBuilder.entry, more, ← count]
    exact List.getElem?_concat_length
  · rintro ⟨other, id⟩ different
    rw [ModuleBuilder.entry, ModuleBuilder.entry]
    by_cases same : other = kind
    · subst same
      have apart : id ≠ (b.declared other).length := fun last => different (last ▸ count ▸ rfl)
      rw [more]
      rcases Nat.lt_or_gt_of_ne apart with inside | beyond
      · exact List.getElem?_append_left inside
      · rw [List.getElem?_eq_none (Nat.le_of_lt beyond), List.getElem?_eq_none]
        rw [List.length_append]
        exact beyond
    · rw [rest other same]

theorem entry_func_eq_some {handle : FuncHandle} {decl : FuncDecl} :
    b.entry handle.entity = some (.func decl) ↔ b.funcs[handle.id]? = some decl := by
  simp [entry, declared, FuncHandle.entity]

/-- One declaration of a function takes the place of another. -/
theorem puts_set {handle : FuncHandle} {decl : FuncDecl}
    (there : b.funcs[handle.id]? = some decl) (decl' : FuncDecl) :
    b.Puts handle.entity (.func decl') { b with funcs := b.funcs.set handle.id decl' } := by
  have inside := (List.getElem?_eq_some_iff.mp there).1
  refine ⟨entry_func_eq_some.mpr (List.getElem?_set_self inside), ?_⟩
  rintro ⟨kind, id⟩ other
  cases kind with
  | func =>
      have apart : handle.id ≠ id := fun same => other (same ▸ rfl)
      simp only [entry, declared, List.getElem?_map, List.getElem?_set_ne apart]
  | _ => rfl

end ModuleBuilder

/-- What an operation does that is not refused: it declares one more entity and
gives its handle to the client, or it defines a function that was pending. -/
inductive Operation.Effects (b : ModuleBuilder) : Option Handle → ModuleBuilder → Prop
  | declared {b' : ModuleBuilder} {handle : Handle} {entry : Entry}
      (fresh : b.entry handle.entity = none) (puts : b.Puts handle.entity entry b')
      (fits : handle.Fits entry) : Effects b (some handle) b'
  | defined {b' : ModuleBuilder} {handle : FuncHandle} {body : FuncBody}
      (pending : b.entry handle.entity = some (.func ⟨handle.type, .pending⟩))
      (puts : b.Puts handle.entity (.func ⟨handle.type, .defined body⟩) b') : Effects b none b'

namespace Operation

variable {b b' : ModuleBuilder} {given : Option Handle}

theorem Effects.append {handle : Handle} {entry : Entry} (kind : ExternKind)
    (place : handle.entity = ⟨kind, b.count kind⟩)
    (more : b'.declared kind = b.declared kind ++ [entry])
    (rest : ∀ other, other ≠ kind → b'.declared other = b.declared other)
    (fits : handle.Fits entry) : Effects b (some handle) b' := by
  obtain ⟨fresh, puts⟩ := ModuleBuilder.puts_append kind more rest
  exact .declared (place ▸ fresh) (place ▸ puts) fits

theorem effects_addFunc (b : ModuleBuilder) (type : FuncType) (content : FuncContent) :
    Effects b (some (.func (b.addFunc type content).1)) (b.addFunc type content).2 := by
  refine .append .func rfl List.map_append (fun other apart => ?_) rfl
  cases other with
  | func => exact absurd rfl apart
  | _ => rfl

theorem effects_addGlobal (b : ModuleBuilder) (type : GlobalType) (content : GlobalContent) :
    Effects b (some (.global (b.addGlobal type content).1)) (b.addGlobal type content).2 := by
  refine .append .global rfl List.map_append (fun other apart => ?_) rfl
  cases other with
  | global => exact absurd rfl apart
  | _ => rfl

theorem effects_addTable {decl : TableDecl} {handle : TableHandle}
    (done : b.addTable decl = .ok (handle, b')) : Effects b (some (.table handle)) b' := by
  obtain ⟨-, -, -, rfl, rfl⟩ := ModuleBuilder.addTable_eq_ok.mp done
  refine .append .table rfl List.map_append (fun other apart => ?_) rfl
  cases other with
  | table => exact absurd rfl apart
  | _ => rfl

theorem effects_addMemory {decl : MemoryDecl} {handle : MemoryHandle}
    (done : b.addMemory decl = .ok (handle, b')) : Effects b (some (.memory handle)) b' := by
  obtain ⟨-, -, rfl, rfl⟩ := ModuleBuilder.addMemory_eq_ok.mp done
  refine .append .memory rfl List.map_append (fun other apart => ?_) rfl
  cases other with
  | memory => exact absurd rfl apart
  | _ => rfl

theorem effects_of_answer {op : Operation} (done : b.answer op = .ok (given, b')) :
    Effects b given b' := by
  cases op with
  | declareFunc type | importFunc name type =>
      cases done
      exact effects_addFunc b type _
  | importGlobal name type =>
      cases done
      exact effects_addGlobal b type _
  | func type client build =>
      obtain ⟨⟨handle, b₁⟩, made, same⟩ := Except.map_eq_ok.mp done
      cases same
      obtain ⟨body, -, added⟩ := ModuleBuilder.func_eq_ok.mp (Prod.ext made rfl)
      cases added
      exact effects_addFunc b type _
  | defineFunc handle client build =>
      obtain ⟨b₁, made, same⟩ := Except.map_eq_ok.mp done
      cases same
      obtain ⟨body, checked, -, rfl⟩ := ModuleBuilder.defineFunc_eq_ok.mp (Prod.ext made rfl)
      have pending := checkPending_eq_ok.mp checked
      exact .defined (ModuleBuilder.entry_func_eq_some.mpr pending)
        (ModuleBuilder.puts_set pending _)
  | global init isMutable =>
      obtain ⟨⟨handle, b₁⟩, made, same⟩ := Except.map_eq_ok.mp done
      cases same
      obtain ⟨-, added⟩ := ModuleBuilder.global_eq_ok.mp made
      cases added
      exact effects_addGlobal b _ _
  | table type elements | importTable name type =>
      obtain ⟨⟨handle, b₁⟩, made, same⟩ := Except.map_eq_ok.mp done
      cases same
      exact effects_addTable made
  | memory type data | importMemory name type data =>
      obtain ⟨⟨handle, b₁⟩, made, same⟩ := Except.map_eq_ok.mp done
      cases same
      exact effects_addMemory made

/-- An operation that is accepted is one that the library answers. -/
theorem answer_of_enact {op : Operation} (done : op.enact b = .ok given b') :
    b.answer op = .ok (given, b') := by
  rw [enact_eq] at done
  cases answered : b.answer op with
  | error e =>
      rw [answered] at done
      cases done
  | ok result =>
      rw [answered] at done
      cases done
      rfl

/-- What an operation does can be read off its result. -/
theorem effects_of_enact {op : Operation} (done : op.enact b = .ok given b') :
    Effects b given b' :=
  effects_of_answer (answer_of_enact done)

/-- Whatever was checked before the refusal, nothing was changed. -/
theorem unchanged_of_enact_error {op : Operation} {e : BuildError}
    (failed : op.enact b = .error e b') : b' = b := by
  rw [enact_eq] at failed
  cases answered : b.answer op <;> rw [answered] at failed <;> cases failed
  rfl

/-- A pending function takes any body that can be constructed. -/
theorem enact_defineFunc {handle : FuncHandle} {σ : Type} {client : σ}
    {build : Construction σ Unit} {body : FuncBody}
    (pending : b.entry handle.entity = some (.func ⟨handle.type, .pending⟩))
    (made : (FuncBody.construct handle.type client build).1 = .ok body) :
    ∃ b', (Operation.defineFunc handle client build).enact b = .ok none b' ∧
      b'.entry handle.entity = some (.func ⟨handle.type, .defined body⟩) := by
  have declared := ModuleBuilder.entry_func_eq_some.mp pending
  have done := ModuleBuilder.defineFunc_eq_ok.mpr
    ⟨body, checkPending_eq_ok.mpr declared, Prod.ext made rfl, rfl⟩
  refine ⟨_, ?_, (ModuleBuilder.puts_set declared ⟨handle.type, .defined body⟩).there⟩
  rw [enact_eq, ModuleBuilder.answer, done]
  rfl

end Operation

/-! ## What stays of a builder -/

/-- Whatever was declared still is, and is what it was but for a body that was
filled in. -/
def ModuleBuilder.Becomes (b b' : ModuleBuilder) : Prop :=
  ∀ entity entry, b.entry entity = some entry →
    ∃ entry', b'.entry entity = some entry' ∧ entry.Becomes entry'

theorem ModuleBuilder.Becomes.refl (b : ModuleBuilder) : b.Becomes b :=
  fun _ entry there => ⟨entry, there, .same entry⟩

theorem ModuleBuilder.Becomes.trans {b b' b'' : ModuleBuilder} (first : b.Becomes b')
    (second : b'.Becomes b'') : b.Becomes b'' := by
  intro entity entry there
  obtain ⟨entry', there', becomes⟩ := first entity entry there
  obtain ⟨entry'', there'', becomes'⟩ := second entity entry' there'
  exact ⟨entry'', there'', becomes.trans becomes'⟩

theorem Operation.Effects.becomes {b b' : ModuleBuilder} {given : Option Handle}
    (h : Effects b given b') : b.Becomes b' := by
  intro entity entry there
  cases h with
  | declared fresh puts fits =>
      have other : entity ≠ _ := fun same => by
        rw [same, fresh] at there
        cases there
      exact ⟨entry, (puts.others entity other).trans there, .same entry⟩
  | @defined _ handle body pending puts =>
      by_cases same : entity = handle.entity
      · subst same
        cases pending.symm.trans there
        exact ⟨_, puts.there, .defined handle.type body⟩
      · exact ⟨entry, (puts.others entity same).trans there, .same entry⟩

/-! ## Runs -/

/-- A builder and the handles that its client was given. -/
structure Ledger where
  builder : ModuleBuilder := {}
  given : List Handle := []

namespace Ledger

open Relation (ReflTransGen)

/-- One operation, which may be refused. -/
inductive Step : Ledger → Ledger → Prop
  | accepted {l : Ledger} (op : Operation) {given : Option Handle} {b' : ModuleBuilder}
      (done : op.enact l.builder = .ok given b') : Step l ⟨b', l.given ++ given.toList⟩
  | refused {l : Ledger} (op : Operation) {e : BuildError} {b' : ModuleBuilder}
      (failed : op.enact l.builder = .error e b') : Step l ⟨b', l.given⟩

/-- Any number of operations. -/
def Steps : Ledger → Ledger → Prop := ReflTransGen Step

variable {l l' : Ledger}

/-- Every handle denotes a declaration of its type, and no two the same one. -/
structure Sound (l : Ledger) : Prop where
  denotes : ∀ handle ∈ l.given, ∃ entry, l.builder.entry handle.entity = some entry ∧
    handle.Fits entry
  distinct : (l.given.map Handle.entity).Nodup

theorem Step.becomes (step : Step l l') : l.builder.Becomes l'.builder := by
  cases step with
  | accepted op done => exact (Operation.effects_of_enact done).becomes
  | refused op failed => exact Operation.unchanged_of_enact_error failed ▸ .refl _

theorem Step.given_grows (step : Step l l') : l.given <+: l'.given := by
  cases step with
  | accepted op done => exact List.prefix_append _ _
  | refused op failed => exact List.prefix_rfl

theorem Sound.step (h : l.Sound) (step : Step l l') : l'.Sound := by
  have old : ∀ handle ∈ l.given, ∃ entry, l'.builder.entry handle.entity = some entry ∧
      handle.Fits entry := fun handle member => by
    obtain ⟨entry, there, fits⟩ := h.denotes handle member
    obtain ⟨entry', there', becomes⟩ := step.becomes _ _ there
    exact ⟨entry', there', becomes.fits fits⟩
  cases step with
  | refused op failed => exact ⟨old, h.distinct⟩
  | accepted op done =>
      cases Operation.effects_of_enact done with
      | defined pending puts =>
          rw [Option.toList_none, List.append_nil]
          exact ⟨List.append_nil l.given ▸ old, h.distinct⟩
      | @declared _ handle entry fresh puts fits =>
          refine ⟨fun handle' member => ?_, ?_⟩
          · rcases List.mem_append.mp member with before | new
            · exact old handle' before
            · cases List.mem_singleton.mp new
              exact ⟨entry, puts.there, fits⟩
          · rw [List.map_append, List.nodup_append]
            refine ⟨h.distinct, List.nodup_singleton _, fun entity before entity' new => ?_⟩
            -- The entity of the new handle was not declared before.
            obtain ⟨handle', member, rfl⟩ := List.mem_map.mp before
            obtain ⟨entry', there, -⟩ := h.denotes handle' member
            cases List.mem_singleton.mp new
            intro same
            rw [same, fresh] at there
            cases there

theorem Steps.becomes (steps : Steps l l') :
    l.given <+: l'.given ∧ l.builder.Becomes l'.builder := by
  induction steps with
  | refl => exact ⟨List.prefix_rfl, .refl _⟩
  | tail _ step ih => exact ⟨ih.1.trans step.given_grows, ih.2.trans step.becomes⟩

theorem Steps.sound (steps : Steps l l') (h : l.Sound) : l'.Sound := by
  induction steps with
  | refl => exact h
  | tail _ step ih => exact ih.step step

/-- Handles stay true, and a declaration that fails changes nothing. After any
sequence of operations each handle that was given denotes a declaration of the
type that it carries, no two of them the same one; whatever is done then, the
handle denotes that declaration, in which nothing changes but that a pending
function is defined. In place the operations do what the library answers. Where
one of them fails the builder is as it was, so a pending function can still be
given any body that can be constructed. -/
theorem handles_stay_true (reached : Steps {} l) :
    (∀ handle ∈ l.given, ∃ entry, l.builder.entry handle.entity = some entry ∧
      handle.Fits entry) ∧
    (l.given.map Handle.entity).Nodup ∧
    (∀ l', Steps l l' → l.given <+: l'.given ∧
      ∀ entity entry, l.builder.entry entity = some entry →
        ∃ entry', l'.builder.entry entity = some entry' ∧ entry.Becomes entry') ∧
    (∀ op : Operation, op.enact l.builder =
      match l.builder.answer op with
      | .ok (given, b') => .ok given b'
      | .error e => .error e l.builder) ∧
    (∀ (op : Operation) e b', op.enact l.builder = .error e b' → b' = l.builder ∧
      ∀ handle : FuncHandle,
        l.builder.entry handle.entity = some (.func ⟨handle.type, .pending⟩) →
        ∀ (σ : Type) (client : σ) build body,
          (FuncBody.construct handle.type client build).1 = .ok body →
          ∃ b'', (Operation.defineFunc handle client build).enact b' = .ok none b'' ∧
            b''.entry handle.entity = some (.func ⟨handle.type, .defined body⟩)) := by
  have sound : l.Sound := reached.sound ⟨nofun, List.nodup_nil⟩
  refine ⟨sound.denotes, sound.distinct, fun l' steps => steps.becomes,
    fun op => op.enact_eq l.builder, fun op e b' failed => ?_⟩
  obtain rfl := Operation.unchanged_of_enact_error failed
  exact ⟨rfl, fun handle pending σ client build body made =>
    Operation.enact_defineFunc pending made⟩

/-- A function is declared, a global is imported, and a body is refused; then the
function gets another body. -/
theorem handles_stay_true_retried :
    let f : FuncHandle := ⟨0, ⟨[], [.i32]⟩⟩
    let g : GlobalHandle := ⟨0, ⟨.i64, false⟩⟩
    let constant : Construction Unit Unit := do
      let _ ← Construction.i32Const 7
    ∃ l e b' body b'', Steps {} l ∧ l.given = [.func f, .global g] ∧
      (Operation.defineFunc f () (pure ())).enact l.builder = .error e b' ∧ b' = l.builder ∧
      (FuncBody.construct f.type () constant).1 = .ok body ∧
      (Operation.defineFunc f () constant).enact b' = .ok none b'' ∧
      b''.entry f.entity = some (.func ⟨f.type, .defined body⟩) := by
  intro f g constant
  let b : ModuleBuilder := {
    funcs := [⟨f.type, .pending⟩]
    globals := [⟨g.type, .imported ⟨"m", "g"⟩⟩] }
  have steps : Steps {} ⟨b, [.func f, .global g]⟩ :=
    ((ReflTransGen.refl.tail (.accepted (.declareFunc f.type) rfl)).tail
      (.refused (.defineFunc f () (pure () : Construction Unit Unit)) rfl)).tail
      (.accepted (.importGlobal ⟨"m", "g"⟩ g.type) rfl)
  obtain ⟨-, -, -, -, failing⟩ := handles_stay_true steps
  obtain ⟨same, retry⟩ := failing (.defineFunc f () (pure () : Construction Unit Unit)) _ _ rfl
  obtain ⟨b'', done, defined⟩ := retry f rfl Unit () constant _ rfl
  exact ⟨_, _, _, _, b'', steps, rfl, rfl, same, rfl, done, defined⟩

end Ledger

end Wasm
