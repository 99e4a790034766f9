import Mathlib.Data.List.Sort
import Mathlib.Order.Monotone.Basic
import Wasm.Assembly.Build
import Wasm.Proofs.Assembly.Closure
import Wasm.Proofs.Body.Linked
import Wasm.Proofs.Body.Renaming

/-!
# Building under other ids

Ids show in a module only by the order in which they stand. If a builder has
everything that another one has, under other ids but in the same order, then
the same roots find the same entities with it, these get the same numbers, and
the module is the same.
-/

namespace Wasm

/-! ## What has ids -/

section Rename

variable (ρ : Renaming)

def ConstExpr.rename : ConstExpr → ConstExpr
  | .refFunc handle => .refFunc (handle.rename ρ)
  | .globalGet handle => .globalGet (handle.rename ρ)
  | other => other

def FuncBody.rename (body : FuncBody) : FuncBody :=
  { body with code := Draft.renameAll ρ body.code }

def FuncDecl.rename (decl : FuncDecl) : FuncDecl :=
  match decl.content with
  | .defined body => { decl with content := .defined (body.rename ρ) }
  | _ => decl

def GlobalDecl.rename (decl : GlobalDecl) : GlobalDecl :=
  match decl.content with
  | .defined init => { decl with content := .defined (init.rename ρ) }
  | _ => decl

def TableDecl.rename (decl : TableDecl) : TableDecl :=
  { decl with elements := decl.elements.map (List.map (ConstExpr.rename ρ)) }

def Roots.rename (roots : Roots) : Roots where
  exports := roots.exports.map (Prod.map id (Entity.rename ρ))
  start := roots.start.map (FuncHandle.rename ρ)

def Reach.rename (reach : Reach) : Reach :=
  { reach with
    entities := reach.entities.map (Entity.rename ρ)
    mentioned := reach.mentioned.map (ρ .func) }

def IndexSpace.rename (space : IndexSpace) : IndexSpace :=
  { space with entities := space.entities.map (Entity.rename ρ) }

end Rename

variable {ρ : Renaming}

theorem ConstExpr.type_rename (init : ConstExpr) : (init.rename ρ).type = init.type := by
  cases init <;> rfl

theorem ConstExpr.check_rename (init : ConstExpr) : (init.rename ρ).check = init.check := by
  cases init <;> rfl

theorem ConstExpr.references_rename (init : ConstExpr) :
    (init.rename ρ).references = init.references.map (Reference.rename ρ) := by
  cases init <;> rfl

theorem FuncDecl.type_rename (decl : FuncDecl) : (decl.rename ρ).type = decl.type := by
  unfold rename
  split <;> rfl

theorem FuncDecl.isPending_rename (decl : FuncDecl) :
    (decl.rename ρ).content.isPending = decl.content.isPending := by
  unfold rename
  split <;> simp_all [FuncContent.isPending]

theorem FuncDecl.isImported_rename (decl : FuncDecl) :
    (decl.rename ρ).content.isImported = decl.content.isImported := by
  unfold rename
  split <;> simp_all [FuncContent.isImported]

theorem GlobalDecl.isImported_rename (decl : GlobalDecl) :
    (decl.rename ρ).content.isImported = decl.content.isImported := by
  unfold rename
  split <;> simp_all [GlobalContent.isImported]

theorem FuncDecl.bodySignatures_rename (decl : FuncDecl) :
    ModuleBuilder.bodySignatures (decl.rename ρ) = ModuleBuilder.bodySignatures decl := by
  obtain ⟨type, _ | body | name⟩ := decl
  · rfl
  · show (Draft.allReferences (Draft.renameAll ρ body.code)).filterMap _ =
      (Draft.allReferences body.code).filterMap _
    rw [Draft.allReferences_rename, List.filterMap_map]
    refine List.filterMap_congr fun r _ => ?_
    cases r <;> rfl
  · rfl

theorem Roots.references_rename (roots : Roots) :
    (roots.rename ρ).references = roots.references.map (Reference.rename ρ) := by
  unfold references Roots.rename
  rw [List.map_append, List.map_map, List.map_map]
  cases roots.start <;> rfl

theorem Entity.rename_injective (injective : ∀ kind, (ρ kind).Injective) :
    (Entity.rename ρ).Injective := by
  rintro ⟨kind, id⟩ ⟨kind', id'⟩ same
  obtain ⟨rfl, same⟩ := Entity.mk.inj same
  exact congrArg (Entity.mk kind) (injective kind same)

/-! ## Linking -/

theorem InstrDef.splitBodies_rename (d : InstrDef) (first : List Draft) (indices : List UInt32) :
    d.splitBodies (Draft.renameAll ρ first) indices = d.splitBodies first indices := by
  rw [splitBodies, splitBodies, Draft.allReferences_rename, List.length_map]

mutual

/-- Which ids the references have does not matter once there are numbers. -/
theorem Capture.link_rename (d : InstrDef) (indices : List UInt32) :
    (capture : Capture) → (capture.rename ρ).link d indices = capture.link d indices
  | .literal immediate => by rw [Capture.rename]
  | .block type body => by
      rw [Capture.rename]
      unfold Capture.link
      cases d.linking <;> simp only [InstrDef.captured, Draft.linkAll_rename _ body]
  | .ifThen type thenBody => by
      rw [Capture.rename]
      unfold Capture.link
      cases d.linking <;>
        simp only [InstrDef.captured, InstrDef.splitBodies_rename, Draft.linkAll_rename _ thenBody]
  | .ifElse type thenBody elseBody => by
      rw [Capture.rename]
      unfold Capture.link
      cases d.linking <;>
        simp only [InstrDef.captured, InstrDef.splitBodies_rename, Draft.linkAll_rename _ thenBody,
          Draft.linkAll_rename _ elseBody]

theorem Draft.link_rename (indices : List UInt32) :
    (draft : Draft) → (draft.rename ρ).link indices = draft.link indices
  | ⟨d, references, params, results, capture⟩ => by
      rw [Draft.rename, Draft.link, Draft.link, Capture.link_rename]

theorem Draft.linkAll_rename (indices : List UInt32) :
    (body : List Draft) →
      Draft.linkAll indices (Draft.renameAll ρ body) = Draft.linkAll indices body
  | [] => by rw [Draft.renameAll]
  | draft :: rest => by
      have name : (draft.rename ρ).name = draft.name := by
        cases draft
        rw [Draft.rename]
        rfl
      rw [Draft.renameAll, Draft.linkAll, Draft.linkAll, Draft.references_rename, List.length_map,
        name, Draft.link_rename _ draft, Draft.linkAll_rename _ rest]

end

/-! ## Numbers -/

namespace IndexSpace

variable {space : IndexSpace}

theorem ofKind_rename (kind : ExternKind) :
    (space.rename ρ).ofKind kind = (space.ofKind kind).map (Entity.rename ρ) :=
  List.filter_map

/-- An item is found where it was before all items were changed. -/
theorem idxOf?_map {α β : Type} [BEq α] [LawfulBEq α] [BEq β] [LawfulBEq β] {f : α → β}
    (injective : f.Injective) (items : List α) (a : α) :
    (items.map f).idxOf? (f a) = items.idxOf? a := by
  have same : (fun b => b == f a) ∘ f = (· == a) := by
    funext b
    rw [Function.comp_apply, Bool.eq_iff_iff, beq_iff_eq, beq_iff_eq, injective.eq_iff]
  rw [List.idxOf?, List.findIdx?_map, same, List.idxOf?]

variable (injective : ∀ kind, (ρ kind).Injective)

include injective

theorem index?_rename (reference : Reference) :
    (space.rename ρ).index? (reference.rename ρ) = space.index? reference := by
  cases reference with
  | entity e =>
      show ((space.rename ρ).ofKind e.kind).idxOf? (e.rename ρ) = (space.ofKind e.kind).idxOf? e
      rw [ofKind_rename, idxOf?_map (Entity.rename_injective injective)]
  | _ => rfl

theorem index_rename (reference : Reference) :
    ((space.rename ρ).index (reference.rename ρ)).Agree (space.index reference) := by
  rw [index, index, index?_rename injective]
  cases space.index? reference with
  | some i => exact .of_eq rfl
  | none => exact .failed _ _

theorem linkBody_rename (body : List Draft) :
    ((space.rename ρ).linkBody (Draft.renameAll ρ body)).Agree (space.linkBody body) := by
  rw [linkBody, linkBody, Draft.allReferences_rename]
  exact (Except.Agree.mapM fun r _ => index_rename injective r).bind fun indices =>
    .of_eq (Draft.linkAll_rename indices body)

theorem linkConst_rename (init : ConstExpr) :
    ((space.rename ρ).linkConst (init.rename ρ)).Agree (space.linkConst init) := by
  cases init with
  | refFunc handle =>
      exact (index_rename injective (.func handle.id)).bind fun n => .of_eq rfl
  | globalGet handle =>
      exact (index_rename injective (.global handle.id)).bind fun n => .of_eq rfl
  | _ => exact .of_eq rfl

end IndexSpace

/-! ## Builders -/

/-- The second builder has the entities of the first one under other ids, in
the same order. It may have others in between. -/
structure Renamed (ρ : Renaming) (b b' : ModuleBuilder) : Prop where
  increasing : ∀ kind, StrictMono (ρ kind)
  funcs : ∀ id, b'.funcs[ρ .func id]? = b.funcs[id]?.map (FuncDecl.rename ρ)
  globals : ∀ id, b'.globals[ρ .global id]? = b.globals[id]?.map (GlobalDecl.rename ρ)
  tables : ∀ id, b'.tables[ρ .table id]? = b.tables[id]?.map (TableDecl.rename ρ)
  memories : ∀ id, b'.memories[ρ .memory id]? = b.memories[id]?

/-- Looking something up shows which places there are. -/
theorem lt_length_iff {α β : Type} {items : List α} {items' : List β} {f : α → β} {i j : Nat}
    (same : items'[j]? = items[i]?.map f) : j < items'.length ↔ i < items.length := by
  rw [← Nat.not_le, ← Nat.not_le, ← List.getElem?_eq_none_iff, ← List.getElem?_eq_none_iff, same,
    Option.map_eq_none_iff]

theorem contains_map {α β : Type} [BEq α] [LawfulBEq α] [BEq β] [LawfulBEq β] {f : α → β}
    (injective : f.Injective) (items : List α) (a : α) :
    (items.map f).contains (f a) = items.contains a := by
  rw [Bool.eq_iff_iff, List.contains_iff_mem, List.contains_iff_mem,
    List.mem_map_of_injective injective]

namespace Renamed

variable {b b' : ModuleBuilder} {kind : ExternKind} (h : Renamed ρ b b')

include h

theorem injective (kind : ExternKind) : (ρ kind).Injective := (h.increasing kind).injective

theorem contains_rename (entities : List Entity) (entity : Entity) :
    (entities.map (Entity.rename ρ)).contains (entity.rename ρ) = entities.contains entity :=
  contains_map (Entity.rename_injective h.injective) entities entity

theorem mem_entitiesOf_rename {id : Nat} :
    ⟨kind, ρ kind id⟩ ∈ b'.entitiesOf kind ↔ ⟨kind, id⟩ ∈ b.entitiesOf kind := by
  cases kind <;> simp only [ModuleBuilder.entitiesOf, List.mem_map, List.mem_range, Entity.mk.injEq,
    true_and, exists_eq_right]
  · exact lt_length_iff (h.funcs id)
  · exact lt_length_iff (h.tables id)
  · exact lt_length_iff ((h.memories id).trans Option.map_id_apply.symm)
  · exact lt_length_iff (h.globals id)

/-! ## Following references -/

theorem referencesOf_rename (entity : Entity) : (b'.referencesOf (entity.rename ρ)).Agree
    ((b.referencesOf entity).map (List.map (Reference.rename ρ))) := by
  obtain ⟨kind, id⟩ := entity
  unfold ModuleBuilder.referencesOf Entity.rename
  cases kind with
  | func =>
      simp only [h.funcs]
      rcases b.funcs[id]? with _ | ⟨type, _ | body | name⟩
      · exact .failed _ _
      · exact .failed _ _
      · exact .of_eq (congrArg Except.ok (Draft.allReferences_rename body.code))
      · exact .of_eq rfl
  | global =>
      simp only [h.globals]
      rcases b.globals[id]? with _ | ⟨type, init | name⟩
      · exact .failed _ _
      · exact .of_eq (congrArg Except.ok init.references_rename)
      · exact .of_eq rfl
  | table =>
      simp only [h.tables]
      rcases b.tables[id]? with _ | ⟨type, _ | elements, name⟩
      · exact .failed _ _
      · exact .of_eq rfl
      · refine .of_eq (congrArg Except.ok ?_)
        show (elements.map (ConstExpr.rename ρ)).flatMap ConstExpr.references =
          (elements.flatMap ConstExpr.references).map (Reference.rename ρ)
        rw [List.flatMap_map, List.map_flatMap]
        exact List.flatMap_congr fun init _ => init.references_rename
  | memory =>
      simp only [h.memories]
      cases b.memories[id]? with
      | none => exact .failed _ _
      | some decl => exact .of_eq rfl

/-- The same entities are found. -/
theorem follow_rename (reach : Reach) (queue : List Reference) :
    (b'.follow (reach.rename ρ) (queue.map (Reference.rename ρ))).Agree
      ((b.follow reach queue).map (Reach.rename ρ)) := by
  fun_induction ModuleBuilder.follow b reach queue with
  | case1 reach => exact .of_eq ModuleBuilder.follow_nil
  | case2 reach entity queue seen ih =>
      rw [← h.contains_rename] at seen
      exact (Except.Agree.of_eq (ModuleBuilder.follow_seen seen)).trans ih
  | case3 reach entity queue new e failed =>
      rw [← h.contains_rename] at new
      obtain ⟨e', failed'⟩ := (h.referencesOf_rename entity).eq_error (by rw [failed]; rfl)
      exact (Except.Agree.of_eq (ModuleBuilder.follow_failed new failed')).trans (.failed _ _)
  | case4 reach entity queue new references known ih =>
      rw [← h.contains_rename] at new
      have known' := (h.referencesOf_rename entity).symm.eq_ok (by rw [known]; rfl)
      rw [List.map_append] at ih
      exact (Except.Agree.of_eq (ModuleBuilder.follow_new new known')).trans ih
  | case5 reach type queue ih =>
      rw [List.map_cons, Reference.rename, ModuleBuilder.follow]
      exact ih
  | case6 reach queue ih =>
      rw [List.map_cons, Reference.rename, ModuleBuilder.follow]
      exact ih
  | case7 reach id queue mentioned ih =>
      rw [List.map_cons, Reference.rename, ModuleBuilder.follow]
      have same := contains_map (h.injective .func) reach.mentioned id
      have listed : (if (reach.rename ρ).mentioned.contains (ρ .func id) then
          (reach.rename ρ).mentioned else (reach.rename ρ).mentioned ++ [ρ .func id]) =
          mentioned.map (ρ .func) := by
        simp only [Reach.rename, same, mentioned]
        split
        · rfl
        · rw [List.map_append, List.map_singleton]
      rw [listed]
      exact ih

/-- If a memory is added, it has to be the counterpart of one of the first builder. -/
theorem withMemory_rename {reach found' : Reach}
    (done : b'.withMemory (reach.rename ρ) = .ok found')
    (spared : ∀ e ∈ found'.entities, ∃ id, ρ e.kind id = e.id) :
    ∃ found, b.withMemory reach = .ok found ∧ found' = found.rename ρ := by
  have reached : (reach.rename ρ).entities.any (·.kind == .memory) =
      reach.entities.any (·.kind == .memory) := List.any_map
  have marked : (reach.rename ρ).needsMemory = reach.needsMemory := rfl
  rw [ModuleBuilder.withMemory, reached, marked] at done
  rw [ModuleBuilder.withMemory]
  split at done
  · rw [if_pos ‹_›]
    split at done
    · cases done
    · rename_i some
      cases done
      -- The first memory is the counterpart of some memory, hence of the first one.
      obtain ⟨id, place⟩ := spared ⟨.memory, 0⟩ List.mem_cons_self
      have least : ρ .memory 0 ≤ ρ .memory id := (h.increasing .memory).monotone (Nat.zero_le id)
      have first : ρ .memory 0 = 0 := by
        rw [place] at least
        exact Nat.le_zero.mp least
      have memories := lt_length_iff ((h.memories 0).trans Option.map_id_apply.symm)
      rw [first] at memories
      have own : b.memories.isEmpty = false := by
        simpa [List.length_pos_iff] using memories.mp (by simpa [List.length_pos_iff] using some)
      rw [own]
      refine ⟨_, rfl, ?_⟩
      rw [Reach.rename, Reach.rename, List.map_cons, Entity.rename, first]
  · rw [if_neg ‹_›]
    cases done
    exact ⟨_, rfl, rfl⟩

theorem reach_rename {roots : Roots} {found' : Reach}
    (done : b'.reach (roots.rename ρ) = .ok found')
    (spared : ∀ e ∈ found'.entities, ∃ id, ρ e.kind id = e.id) :
    ∃ found, b.reach roots = .ok found ∧ found' = found.rename ρ := by
  obtain ⟨reach', followed', more⟩ := Except.bind_eq_ok.mp done
  rw [Roots.references_rename] at followed'
  obtain ⟨reach, followed, rfl⟩ :=
    Except.map_eq_ok.mp ((h.follow_rename {} roots.references).eq_ok followed')
  obtain ⟨found, added, rfl⟩ := h.withMemory_rename more spared
  exact ⟨found, Except.bind_eq_ok.mpr ⟨reach, followed, added⟩, rfl⟩

/-! ## Numbers -/

/-- The entities of a class that were reached stand in the same order. -/
theorem reachedOf_rename (reach : Reach) (kind : ExternKind) :
    b'.reachedOf (reach.rename ρ) kind = (b.reachedOf reach kind).map (Entity.rename ρ) := by
  have ordered : ((b.reachedOf reach kind).map (Entity.rename ρ)).Pairwise (·.id < ·.id) := by
    refine List.pairwise_map.mpr (((b.entitiesOf_pairwise kind).filter _).imp_of_mem ?_)
    intro e e' member member' less
    rw [Entity.rename, Entity.rename,
      ModuleBuilder.kind_of_mem_entitiesOf (List.mem_filter.mp member).1,
      ModuleBuilder.kind_of_mem_entitiesOf (List.mem_filter.mp member').1]
    exact h.increasing kind less
  have irreflexive : Std.Irrefl fun e e' : Entity => e.id < e'.id := ⟨fun e => Nat.lt_irrefl e.id⟩
  have antisymmetric : Std.Antisymm fun e e' : Entity => e.id < e'.id :=
    ⟨fun _ _ less greater => absurd less (Nat.lt_asymm greater)⟩
  -- Both lists are sorted, so it is enough that they have the same members.
  refine ((b'.entitiesOf_pairwise kind).filter _).eq_of_mem_iff ordered fun e => ?_
  rw [List.mem_filter, List.mem_map, List.contains_iff_mem]
  constructor
  · rintro ⟨declared, found⟩
    obtain ⟨⟨kind', id⟩, reached, rfl⟩ := List.mem_map.mp found
    cases ModuleBuilder.kind_of_mem_entitiesOf declared
    exact ⟨_, List.mem_filter.mpr
      ⟨h.mem_entitiesOf_rename.mp declared, List.contains_iff_mem.mpr reached⟩, rfl⟩
  · rintro ⟨⟨kind', id⟩, among, rfl⟩
    obtain ⟨declared, reached⟩ := List.mem_filter.mp among
    cases ModuleBuilder.kind_of_mem_entitiesOf declared
    exact ⟨h.mem_entitiesOf_rename.mpr declared,
      List.mem_map_of_mem (List.contains_iff_mem.mp reached)⟩

theorem isImported_rename (entity : Entity) :
    b'.isImported (entity.rename ρ) = b.isImported entity := by
  obtain ⟨kind, id⟩ := entity
  unfold ModuleBuilder.isImported Entity.rename
  cases kind with
  | func =>
      simp only [h.funcs]
      cases b.funcs[id]? with
      | none => rfl
      | some decl => exact decl.isImported_rename
  | global =>
      simp only [h.globals]
      cases b.globals[id]? with
      | none => rfl
      | some decl => exact decl.isImported_rename
  | table =>
      simp only [h.tables]
      cases b.tables[id]? <;> rfl
  | memory =>
      simp only [h.memories]

theorem order_rename (reach : Reach) :
    b'.order (reach.rename ρ) = (b.order reach).map (Entity.rename ρ) := by
  have classes : ∀ (b : ModuleBuilder) reach, b.entities.filter reach.entities.contains =
      b.reachedOf reach .func ++ b.reachedOf reach .table ++ b.reachedOf reach .memory ++
        b.reachedOf reach .global := fun b reach => by
    simp only [ModuleBuilder.entities, List.filter_append, ModuleBuilder.reachedOf]
  have imported : b'.isImported ∘ Entity.rename ρ = b.isImported := funext h.isImported_rename
  have defined : (! b'.isImported ·) ∘ Entity.rename ρ = (! b.isImported ·) :=
    funext fun e => congrArg not (h.isImported_rename e)
  simp only [ModuleBuilder.order, classes, h.reachedOf_rename, ← List.map_append, List.filter_map,
    imported, defined]

theorem funcDecl?_rename (entity : Entity) :
    b'.funcDecl? (entity.rename ρ) = (b.funcDecl? entity).map (FuncDecl.rename ρ) := by
  obtain ⟨kind, id⟩ := entity
  unfold ModuleBuilder.funcDecl?
  cases kind with
  | func => exact h.funcs id
  | _ => rfl

theorem signatures_rename (order : List Entity) :
    b'.signatures (order.map (Entity.rename ρ)) = b.signatures order := by
  have decls : (order.map (Entity.rename ρ)).filterMap b'.funcDecl? =
      (order.filterMap b.funcDecl?).map (FuncDecl.rename ρ) := by
    rw [List.filterMap_map, List.map_filterMap]
    exact List.filterMap_congr fun e _ => h.funcDecl?_rename e
  have types : FuncDecl.type ∘ FuncDecl.rename ρ = FuncDecl.type := funext FuncDecl.type_rename
  rw [ModuleBuilder.signatures, ModuleBuilder.signatures, decls, List.map_map, types,
    List.flatMap_map]
  exact congrArg _ (congrArg _ (List.flatMap_congr fun decl _ => decl.bodySignatures_rename))

theorem indexSpace_rename (reach : Reach) :
    b'.indexSpace (reach.rename ρ) = (b.indexSpace reach).rename ρ := by
  simp only [ModuleBuilder.indexSpace, h.order_rename, h.signatures_rename, IndexSpace.rename]

/-! ## Parts -/

variable (space : IndexSpace)

theorem part_rename (entity : Entity) :
    (b'.part (space.rename ρ) (entity.rename ρ)).Agree (b.part space entity) := by
  have signature : ∀ type, ((space.rename ρ).index (.signature type)).Agree
      (space.index (.signature type)) := fun type =>
    IndexSpace.index_rename h.injective (.signature type)
  obtain ⟨kind, id⟩ := entity
  unfold ModuleBuilder.part Entity.rename
  cases kind with
  | func =>
      simp only [h.funcs]
      rcases b.funcs[id]? with _ | ⟨type, _ | body | name⟩
      · exact .failed _ _
      · exact (signature type).bind fun typeIndex => .failed _ _
      · exact (signature type).bind fun typeIndex =>
          (IndexSpace.linkBody_rename h.injective body.code).bind fun code => .of_eq rfl
      · exact (signature type).bind fun typeIndex => .of_eq rfl
  | global =>
      simp only [h.globals]
      rcases b.globals[id]? with _ | ⟨type, init | name⟩
      · exact .failed _ _
      · exact (IndexSpace.linkConst_rename h.injective init).bind fun code => .of_eq rfl
      · exact .of_eq rfl
  | table =>
      simp only [h.tables]
      rcases b.tables[id]? with _ | ⟨type, elements, name⟩
      · exact .failed _ _
      · exact .of_eq rfl
  | memory =>
      simp only [h.memories]
      rcases b.memories[id]? with _ | ⟨type, data, name⟩
      · exact .failed _ _
      · exact .of_eq rfl

theorem partsOf_rename (kind : ExternKind) :
    (b'.partsOf (space.rename ρ) kind).Agree (b.partsOf space kind) := by
  rw [ModuleBuilder.partsOf, ModuleBuilder.partsOf, IndexSpace.ofKind_rename]
  exact .mapM fun entity _ => h.part_rename space entity

theorem tableSegment_rename (entity : Entity) (isTable : entity.kind = .table) :
    (b'.tableSegment (space.rename ρ) (entity.rename ρ)).Agree (b.tableSegment space entity) := by
  have number : ((space.rename ρ).index (.entity (entity.rename ρ))).Agree
      (space.index (.entity entity)) := IndexSpace.index_rename h.injective (.entity entity)
  obtain ⟨kind, id⟩ := entity
  cases isTable
  unfold ModuleBuilder.tableSegment
  simp only [Entity.rename, h.tables]
  rcases b.tables[id]? with _ | ⟨type, _ | elements, name⟩
  · exact .of_eq rfl
  · exact .of_eq rfl
  · exact number.bind fun index =>
      (Except.Agree.mapM fun init _ => IndexSpace.linkConst_rename h.injective init).bind
        fun inits => .of_eq rfl

theorem memorySegment_rename (entity : Entity) (isMemory : entity.kind = .memory) :
    (b'.memorySegment (space.rename ρ) (entity.rename ρ)).Agree
      (b.memorySegment space entity) := by
  have number : ((space.rename ρ).index (.entity (entity.rename ρ))).Agree
      (space.index (.entity entity)) := IndexSpace.index_rename h.injective (.entity entity)
  obtain ⟨kind, id⟩ := entity
  cases isMemory
  unfold ModuleBuilder.memorySegment
  simp only [Entity.rename, h.memories]
  rcases b.memories[id]? with _ | ⟨type, _ | data, name⟩
  · exact .of_eq rfl
  · exact .of_eq rfl
  · exact number.bind fun index => .of_eq rfl

theorem mentionSegment_rename (mentioned : List Nat) :
    (ModuleBuilder.mentionSegment (space.rename ρ) (mentioned.map (ρ .func))).Agree
      (ModuleBuilder.mentionSegment space mentioned) := by
  unfold ModuleBuilder.mentionSegment
  rw [List.isEmpty_map]
  split
  · exact .of_eq rfl
  · refine (Except.Agree.mapM fun id _ => ?_).bind fun init => .of_eq rfl
    exact (IndexSpace.index_rename h.injective (.func id)).bind fun n => .of_eq rfl

/-! ## The module -/

theorem exports_rename (exports : List (String × Entity)) :
    ((exports.map (Prod.map id (Entity.rename ρ))).mapM fun (name, entity) =>
      ModuleBuilder.exportItem (space.rename ρ) name entity).Agree
      (exports.mapM fun (name, entity) => ModuleBuilder.exportItem space name entity) :=
  .mapM fun root _ =>
    (IndexSpace.index_rename h.injective (.entity root.2)).bind fun _ => .of_eq rfl

theorem start_rename (start : Option FuncHandle) :
    ((start.map (FuncHandle.rename ρ)).mapM fun handle =>
      (space.rename ρ).index (.func handle.id)).Agree
      (start.mapM fun handle => space.index (.func handle.id)) := by
  cases start with
  | none => exact .of_eq rfl
  | some handle =>
      exact (IndexSpace.index_rename h.injective (.func handle.id)).bind fun n => .of_eq rfl

/-- What was reached becomes the same module. -/
theorem assemble_rename (roots : Roots) (reach : Reach) :
    (b'.assemble (roots.rename ρ) (reach.rename ρ)).Agree (b.assemble roots reach) := by
  unfold ModuleBuilder.assemble
  rw [h.indexSpace_rename]
  refine (h.partsOf_rename _ .func).bind fun funcs => ?_
  refine (h.partsOf_rename _ .table).bind fun tables => ?_
  refine (h.partsOf_rename _ .memory).bind fun memories => ?_
  refine (h.partsOf_rename _ .global).bind fun globals => ?_
  refine (h.exports_rename _ roots.exports).bind fun exports => ?_
  refine (h.start_rename _ roots.start).bind fun start => ?_
  rw [IndexSpace.ofKind_rename, IndexSpace.ofKind_rename]
  refine (Except.Agree.mapM fun entity among => ?_).bind fun filled => ?_
  · exact h.tableSegment_rename _ entity (beq_iff_eq.mp (List.mem_filter.mp among).2)
  refine (h.mentionSegment_rename _ reach.mentioned).bind fun declared => ?_
  refine (Except.Agree.mapM fun entity among => ?_).bind fun data => .of_eq rfl
  exact h.memorySegment_rename _ entity (beq_iff_eq.mp (List.mem_filter.mp among).2)

end Renamed

end Wasm
