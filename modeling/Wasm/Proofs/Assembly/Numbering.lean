import Mathlib.Algebra.Group.Nat.Defs
import Mathlib.Data.List.Basic
import Mathlib.Tactic.Tauto
import Wasm.Assembly.IndexSpace
import Wasm.Proofs.Monads

/-!
# How entities are numbered

In each class the numbers go to the entities of the builder that belong to the
module: imports first, then definitions, both in the order of declaration.
-/

namespace Wasm

namespace ModuleBuilder

variable {b : ModuleBuilder} {roots : Roots} {reach : Reach} {kind : ExternKind} {entity : Entity}

/-! ## Entities that are reached -/

/-- Only entities of the builder are reached. -/
theorem mem_entities_of_follow {queue : List Reference} {found : Reach}
    (followed : b.follow reach queue = .ok found)
    (known : ∀ e ∈ reach.entities, e ∈ b.entities) : ∀ e ∈ found.entities, e ∈ b.entities := by
  fun_induction follow b reach queue with
  | case1 reach =>
      cases followed
      exact known
  | case2 reach entity queue _ ih => exact ih followed known
  | case3 => cases followed
  | case4 reach entity queue _ references found' ih =>
      refine ih followed fun e member => ?_
      rcases List.mem_cons.mp member with rfl | old
      · exact mem_entities_of_referencesOf found'
      · exact known e old
  | case5 reach type queue ih => exact ih followed known
  | case6 reach queue ih => exact ih followed known
  | case7 reach id queue mentioned ih => exact ih followed known

theorem mem_entities_of_reach (followed : b.reach roots = .ok reach) :
    ∀ e ∈ reach.entities, e ∈ b.entities := by
  obtain ⟨found, reached, more⟩ := Except.bind_eq_ok.mp followed
  have known := mem_entities_of_follow reached nofun
  rw [withMemory] at more
  split at more
  · -- Code uses memory and none was reached, so the first one is added, if there is one.
    split at more
    · cases more
    · rename_i some
      cases more
      intro e member
      rcases List.mem_cons.mp member with rfl | old
      · have : 0 < b.memories.length := List.length_pos_iff.mpr (by simpa using some)
        simp [entities, entitiesOf, this]
      · exact known e old
  · cases more
    exact known

/-! ## Entities of a class -/

theorem kind_of_mem_entitiesOf (member : entity ∈ b.entitiesOf kind) : entity.kind = kind := by
  obtain ⟨id, -, rfl⟩ := List.mem_map.mp member
  rfl

theorem entitiesOf_pairwise (b : ModuleBuilder) (kind : ExternKind) :
    (b.entitiesOf kind).Pairwise (·.id < ·.id) := by
  unfold entitiesOf
  rw [List.pairwise_map]
  exact List.pairwise_lt_range

/-- The entities of a class among all entities. -/
theorem filter_entities (b : ModuleBuilder) (kind : ExternKind) :
    b.entities.filter (·.kind == kind) = b.entitiesOf kind := by
  -- Of the four classes one is kept whole and the others go.
  have own : ∀ k, (b.entitiesOf k).filter (·.kind == kind) =
      if k = kind then b.entitiesOf k else [] := by
    intro k
    split
    · rename_i same
      refine List.filter_eq_self.mpr fun e member => ?_
      rw [kind_of_mem_entitiesOf member, same, beq_self_eq_true]
    · rename_i other
      refine List.filter_eq_nil_iff.mpr fun e member => ?_
      rw [kind_of_mem_entitiesOf member, beq_iff_eq]
      exact other
  rw [entities, List.filter_append, List.filter_append, List.filter_append, own, own, own, own]
  cases kind <;> simp

theorem mem_entitiesOf : entity ∈ b.entitiesOf kind ↔ entity ∈ b.entities ∧ entity.kind = kind := by
  rw [← filter_entities, List.mem_filter, beq_iff_eq]

/-! ## Entities of a module -/

/-- The entities of a class that belong to the module, as they were declared. -/
def reachedOf (b : ModuleBuilder) (reach : Reach) (kind : ExternKind) : List Entity :=
  (b.entitiesOf kind).filter reach.entities.contains

def importedOf (b : ModuleBuilder) (reach : Reach) (kind : ExternKind) : List Entity :=
  (b.reachedOf reach kind).filter b.isImported

def definedOf (b : ModuleBuilder) (reach : Reach) (kind : ExternKind) : List Entity :=
  (b.reachedOf reach kind).filter (! b.isImported ·)

/-- Imports have the first numbers. -/
theorem ofKind_indexSpace (b : ModuleBuilder) (reach : Reach) (kind : ExternKind) :
    (b.indexSpace reach).ofKind kind = b.importedOf reach kind ++ b.definedOf reach kind := by
  have reached : (b.entities.filter reach.entities.contains).filter (·.kind == kind) =
      b.reachedOf reach kind := by
    rw [List.filter_comm, filter_entities, reachedOf]
  have within : ∀ p : Entity → Bool, ((b.entities.filter reach.entities.contains).filter p).filter
      (·.kind == kind) = (b.reachedOf reach kind).filter p := by
    intro p
    rw [List.filter_comm, reached]
  rw [IndexSpace.ofKind, indexSpace, order, List.filter_append, within, within, importedOf,
    definedOf]

theorem importedOf_pairwise (b : ModuleBuilder) (reach : Reach) (kind : ExternKind) :
    (b.importedOf reach kind).Pairwise (·.id < ·.id) :=
  ((b.entitiesOf_pairwise kind).filter _).filter _

theorem definedOf_pairwise (b : ModuleBuilder) (reach : Reach) (kind : ExternKind) :
    (b.definedOf reach kind).Pairwise (·.id < ·.id) :=
  ((b.entitiesOf_pairwise kind).filter _).filter _

theorem isImported_of_mem (member : entity ∈ b.importedOf reach kind) :
    b.isImported entity = true :=
  (List.mem_filter.mp member).2

theorem not_isImported_of_mem (member : entity ∈ b.definedOf reach kind) :
    b.isImported entity = false := by
  simpa using (List.mem_filter.mp member).2

theorem filter_isImported_indexSpace (b : ModuleBuilder) (reach : Reach) (kind : ExternKind) :
    ((b.indexSpace reach).ofKind kind).filter b.isImported = b.importedOf reach kind := by
  rw [ofKind_indexSpace, List.filter_append, List.filter_eq_self.mpr fun _ => isImported_of_mem,
    List.filter_eq_nil_iff.mpr fun e member => by rw [not_isImported_of_mem member]; nofun,
    List.append_nil]

theorem filter_isDefined_indexSpace (b : ModuleBuilder) (reach : Reach) (kind : ExternKind) :
    ((b.indexSpace reach).ofKind kind).filter (! b.isImported ·) = b.definedOf reach kind := by
  rw [ofKind_indexSpace, List.filter_append,
    List.filter_eq_nil_iff.mpr fun e member => by rw [isImported_of_mem member]; nofun,
    List.filter_eq_self.mpr fun e member => by rw [not_isImported_of_mem member]; rfl,
    List.nil_append]

theorem ofKind_split (b : ModuleBuilder) (reach : Reach) (kind : ExternKind) :
    (b.indexSpace reach).ofKind kind =
      ((b.indexSpace reach).ofKind kind).filter b.isImported ++
        ((b.indexSpace reach).ofKind kind).filter (! b.isImported ·) := by
  rw [filter_isImported_indexSpace, filter_isDefined_indexSpace, ofKind_indexSpace]

theorem mem_ofKind_indexSpace : entity ∈ (b.indexSpace reach).ofKind kind ↔
    entity.kind = kind ∧ entity ∈ b.entities ∧ entity ∈ reach.entities := by
  rw [ofKind_indexSpace, importedOf, definedOf, List.mem_append, List.mem_filter, List.mem_filter,
    reachedOf, List.mem_filter, mem_entitiesOf, List.contains_iff_mem]
  cases b.isImported entity <;> simp <;> tauto

theorem ofKind_nodup (b : ModuleBuilder) (reach : Reach) (kind : ExternKind) :
    ((b.indexSpace reach).ofKind kind).Nodup := by
  have distinct : ∀ {l : List Entity}, l.Pairwise (·.id < ·.id) → l.Nodup := fun h =>
    h.imp fun less same => absurd (congrArg Entity.id same) (Nat.ne_of_lt less)
  rw [ofKind_indexSpace, List.nodup_append]
  refine ⟨distinct (b.importedOf_pairwise reach kind),
    distinct (b.definedOf_pairwise reach kind), ?_⟩
  -- No entity is both imported and defined.
  rintro e imported _ defined rfl
  cases (isImported_of_mem imported).symm.trans (not_isImported_of_mem defined)

end ModuleBuilder

/-! ## Numbers -/

/-- `n` is the number of `a`, which is its place in the list. -/
def NumberOf {α : Type} (items : List α) (a : α) (n : UInt32) : Prop :=
  ∃ i, items[i]? = some a ∧ n = UInt32.ofNat i

namespace NumberOf

variable {α : Type} {items : List α} {a : α} {n n' : UInt32}

/-- A number leads to its place, unless there are more places than numbers. -/
theorem getElem?_toNat (h : NumberOf items a n) (few : items.length ≤ 2 ^ 32) :
    items[n.toNat]? = some a := by
  obtain ⟨i, place, rfl⟩ := h
  have inside := (List.getElem?_eq_some_iff.mp place).1
  rw [UInt32.toNat_ofNat_of_lt' (Nat.lt_of_lt_of_le inside few)]
  exact place

theorem unique (first : NumberOf items a n) (second : NumberOf items a n')
    (nodup : items.Nodup) : n = n' := by
  obtain ⟨i, place, rfl⟩ := first
  obtain ⟨i', place', rfl⟩ := second
  have inside := (List.getElem?_eq_some_iff.mp place).1
  rw [(List.getElem?_inj inside nodup).mp (place.trans place'.symm)]

end NumberOf

namespace IndexSpace

/-- The numbers of references: places in the list of a class, and in the list
of signatures. The two marks have no number of their own. -/
def Names (space : IndexSpace) : Reference → UInt32 → Prop
  | .entity e, n => ∃ i, (space.ofKind e.kind)[i]? = some e ∧ n = UInt32.ofNat i
  | .signature type, n => ∃ i, space.types[i]? = some type ∧ n = UInt32.ofNat i
  | .memoryUse, n | .funcMention _, n => n = 0

/-- An item stands where it is found. -/
theorem getElem?_of_idxOf? {α : Type} [BEq α] [LawfulBEq α] {items : List α} {a : α} {i : Nat}
    (found : items.idxOf? a = some i) : items[i]? = some a := by
  obtain ⟨inside, same, -⟩ := List.idxOf?_eq_some_iff.mp found
  rw [List.getElem?_eq_getElem inside, same]

theorem names_of_index {space : IndexSpace} {reference : Reference} {n : UInt32}
    (found : space.index reference = .ok n) : space.Names reference n := by
  rw [index] at found
  split at found
  · rename_i i place
    cases found
    cases reference with
    | entity e => exact ⟨i, getElem?_of_idxOf? place, rfl⟩
    | signature type => exact ⟨i, getElem?_of_idxOf? place, rfl⟩
    | memoryUse | funcMention _ =>
        cases place
        rfl
  · cases found

end IndexSpace

end Wasm
