import Wasm.Proofs.Assembly.Reached
import Wasm.Proofs.Assembly.Numbering
import Wasm.Proofs.Body.Linkable

/-!
# Whatever is closed can be assembled

A set of entities is closed if the roots are in it and whatever its members
refer to. When the members are numbered, every reference in them has a number,
and nothing can go wrong any more.
-/

namespace Wasm

namespace IndexSpace

variable {space : IndexSpace}

theorem idxOf?_of_mem {α : Type} [BEq α] [LawfulBEq α] {items : List α} {a : α}
    (member : a ∈ items) : ∃ i, items.idxOf? a = some i := by
  cases found : items.idxOf? a with
  | some i => exact ⟨i, rfl⟩
  | none => exact absurd member (List.idxOf?_eq_none_iff.mp found)

theorem index_entity {entity : Entity} (member : entity ∈ space.ofKind entity.kind) :
    ∃ n, space.index (.entity entity) = .ok n := by
  obtain ⟨i, found⟩ := idxOf?_of_mem member
  exact ⟨UInt32.ofNat i, by simp [index, index?, found]⟩

theorem index_signature {type : FuncType} (member : type ∈ space.types) :
    ∃ n, space.index (.signature type) = .ok n := by
  obtain ⟨i, found⟩ := idxOf?_of_mem member
  exact ⟨UInt32.ofNat i, by simp [index, index?, found]⟩

end IndexSpace

namespace ModuleBuilder

variable {b : ModuleBuilder} {roots : Roots} {reach : Reach} {kind : ExternKind} {entity : Entity}

/-- All members say what they refer to, and the entities among that are members. -/
structure Closed (b : ModuleBuilder) (roots : Roots) (reach : Reach) : Prop where
  roots : ∀ entity, .entity entity ∈ roots.references → entity ∈ reach.entities
  covered : ∀ entity ∈ reach.entities, ∃ references, b.referencesOf entity = .ok references ∧
    ∀ other, .entity other ∈ references → other ∈ reach.entities
  mentioned : ∀ id ∈ reach.mentioned, ⟨.func, id⟩ ∈ reach.entities

/-! ## Every reference has a number -/

/-- The signature of a function that is numbered has a number, and so have
those that its body names. -/
theorem mem_types {decl : FuncDecl} (member : entity ∈ (b.indexSpace reach).ofKind .func)
    (found : b.funcs[entity.id]? = some decl) :
    ∀ type ∈ decl.type :: bodySignatures decl, type ∈ (b.indexSpace reach).types := by
  obtain ⟨ordered, isFunc⟩ := List.mem_filter.mp member
  have declared : decl ∈ (b.order reach).filterMap b.funcDecl? :=
    List.mem_filterMap.mpr
      ⟨entity, ordered, by rw [funcDecl?, if_pos (beq_iff_eq.mp isFunc), found]⟩
  intro type among
  show type ∈ b.signatures (b.order reach)
  rw [signatures, List.mem_eraseDups, List.mem_append]
  rcases List.mem_cons.mp among with rfl | inBody
  · exact .inl (List.mem_map_of_mem declared)
  · exact .inr (List.mem_flatMap.mpr ⟨decl, declared, inBody⟩)

namespace Closed

variable (closed : b.Closed roots reach)

include closed

theorem mem_ofKind (member : entity ∈ reach.entities) :
    entity ∈ (b.indexSpace reach).ofKind entity.kind := by
  obtain ⟨references, known, -⟩ := closed.covered entity member
  exact mem_ofKind_indexSpace.mpr ⟨rfl, mem_entities_of_referencesOf known, member⟩

theorem exists_index (member : entity ∈ reach.entities) :
    ∃ n, (b.indexSpace reach).index (.entity entity) = .ok n :=
  IndexSpace.index_entity (closed.mem_ofKind member)

/-- The body of a member that was built by a program. -/
theorem exists_linkBody (built : b.BodiesBuilt) {decl : FuncDecl} {body : FuncBody}
    (member : entity ∈ (b.indexSpace reach).ofKind .func)
    (found : b.funcs[entity.id]? = some decl) (defined : decl.content = .defined body) :
    ∃ code, (b.indexSpace reach).linkBody body.code = .ok code := by
  obtain ⟨isFunc, -, reached⟩ := mem_ofKind_indexSpace.mp member
  obtain ⟨references, known, refers⟩ := closed.covered entity reached
  have own : references = Draft.allReferences body.code := by
    simp only [referencesOf, isFunc, found, defined, Except.ok.injEq] at known
    exact known.symm
  subst own
  have numbered : ∀ r ∈ Draft.allReferences body.code,
      ∃ n, (b.indexSpace reach).index r = .ok n := by
    intro r named
    cases r with
    | entity other => exact closed.exists_index (refers other named)
    | signature type =>
        refine IndexSpace.index_signature (mem_types member found type (List.mem_cons_of_mem _ ?_))
        rw [bodySignatures, defined]
        exact List.mem_filterMap.mpr ⟨.signature type, named, rfl⟩
    | memoryUse | funcMention _ => exact ⟨_, rfl⟩
  obtain ⟨indices, made⟩ := Except.exists_mapM_eq_ok numbered
  obtain ⟨calls, byCalls⟩ := built decl (List.mem_of_getElem? found) body defined
  obtain ⟨code, linked, -⟩ := Call.linkAll_of_allMake calls body.code indices byCalls.allMake
    (Except.mapM_eq_ok.mp made).length_eq.symm
  exact ⟨code, Except.bind_eq_ok.mpr ⟨indices, made, linked⟩⟩

theorem exists_linkConst {init : ConstExpr}
    (refers : ∀ other, .entity other ∈ init.references → other ∈ reach.entities) :
    ∃ code, (b.indexSpace reach).linkConst init = .ok code := by
  cases init with
  | refFunc handle =>
      obtain ⟨n, numbered⟩ := closed.exists_index (refers ⟨.func, handle.id⟩ List.mem_cons_self)
      exact ⟨_, Except.bind_eq_ok.mpr ⟨n, numbered, rfl⟩⟩
  | globalGet handle =>
      obtain ⟨n, numbered⟩ := closed.exists_index (refers ⟨.global, handle.id⟩ List.mem_cons_self)
      exact ⟨_, Except.bind_eq_ok.mpr ⟨n, numbered, rfl⟩⟩
  | _ => exact ⟨_, rfl⟩

/-! ## Every member becomes a part -/

theorem exists_partOfFunc (built : b.BodiesBuilt) {id : Nat}
    (member : ⟨.func, id⟩ ∈ (b.indexSpace reach).ofKind .func) :
    ∃ part, b.part (b.indexSpace reach) ⟨.func, id⟩ = .ok part := by
  obtain ⟨-, -, reached⟩ := mem_ofKind_indexSpace.mp member
  obtain ⟨references, known, -⟩ := closed.covered _ reached
  simp only [referencesOf] at known
  cases found : b.funcs[id]? with
  | none =>
      rw [found] at known
      cases known
  | some decl =>
      obtain ⟨n, numbered⟩ :=
        IndexSpace.index_signature (mem_types member found decl.type List.mem_cons_self)
      rw [found] at known
      cases content : decl.content with
      | pending =>
          simp only [content] at known
          cases known
      | imported name => simp [part, found, numbered, content]
      | defined body =>
          obtain ⟨code, linked⟩ := closed.exists_linkBody built member found content
          simp [part, found, numbered, content, linked]

theorem exists_partOfGlobal {id : Nat} (reached : ⟨.global, id⟩ ∈ reach.entities) :
    ∃ part, b.part (b.indexSpace reach) ⟨.global, id⟩ = .ok part := by
  obtain ⟨references, known, refers⟩ := closed.covered _ reached
  simp only [referencesOf] at known
  cases found : b.globals[id]? with
  | none =>
      rw [found] at known
      cases known
  | some decl =>
      rw [found] at known
      cases content : decl.content with
      | imported name => simp [part, found, content]
      | defined init =>
          simp only [content] at known
          cases known
          obtain ⟨code, linked⟩ := closed.exists_linkConst refers
          simp [part, found, content, linked]

theorem exists_part (built : b.BodiesBuilt) (member : entity ∈ (b.indexSpace reach).ofKind kind) :
    ∃ part, b.part (b.indexSpace reach) entity = .ok part := by
  obtain ⟨rfl, known, reached⟩ := mem_ofKind_indexSpace.mp member
  obtain ⟨kind, id⟩ := entity
  cases kind with
  | func => exact closed.exists_partOfFunc built member
  | global => exact closed.exists_partOfGlobal reached
  | table =>
      have inside : id < b.tables.length := by simpa [entities, entitiesOf] using known
      cases name : b.tables[id].importName <;>
        simp [part, List.getElem?_eq_getElem inside, name]
  | memory =>
      have inside : id < b.memories.length := by simpa [entities, entitiesOf] using known
      cases name : b.memories[id].importName <;>
        simp [part, List.getElem?_eq_getElem inside, name]

/-! ## The rest of the module -/

theorem exists_tableSegment (member : entity ∈ (b.indexSpace reach).ofKind .table) :
    ∃ segment, b.tableSegment (b.indexSpace reach) entity = .ok segment := by
  obtain ⟨isTable, -, reached⟩ := mem_ofKind_indexSpace.mp member
  obtain ⟨references, known, refers⟩ := closed.covered entity reached
  simp only [referencesOf, isTable] at known
  unfold tableSegment
  split
  · rename_i decl found
    simp only [found, Except.ok.injEq] at known
    subst known
    split
    · rename_i elements filled
      obtain ⟨n, numbered⟩ := closed.exists_index reached
      have each : ∀ init ∈ elements, ∃ code, (b.indexSpace reach).linkConst init = .ok code := by
        refine fun init among => closed.exists_linkConst fun other named => refers other ?_
        rw [filled]
        exact List.mem_flatMap.mpr ⟨init, among, named⟩
      obtain ⟨code, linked⟩ := Except.exists_mapM_eq_ok each
      simp [numbered, linked]
    · exact ⟨_, rfl⟩
  · exact ⟨_, rfl⟩

theorem exists_memorySegment (member : entity ∈ (b.indexSpace reach).ofKind .memory) :
    ∃ segment, b.memorySegment (b.indexSpace reach) entity = .ok segment := by
  obtain ⟨-, -, reached⟩ := mem_ofKind_indexSpace.mp member
  obtain ⟨n, numbered⟩ := closed.exists_index reached
  unfold memorySegment
  split
  · split
    · simp [numbered]
    · exact ⟨_, rfl⟩
  · exact ⟨_, rfl⟩

theorem exists_mentionSegment :
    ∃ segment, mentionSegment (b.indexSpace reach) reach.mentioned = .ok segment := by
  unfold mentionSegment
  split
  · exact ⟨_, rfl⟩
  · refine Except.exists_bind_eq_ok (Except.exists_mapM_eq_ok fun id mentioned => ?_)
      fun init => ⟨_, rfl⟩
    exact Except.exists_bind_eq_ok (closed.exists_index (closed.mentioned id mentioned))
      fun n => ⟨_, rfl⟩

theorem exists_export {name : String} (member : (name, entity) ∈ roots.exports) :
    ∃ e, exportItem (b.indexSpace reach) name entity = .ok e := by
  have isRoot : .entity entity ∈ roots.references :=
    List.mem_append_left _ (List.mem_map_of_mem member)
  obtain ⟨n, numbered⟩ := closed.exists_index (closed.roots entity isRoot)
  exact ⟨_, Except.bind_eq_ok.mpr ⟨n, numbered, rfl⟩⟩

theorem exists_start : ∃ start, (roots.start.mapM fun handle =>
    (b.indexSpace reach).index (.func handle.id)) = .ok start := by
  cases given : roots.start with
  | none => exact ⟨none, rfl⟩
  | some handle =>
      have isRoot : .func handle.id ∈ roots.references :=
        List.mem_append_right _ (by rw [given]; exact List.mem_singleton_self _)
      obtain ⟨n, numbered⟩ := closed.exists_index (closed.roots _ isRoot)
      refine ⟨some n, ?_⟩
      show some <$> (b.indexSpace reach).index (.func handle.id) = _
      rw [Reference.func, numbered]
      rfl

/-- No step of the assembly fails. -/
theorem exists_assemble (built : b.BodiesBuilt) : ∃ m, b.assemble roots reach = .ok m := by
  have parts : ∀ kind, ∃ parts, b.partsOf (b.indexSpace reach) kind = .ok parts := fun kind =>
    Except.exists_mapM_eq_ok fun _ => closed.exists_part built
  unfold assemble
  refine Except.exists_bind_eq_ok (parts .func) fun funcs => ?_
  refine Except.exists_bind_eq_ok (parts .table) fun tables => ?_
  refine Except.exists_bind_eq_ok (parts .memory) fun memories => ?_
  refine Except.exists_bind_eq_ok (parts .global) fun globals => ?_
  refine Except.exists_bind_eq_ok
    (Except.exists_mapM_eq_ok fun root member => closed.exists_export member) fun exports => ?_
  refine Except.exists_bind_eq_ok closed.exists_start fun start => ?_
  refine Except.exists_bind_eq_ok
    (Except.exists_mapM_eq_ok fun _ => closed.exists_tableSegment) fun filled => ?_
  refine Except.exists_bind_eq_ok closed.exists_mentionSegment fun declared => ?_
  refine Except.exists_bind_eq_ok
    (Except.exists_mapM_eq_ok fun _ => closed.exists_memorySegment) fun data => ?_
  exact ⟨_, rfl⟩

end Closed

end ModuleBuilder

end Wasm
