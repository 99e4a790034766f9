import Wasm.Proofs.Assembly.Realizes

/-!
# Assembling keeps every reference

Each part of a module is made from the declaration of one entity, and the
lists of a module are those parts sorted by what they are. So the lists follow
the numbering, and what a part refers to was looked up in it.
-/

namespace Wasm

open ModuleBuilder

variable {b : ModuleBuilder} {space : IndexSpace}

/-! ## Code -/

theorem linkBody_denotes {type : FuncType} {calls : List Call} {body : FuncBody}
    {code : List Instr} (built : FuncBody.BuiltBy type calls body)
    (linked : space.linkBody body.code = .ok code) : Call.AllDenote space.Names calls code := by
  obtain ⟨indices, numbered, linkedAll⟩ := Except.bind_eq_ok.mp linked
  have numbers : List.Forall₂ space.Names (Draft.allReferences body.code) indices :=
    (Except.mapM_eq_ok.mp numbered).imp fun _ _ => IndexSpace.names_of_index
  exact Call.allDenote_of_linkAll calls body.code indices code built.allMake numbers linkedAll

theorem linkConst_denotes {init : ConstExpr} {code : List Instr}
    (linked : space.linkConst init = .ok code) : init.Denotes space.Names code := by
  cases init with
  | refFunc handle | globalGet handle =>
      obtain ⟨n, numbered, same⟩ := Except.bind_eq_ok.mp linked
      exact ⟨n, IndexSpace.names_of_index numbered, (Except.ok.inj same).symm⟩
  | _ => exact (Except.ok.inj linked).symm

/-! ## Parts -/

/-- The part of a module that an entity should become. -/
def ModuleBuilder.Describes (b : ModuleBuilder) (N : Reference → UInt32 → Prop)
    (entity : Entity) : Part → Prop
  | .imported i => b.isImported entity = true ∧ b.ImportsAs N entity i
  | .func f => b.isImported entity = false ∧ entity.kind = .func ∧ b.DefinesFunc N entity f
  | .table type => b.isImported entity = false ∧ entity.kind = .table ∧ b.DefinesTable entity type
  | .memory type =>
      b.isImported entity = false ∧ entity.kind = .memory ∧ b.DefinesMemory entity type
  | .global g => b.isImported entity = false ∧ entity.kind = .global ∧ b.DefinesGlobal N entity g

theorem importsAs_kind {N : Reference → UInt32 → Prop} {entity : Entity} {i : Import}
    (h : b.ImportsAs N entity i) : i.type.kind = entity.kind := by
  obtain ⟨kind, id⟩ := entity
  cases kind
  · obtain ⟨_, _, _, _, _, _, rfl⟩ := h
    rfl
  all_goals
    obtain ⟨_, _, _, _, rfl⟩ := h
    rfl

theorem describes_func (built : b.BodiesBuilt) {id : Nat} {part : Part}
    (made : b.part space ⟨.func, id⟩ = .ok part) : b.Describes space.Names ⟨.func, id⟩ part := by
  simp only [ModuleBuilder.part] at made
  cases found : b.funcs[id]? with
  | none =>
      rw [found] at made
      cases made
  | some decl =>
      rw [found] at made
      obtain ⟨n, numbered, rest⟩ := Except.bind_eq_ok.mp made
      have named := IndexSpace.names_of_index numbered
      have imported : b.isImported ⟨.func, id⟩ = decl.content.isImported := by
        simp [ModuleBuilder.isImported, found]
      cases content : decl.content with
      | imported name =>
          rw [content] at rest imported
          cases rest
          exact ⟨imported, decl, name, n, found, content, named, rfl⟩
      | defined body =>
          rw [content] at rest imported
          obtain ⟨code, linked, same⟩ := Except.bind_eq_ok.mp rest
          cases same
          exact ⟨imported, rfl, decl, body, found, content, named, rfl,
            built decl (List.mem_of_getElem? found) body content,
            fun calls h => linkBody_denotes h linked⟩
      | pending =>
          -- A function without a body becomes no part.
          rw [content] at rest
          cases rest

theorem describes_table {id : Nat} {part : Part} (made : b.part space ⟨.table, id⟩ = .ok part) :
    b.Describes space.Names ⟨.table, id⟩ part := by
  simp only [ModuleBuilder.part] at made
  cases found : b.tables[id]? with
  | none =>
      rw [found] at made
      cases made
  | some decl =>
      rw [found] at made
      have imported : b.isImported ⟨.table, id⟩ = decl.importName.isSome := by
        simp [ModuleBuilder.isImported, found]
      cases name : decl.importName with
      | some name' =>
          simp only [name] at made imported
          cases made
          exact ⟨imported, decl, name', found, name, rfl⟩
      | none =>
          simp only [name] at made imported
          cases made
          exact ⟨imported, rfl, decl, found, name, rfl⟩

theorem describes_memory {id : Nat} {part : Part} (made : b.part space ⟨.memory, id⟩ = .ok part) :
    b.Describes space.Names ⟨.memory, id⟩ part := by
  simp only [ModuleBuilder.part] at made
  cases found : b.memories[id]? with
  | none =>
      rw [found] at made
      cases made
  | some decl =>
      rw [found] at made
      have imported : b.isImported ⟨.memory, id⟩ = decl.importName.isSome := by
        simp [ModuleBuilder.isImported, found]
      cases name : decl.importName with
      | some name' =>
          simp only [name] at made imported
          cases made
          exact ⟨imported, decl, name', found, name, rfl⟩
      | none =>
          simp only [name] at made imported
          cases made
          exact ⟨imported, rfl, decl, found, name, rfl⟩

theorem describes_global {id : Nat} {part : Part} (made : b.part space ⟨.global, id⟩ = .ok part) :
    b.Describes space.Names ⟨.global, id⟩ part := by
  simp only [ModuleBuilder.part] at made
  cases found : b.globals[id]? with
  | none =>
      rw [found] at made
      cases made
  | some decl =>
      rw [found] at made
      have imported : b.isImported ⟨.global, id⟩ = decl.content.isImported := by
        simp [ModuleBuilder.isImported, found]
      cases content : decl.content with
      | imported name =>
          simp only [content] at made imported
          cases made
          exact ⟨imported, decl, name, found, content, rfl⟩
      | defined init =>
          simp only [content] at made imported
          obtain ⟨code, linked, same⟩ := Except.bind_eq_ok.mp made
          cases same
          exact ⟨imported, rfl, decl, init, found, content, rfl, linkConst_denotes linked⟩

/-- Every entity becomes the part that its declaration asks for. -/
theorem describes_of_part (built : b.BodiesBuilt) {entity : Entity} {part : Part}
    (made : b.part space entity = .ok part) : b.Describes space.Names entity part := by
  obtain ⟨kind, id⟩ := entity
  cases kind with
  | func => exact describes_func built made
  | table => exact describes_table made
  | memory => exact describes_memory made
  | global => exact describes_global made

/-! ## Lists of parts -/

/-- Sorting what comes of a list is sorting the list. -/
theorem forall₂_filterMap {α β γ : Type} {R : α → β → Prop} {S : α → γ → Prop} {p : α → Bool}
    {f : β → Option γ}
    (sorted : ∀ a b, R a b → (p a = true ∧ ∃ c, f b = some c ∧ S a c) ∨
      (p a = false ∧ f b = none)) {as : List α} {bs : List β} (h : List.Forall₂ R as bs) :
    List.Forall₂ S (as.filter p) (bs.filterMap f) := by
  induction h with
  | nil => exact .nil
  | cons first _ ih =>
      rcases sorted _ _ first with ⟨kept, c, known, related⟩ | ⟨dropped, unknown⟩
      · rw [List.filter_cons_of_pos kept, List.filterMap_cons_some known]
        exact .cons related ih
      · rw [List.filter_cons_of_neg (by rw [dropped]; nofun), List.filterMap_cons_none unknown]
        exact ih

theorem forall₂_of_mapM {α β : Type} {f : α → Except BuildError β} {as : List α} {bs : List β}
    {R : α → β → Prop} (made : as.mapM f = .ok bs) (related : ∀ a b, f a = .ok b → R a b) :
    List.Forall₂ R as bs :=
  (Except.mapM_eq_ok.mp made).imp fun a b => related a b

end Wasm
