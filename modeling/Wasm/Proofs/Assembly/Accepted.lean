import Wasm.Proofs.Assembly.Reached

/-!
# Checks of declarations

A table, a memory or a global is held against what was declared before it, and
only what passes joins the others. Later declarations take nothing back: a
global that was imported stays an import. So in every builder that can be
reached all declarations have passed their checks, and would pass them again.
-/

namespace Wasm.ModuleBuilder

variable {b b' : ModuleBuilder} {init : ConstExpr} {type : ValType}

/-! ## Initial values -/

/-- The value has the type, and the builder has nothing against it. -/
structure Checks (b : ModuleBuilder) (init : ConstExpr) (type : ValType) : Prop where
  alone : init.check = .ok ()
  imported : ∀ handle, init = .globalGet handle → b.isImported ⟨.global, handle.id⟩ = true
  same : init.type = type

theorem checks_of_checkConst (checked : b.checkConst init = .ok ()) : b.Checks init init.type := by
  obtain ⟨_, alone, known⟩ := Except.bind_eq_ok.mp checked
  refine ⟨alone, ?_, rfl⟩
  rintro handle rfl
  simp only [Except.throw_eq_error, Except.pure_eq_ok, Except.ite_error_eq_ok] at known
  exact known.1

theorem isImported_grow (grown : b.globals <+: b'.globals) {id : Nat}
    (imported : b.isImported ⟨.global, id⟩ = true) : b'.isImported ⟨.global, id⟩ = true := by
  simp only [isImported] at imported ⊢
  cases found : b.globals[id]? with
  | none =>
      rw [found] at imported
      cases imported
  | some decl =>
      obtain ⟨inside, -⟩ := List.getElem?_eq_some_iff.mp found
      obtain ⟨rest, grown⟩ := grown
      rwa [← grown, List.getElem?_append_left inside]

/-- A global that could be read can be read after further declarations. -/
theorem Checks.grow (h : b.Checks init type) (grown : b.globals <+: b'.globals) :
    b'.Checks init type :=
  ⟨h.alone, fun handle reads => isImported_grow grown (h.imported handle reads), h.same⟩

theorem checks_of_checkElements {elements : List ConstExpr}
    (checked : b.checkElements type elements = .ok ()) : ∀ init ∈ elements, b.Checks init type := by
  induction elements with
  | nil => nofun
  | cons head rest ih =>
      simp only [checkElements, Except.bind_eq_ok, Except.throw_eq_error, Except.error_bind,
        Except.ite_error_eq_ok] at checked
      obtain ⟨_, first, rfl, others⟩ := checked
      exact List.forall_mem_cons.mpr ⟨checks_of_checkConst first, ih others⟩

/-! ## Declarations -/

def AcceptsGlobal (b : ModuleBuilder) (decl : GlobalDecl) : Prop :=
  ∀ init, decl.content = .defined init → b.Checks init decl.type.value

structure AcceptsTable (b : ModuleBuilder) (decl : TableDecl) : Prop where
  isRef : decl.type.element.isRef = true
  room : (decl.elements.getD []).length ≤ decl.type.limits.min.toNat
  entries : ∀ init ∈ decl.elements.getD [], b.Checks init decl.type.element

structure AcceptsMemory (decl : MemoryDecl) : Prop where
  bounded : ¬(decl.type.shared = true ∧ decl.type.limits.max.isNone = true)
  room : (decl.data.getD []).length ≤ decl.type.limits.min.toNat * pageSize

/-- All declarations have passed their checks, and would pass them again. -/
structure Accepted (b : ModuleBuilder) : Prop where
  globals : ∀ decl ∈ b.globals, b.AcceptsGlobal decl
  tables : ∀ decl ∈ b.tables, b.AcceptsTable decl
  memories : ∀ decl ∈ b.memories, AcceptsMemory decl

/-- A declaration that passes its checks can join the others. -/
theorem Accepted.step (h : b.Accepted) (grown : b.globals <+: b'.globals)
    (globals : ∀ decl ∈ b'.globals, decl ∈ b.globals ∨ b.AcceptsGlobal decl)
    (tables : ∀ decl ∈ b'.tables, decl ∈ b.tables ∨ b.AcceptsTable decl)
    (memories : ∀ decl ∈ b'.memories, decl ∈ b.memories ∨ AcceptsMemory decl) : b'.Accepted where
  globals decl member init defined :=
    ((globals decl member).elim (h.globals decl) id init defined).grow grown
  tables decl member := by
    obtain ⟨isRef, room, entries⟩ := (tables decl member).elim (h.tables decl) id
    exact ⟨isRef, room, fun init listed => (entries init listed).grow grown⟩
  memories decl member := (memories decl member).elim (h.memories decl) id

theorem mem_or_last {α : Type} {P : α → Prop} {items : List α} {last : α} (new : P last) :
    ∀ a ∈ items ++ [last], a ∈ items ∨ P a := by
  intro a member
  rcases List.mem_append.mp member with old | here
  · exact .inl old
  · cases List.mem_singleton.mp here
    exact .inr new

/-- Functions are not among what is checked. -/
theorem Accepted.withFuncs (h : b.Accepted) (funcs : List FuncDecl) :
    Accepted { b with funcs } :=
  h.step List.prefix_rfl (fun _ => .inl) (fun _ => .inl) fun _ => .inl

theorem Accepted.addTable {decl : TableDecl} {handle : TableHandle} (h : b.Accepted)
    (done : b.addTable decl = .ok (handle, b')) : b'.Accepted := by
  obtain ⟨isRef, checked, room, -, rfl⟩ := addTable_eq_ok.mp done
  exact h.step List.prefix_rfl (fun _ => .inl)
    (mem_or_last ⟨isRef, room, checks_of_checkElements checked⟩) fun _ => .inl

theorem Accepted.addMemory {decl : MemoryDecl} {handle : MemoryHandle} (h : b.Accepted)
    (done : b.addMemory decl = .ok (handle, b')) : b'.Accepted := by
  obtain ⟨bounded, room, -, rfl⟩ := addMemory_eq_ok.mp done
  exact h.step List.prefix_rfl (fun _ => .inl) (fun _ => .inl) (mem_or_last ⟨bounded, room⟩)

theorem Reached.accepted (h : b.Reached) : b.Accepted := by
  induction h with
  | empty => exact ⟨nofun, nofun, nofun⟩
  | declareFunc _ type ih | importFunc _ name type ih => exact ih.withFuncs _
  | func _ program done ih =>
      obtain ⟨body, -, added⟩ := func_eq_ok.mp done
      obtain ⟨-, rfl⟩ := Prod.mk.inj added
      exact ih.withFuncs _
  | defineFunc _ program done ih =>
      obtain ⟨body, -, -, rfl⟩ := defineFunc_eq_ok.mp done
      exact ih.withFuncs _
  | @global b b' init isMutable handle _ done ih =>
      obtain ⟨checked, added⟩ := global_eq_ok.mp done
      obtain ⟨-, rfl⟩ := Prod.mk.inj added
      -- The initial value gives the global its type.
      have new : b.AcceptsGlobal ⟨⟨init.type, isMutable⟩, .defined init⟩ := by
        rintro init' ⟨⟩
        exact checks_of_checkConst checked
      exact ih.step (List.prefix_append _ _) (mem_or_last new) (fun _ => .inl) fun _ => .inl
  | importGlobal _ name type ih =>
      exact ih.step (List.prefix_append _ _) (mem_or_last nofun) (fun _ => .inl) fun _ => .inl
  | table _ done ih | importTable _ done ih => exact ih.addTable done
  | memory _ done ih | importMemory _ done ih => exact ih.addMemory done

end Wasm.ModuleBuilder
