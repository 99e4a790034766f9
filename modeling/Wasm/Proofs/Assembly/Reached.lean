import Wasm.Assembly.Build
import Wasm.Proofs.Body.Recorded

/-!
# Builders that can be reached

A client gets from the empty builder to any other one by declarations only.
A declaration that is refused returns no builder, so it takes no step. Bodies
are written by programs; `Scripted` has the builders with code made by hand.
-/

namespace Wasm.ModuleBuilder

/-- The builders that come out of sequences of declarations, with a program for
each body. -/
inductive Reached : ModuleBuilder → Prop
  | empty : Reached {}
  | declareFunc {b : ModuleBuilder} (h : Reached b) (type : FuncType) :
      Reached (b.declareFunc type).2
  | importFunc {b : ModuleBuilder} (h : Reached b) (name : ImportName) (type : FuncType) :
      Reached (b.importFunc name type).2
  | func {b b' : ModuleBuilder} {σ : Type} {type : FuncType} {client client' : σ}
      {build : Construction σ Unit} {calls : Workspace σ → List Call} {handle : FuncHandle}
      (h : Reached b) (program : Construction.Program build calls)
      (done : b.func type client build = (.ok (handle, b'), client')) : Reached b'
  | defineFunc {b b' : ModuleBuilder} {σ : Type} {handle : FuncHandle} {client client' : σ}
      {build : Construction σ Unit} {calls : Workspace σ → List Call}
      (h : Reached b) (program : Construction.Program build calls)
      (done : b.defineFunc handle client build = (.ok b', client')) : Reached b'
  | global {b b' : ModuleBuilder} {init : ConstExpr} {isMutable : Bool} {handle : GlobalHandle}
      (h : Reached b) (done : b.global init isMutable = .ok (handle, b')) : Reached b'
  | importGlobal {b : ModuleBuilder} (h : Reached b) (name : ImportName) (type : GlobalType) :
      Reached (b.importGlobal name type).2
  | table {b b' : ModuleBuilder} {type : TableType} {elements : Option (List ConstExpr)}
      {handle : TableHandle} (h : Reached b) (done : b.table type elements = .ok (handle, b')) :
      Reached b'
  | importTable {b b' : ModuleBuilder} {name : ImportName} {type : TableType}
      {handle : TableHandle} (h : Reached b) (done : b.importTable name type = .ok (handle, b')) :
      Reached b'
  | memory {b b' : ModuleBuilder} {type : MemoryType} {data : Option Bytes}
      {handle : MemoryHandle} (h : Reached b) (done : b.memory type data = .ok (handle, b')) :
      Reached b'
  | importMemory {b b' : ModuleBuilder} {name : ImportName} {type : MemoryType}
      {data : Option Bytes} {handle : MemoryHandle} (h : Reached b)
      (done : b.importMemory name type data = .ok (handle, b')) : Reached b'

/-! ## Declarations that are accepted -/

theorem func_eq_ok {b b' : ModuleBuilder} {σ : Type} {type : FuncType} {client client' : σ}
    {build : Construction σ Unit} {handle : FuncHandle} :
    b.func type client build = (.ok (handle, b'), client') ↔ ∃ body,
      FuncBody.construct type client build = (.ok body, client') ∧
      (handle, b') = b.addFunc type (.defined body) := by
  rw [func]
  obtain ⟨result, after⟩ := FuncBody.construct type client build
  cases result with
  | error e => simp [Except.map]
  | ok body => simp [Except.map, eq_comm, and_comm]

theorem defineFunc_eq_ok {b b' : ModuleBuilder} {σ : Type} {handle : FuncHandle}
    {client client' : σ} {build : Construction σ Unit} :
    b.defineFunc handle client build = (.ok b', client') ↔ ∃ body,
      b.checkPending handle = .ok () ∧
      FuncBody.construct handle.type client build = (.ok body, client') ∧
      b' = { b with
        funcs := b.funcs.set handle.id { type := handle.type, content := .defined body } } := by
  rw [defineFunc]
  cases b.checkPending handle with
  | error e => simp
  | ok _ =>
      obtain ⟨result, after⟩ := FuncBody.construct handle.type client build
      cases result with
      | error e => simp [Except.map]
      | ok body => simp [Except.map, eq_comm, and_comm]

theorem global_eq_ok {b b' : ModuleBuilder} {init : ConstExpr} {isMutable : Bool}
    {handle : GlobalHandle} :
    b.global init isMutable = .ok (handle, b') ↔ b.checkConst init = .ok () ∧
      (handle, b') = b.addGlobal { value := init.type, isMutable } (.defined init) := by
  simp only [global, Except.bind_eq_ok, Except.pure_eq_ok, Except.ok.injEq]
  exact ⟨fun ⟨_, checked, same⟩ => ⟨checked, same.symm⟩, fun ⟨checked, same⟩ =>
    ⟨(), checked, same.symm⟩⟩

theorem addTable_eq_ok {b b' : ModuleBuilder} {decl : TableDecl} {handle : TableHandle} :
    b.addTable decl = .ok (handle, b') ↔ decl.type.element.isRef = true ∧
      b.checkElements decl.type.element (decl.elements.getD []) = .ok () ∧
      (decl.elements.getD []).length ≤ decl.type.limits.min.toNat ∧
      handle = ⟨b.tables.length, decl.type⟩ ∧ b' = { b with tables := b.tables ++ [decl] } := by
  simp only [addTable, Except.throw_eq_error, Except.error_bind, Except.ite_error_eq_ok,
    Except.bind_eq_ok, Except.pure_eq_ok, Except.ok.injEq, Prod.mk.injEq]
  constructor
  · rintro ⟨isRef, _, checked, room, rfl, rfl⟩
    exact ⟨isRef, checked, room, rfl, rfl⟩
  · rintro ⟨isRef, checked, room, rfl, rfl⟩
    exact ⟨isRef, (), checked, room, rfl, rfl⟩

theorem addMemory_eq_ok {b b' : ModuleBuilder} {decl : MemoryDecl} {handle : MemoryHandle} :
    b.addMemory decl = .ok (handle, b') ↔
      ¬(decl.type.shared = true ∧ decl.type.limits.max.isNone = true) ∧
      (decl.data.getD []).length ≤ decl.type.limits.min.toNat * pageSize ∧
      handle = ⟨b.memories.length, decl.type⟩ ∧
      b' = { b with memories := b.memories ++ [decl] } := by
  simp only [addMemory, Except.throw_eq_error, Except.error_bind, Except.error_ite_eq_ok,
    Except.ite_error_eq_ok, Except.pure_eq_ok, Except.ok.injEq, Prod.mk.injEq]
  constructor
  · rintro ⟨bounded, room, rfl, rfl⟩
    exact ⟨bounded, room, rfl, rfl⟩
  · rintro ⟨bounded, room, rfl, rfl⟩
    exact ⟨bounded, room, rfl, rfl⟩

/-! ## Where bodies come from -/

/-- Every body was built by a program, for the signature that its function has. -/
def BodiesBuilt (b : ModuleBuilder) : Prop :=
  ∀ decl ∈ b.funcs, ∀ body, decl.content = .defined body →
    ∃ calls, FuncBody.BuiltBy decl.type calls body

theorem BodiesBuilt.add {b : ModuleBuilder} (h : b.BodiesBuilt) {type : FuncType}
    {content : FuncContent}
    (new : ∀ body, content = .defined body → ∃ calls, FuncBody.BuiltBy type calls body) :
    (b.addFunc type content).2.BodiesBuilt := by
  intro decl member body defined
  rcases List.mem_append.mp member with old | last
  · exact h decl old body defined
  · cases List.mem_singleton.mp last
    exact new body defined

theorem Reached.bodiesBuilt {b : ModuleBuilder} (h : b.Reached) : b.BodiesBuilt := by
  induction h with
  | empty => nofun
  | declareFunc _ type ih => exact ih.add nofun
  | importFunc _ name type ih => exact ih.add nofun
  | func _ program done ih =>
      obtain ⟨body, constructed, added⟩ := func_eq_ok.mp done
      obtain ⟨-, rfl⟩ := Prod.mk.inj added
      -- The new function was built for the signature that it was declared with.
      refine ih.add fun body' same => ?_
      cases same
      exact ⟨_, _, _, _, _, _, program, rfl, constructed⟩
  | defineFunc _ program done ih =>
      obtain ⟨body, -, constructed, rfl⟩ := defineFunc_eq_ok.mp done
      intro decl member body' defined
      rcases List.mem_or_eq_of_mem_set member with old | rfl
      · exact ih decl old body' defined
      · cases defined
        exact ⟨_, _, _, _, _, _, program, rfl, constructed⟩
  | global _ done ih =>
      obtain ⟨-, added⟩ := global_eq_ok.mp done
      obtain ⟨-, rfl⟩ := Prod.mk.inj added
      exact ih
  | importGlobal _ name type ih => exact ih
  | table _ done ih | importTable _ done ih =>
      obtain ⟨-, -, -, -, rfl⟩ := addTable_eq_ok.mp done
      exact ih
  | memory _ done ih | importMemory _ done ih =>
      obtain ⟨-, -, -, rfl⟩ := addMemory_eq_ok.mp done
      exact ih

end Wasm.ModuleBuilder
