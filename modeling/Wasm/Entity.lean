import Wasm.Module

/-!
# Entities under construction

While a module is being built its entities have no numbers. An entity is
known by its class and its place in the builder that declared it, and a
handle adds the entity's type, so that its uses can be checked without the
builder. References are what code mentions: entities, signatures, and two
marks that only matter to the module as a whole.
-/

namespace Wasm

/-- An entity of a builder: the `id`-th one declared in its class. -/
structure Entity where
  kind : ExternKind
  id : Nat
deriving DecidableEq, Inhabited, Repr

def Entity.text (entity : Entity) : String :=
  let className := match entity.kind with
    | .func => "function"
    | .global => "global"
    | .table => "table"
    | .memory => "memory"
  className ++ " #" ++ toString entity.id

/-! ## Handles -/

structure FuncHandle where
  id : Nat
  type : FuncType
deriving DecidableEq, Inhabited, Repr

structure GlobalHandle where
  id : Nat
  type : GlobalType
deriving DecidableEq, Inhabited, Repr

structure TableHandle where
  id : Nat
  type : TableType
deriving DecidableEq, Inhabited, Repr

structure MemoryHandle where
  id : Nat
  type : MemoryType
deriving DecidableEq, Inhabited, Repr

def FuncHandle.entity (handle : FuncHandle) : Entity := ⟨.func, handle.id⟩

def GlobalHandle.entity (handle : GlobalHandle) : Entity := ⟨.global, handle.id⟩

def TableHandle.entity (handle : TableHandle) : Entity := ⟨.table, handle.id⟩

def MemoryHandle.entity (handle : MemoryHandle) : Entity := ⟨.memory, handle.id⟩

/-! ## References -/

/-- Something that code mentions and that gets a number when the module is
assembled. -/
inductive Reference where
  | entity (e : Entity)
  | signature (type : FuncType)
  /-- The code accesses memory, whichever it will be. -/
  | memoryUse
  /-- The code makes a reference to this function, which then has to be
  declared in an element segment. -/
  | funcMention (id : Nat)
deriving DecidableEq, Inhabited, Repr

namespace Reference

def func (id : Nat) : Reference := .entity ⟨.func, id⟩

def global (id : Nat) : Reference := .entity ⟨.global, id⟩

def table (id : Nat) : Reference := .entity ⟨.table, id⟩

def text : Reference → String
  | .entity e => e.text
  | .signature type => "type " ++ type.text
  | .memoryUse => "memory marker"
  | .funcMention id => "ref.func marker for function #" ++ toString id

end Reference

end Wasm
