import Wasm.Assembly.ConstExpr
import Wasm.Body.Construction

/-!
# Declarations

A module builder holds the entities declared so far, one list for each
class. A declaration adds one entity at the end of its list and returns a
handle to it, so no handle ever changes its meaning. A declaration that is
refused returns no builder, and the caller goes on with the one it had. The
only later change is that a function which was declared ahead gets its body,
once.
-/

namespace Wasm

/-- The two names of an import. -/
structure ImportName where
  moduleName : String
  name : String
deriving DecidableEq, Inhabited, Repr

inductive FuncContent where
  /-- Declared ahead of its definition. -/
  | pending
  | defined (body : FuncBody)
  | imported (name : ImportName)
deriving Inhabited

structure FuncDecl where
  type : FuncType
  content : FuncContent
deriving Inhabited

inductive GlobalContent where
  | defined (init : ConstExpr)
  | imported (name : ImportName)
deriving Inhabited

structure GlobalDecl where
  type : GlobalType
  content : GlobalContent
deriving Inhabited

structure TableDecl where
  type : TableType
  /-- The first entries, where the table starts with some. -/
  elements : Option (List ConstExpr) := none
  importName : Option ImportName := none
deriving Inhabited

structure MemoryDecl where
  type : MemoryType
  /-- The first bytes, where the memory starts with some. -/
  data : Option Bytes := none
  importName : Option ImportName := none
deriving Inhabited

namespace FuncContent

def isImported : FuncContent → Bool
  | .imported _ => true
  | _ => false

def isPending : FuncContent → Bool
  | .pending => true
  | _ => false

end FuncContent

def GlobalContent.isImported : GlobalContent → Bool
  | .imported _ => true
  | _ => false

/-- The entities of a module that is being built. -/
structure ModuleBuilder where
  funcs : List FuncDecl := []
  globals : List GlobalDecl := []
  tables : List TableDecl := []
  memories : List MemoryDecl := []
deriving Inhabited

namespace ModuleBuilder

/-- The size of a page of memory in bytes. -/
def pageSize : Nat := 65536

/-! ## Functions -/

/-- Adds a function. -/
def addFunc (b : ModuleBuilder) (type : FuncType) (content : FuncContent) :
    FuncHandle × ModuleBuilder :=
  (⟨b.funcs.length, type⟩, { b with funcs := b.funcs ++ [{ type, content }] })

/-- Declares a function that is defined later. -/
def declareFunc (b : ModuleBuilder) (type : FuncType) : FuncHandle × ModuleBuilder :=
  b.addFunc type .pending

def importFunc (b : ModuleBuilder) (name : ImportName) (type : FuncType) :
    FuncHandle × ModuleBuilder :=
  b.addFunc type (.imported name)

/-- Declares a function together with its body. -/
def func {σ : Type} (b : ModuleBuilder) (type : FuncType) (client : σ)
    (build : Construction σ Unit) : Except BuildError (FuncHandle × ModuleBuilder) × σ :=
  let (body, client) := FuncBody.construct type client build
  (body.map fun body => b.addFunc type (.defined body), client)

/-- Checks that a function of this builder still waits for its body. -/
def checkPending (b : ModuleBuilder) (handle : FuncHandle) : Except BuildError Unit :=
  match b.funcs[handle.id]? with
  | some decl =>
    if decl.type = handle.type then
      if decl.content.isPending then .ok ()
      else .error (.invalidArguments "define_func" (.alreadyDefined handle.id))
    else .error (.invalidArguments "define_func" .foreignFunc)
  | none => .error (.invalidArguments "define_func" .foreignFunc)

/-- Gives a function that was declared ahead its body. -/
def defineFunc {σ : Type} (b : ModuleBuilder) (handle : FuncHandle) (client : σ)
    (build : Construction σ Unit) : Except BuildError ModuleBuilder × σ :=
  match b.checkPending handle with
  | .error e => (.error e, client)
  | .ok () =>
    let (body, client) := FuncBody.construct handle.type client build
    (body.map fun body =>
      { b with funcs := b.funcs.set handle.id { type := handle.type, content := .defined body } },
      client)

/-! ## Globals -/

/-- Checks an initial value: it may read imported globals only, since the
others are not initialised yet. -/
def checkConst (b : ModuleBuilder) (init : ConstExpr) : Except BuildError Unit := do
  init.check
  match init with
  | .globalGet handle =>
    unless (b.globals[handle.id]?.map (·.content.isImported)).getD false do
      throw (.invalidArguments "global.get" .definedGlobal)
  | _ => return ()

/-- Adds a global. -/
def addGlobal (b : ModuleBuilder) (type : GlobalType) (content : GlobalContent) :
    GlobalHandle × ModuleBuilder :=
  (⟨b.globals.length, type⟩, { b with globals := b.globals ++ [{ type, content }] })

/-- Declares a global with its initial value, which gives it its type. -/
def global (b : ModuleBuilder) (init : ConstExpr) (isMutable : Bool) :
    Except BuildError (GlobalHandle × ModuleBuilder) := do
  b.checkConst init
  return b.addGlobal { value := init.type, isMutable } (.defined init)

def importGlobal (b : ModuleBuilder) (name : ImportName) (type : GlobalType) :
    GlobalHandle × ModuleBuilder :=
  b.addGlobal type (.imported name)

/-! ## Tables and memories -/

/-- Checks the entries that a table starts with. -/
def checkElements (b : ModuleBuilder) (element : ValType) :
    List ConstExpr → Except BuildError Unit
  | [] => .ok ()
  | init :: rest => do
    b.checkConst init
    unless init.type = element do
      throw (.invalidArguments "table" (.wrongElement init.type element))
    checkElements b element rest

/-- Adds a table whose first entries fit into it. -/
def addTable (b : ModuleBuilder) (decl : TableDecl) :
    Except BuildError (TableHandle × ModuleBuilder) := do
  let type := decl.type
  unless type.element.isRef do
    throw (.invalidArguments "table" (.notReference type.element))
  let elements := decl.elements.getD []
  b.checkElements type.element elements
  unless elements.length ≤ type.limits.min.toNat do
    throw (.invalidArguments "table" (.tooManyElements elements.length type.limits.min))
  return (⟨b.tables.length, type⟩, { b with tables := b.tables ++ [decl] })

def table (b : ModuleBuilder) (type : TableType) (elements : Option (List ConstExpr)) :
    Except BuildError (TableHandle × ModuleBuilder) :=
  b.addTable { type, elements }

def importTable (b : ModuleBuilder) (name : ImportName) (type : TableType) :
    Except BuildError (TableHandle × ModuleBuilder) :=
  b.addTable { type, importName := some name }

/-- Adds a memory whose first bytes fit into it. -/
def addMemory (b : ModuleBuilder) (decl : MemoryDecl) :
    Except BuildError (MemoryHandle × ModuleBuilder) := do
  let type := decl.type
  if type.shared ∧ type.limits.max.isNone then
    throw (.invalidArguments "memory" .sharedWithoutMaximum)
  let data := decl.data.getD []
  unless data.length ≤ type.limits.min.toNat * pageSize do
    throw (.invalidArguments "memory" (.tooMuchData data.length type.limits.min))
  return (⟨b.memories.length, type⟩, { b with memories := b.memories ++ [decl] })

def memory (b : ModuleBuilder) (type : MemoryType) (data : Option Bytes) :
    Except BuildError (MemoryHandle × ModuleBuilder) :=
  b.addMemory { type, data }

def importMemory (b : ModuleBuilder) (name : ImportName) (type : MemoryType)
    (data : Option Bytes) : Except BuildError (MemoryHandle × ModuleBuilder) :=
  b.addMemory { type, data, importName := some name }

end ModuleBuilder

end Wasm
