import Wasm.Bytes
import Wasm.Instr

/-!
# Modules

A module in its final form: every reference is a number, counted in its
class with imports first. Code that builds modules ends here, the encoder
starts here, and the decoder comes back to it.
-/

namespace Wasm

/-- The four classes of entities that can be imported and exported. -/
inductive ExternKind where
  | func
  | table
  | memory
  | global
deriving DecidableEq, Inhabited, Repr

namespace ExternKind

def text : ExternKind → String
  | .func => "func"
  | .table => "table"
  | .memory => "memory"
  | .global => "global"

/-- All classes. -/
def all : List ExternKind := [.func, .table, .memory, .global]

/-- The class with the given text. -/
def ofText? (s : String) : Option ExternKind := all.find? (·.text == s)

end ExternKind

/-- What an import brings in. -/
inductive ImportType where
  | func (typeIndex : UInt32)
  | table (type : TableType)
  | memory (type : MemoryType)
  | global (type : GlobalType)
deriving DecidableEq, Inhabited, Repr

structure Import where
  moduleName : String
  name : String
  type : ImportType
deriving DecidableEq, Inhabited, Repr

/-- A function that the module defines. Its locals are those behind the
parameters, one by one. -/
structure Func where
  typeIndex : UInt32
  locals : List ValType
  body : List Instr
deriving Inhabited

structure Global where
  type : GlobalType
  init : List Instr
deriving Inhabited

structure Export where
  name : String
  kind : ExternKind
  index : UInt32
deriving DecidableEq, Inhabited, Repr

/-- When the entries of an element segment are put into a table. -/
inductive ElementMode where
  | active (tableIndex : UInt32) (offset : List Instr)
  | passive
  | declarative
deriving Inhabited

/-- An element segment; its entries are constant expressions. -/
structure ElementSegment where
  mode : ElementMode
  type : ValType
  init : List (List Instr)
deriving Inhabited

/-- When the bytes of a data segment are put into a memory. -/
inductive DataMode where
  | active (memoryIndex : UInt32) (offset : List Instr)
  | passive
deriving Inhabited

structure DataSegment where
  mode : DataMode
  init : Bytes
deriving Inhabited

structure CustomSection where
  name : String
  data : Bytes
deriving DecidableEq, Inhabited, Repr

structure Module where
  types : List FuncType := []
  imports : List Import := []
  funcs : List Func := []
  tables : List TableType := []
  memories : List MemoryType := []
  globals : List Global := []
  exports : List Export := []
  start : Option UInt32 := none
  elements : List ElementSegment := []
  /-- The number of data segments, where the module states it. -/
  dataCount : Option UInt32 := none
  data : List DataSegment := []
  customs : List CustomSection := []
deriving Inhabited

namespace Module

/-! ## Queries -/

/-- The type indices of the imported functions. -/
def importedFuncTypes (m : Module) : List UInt32 :=
  m.imports.filterMap fun i =>
    match i.type with
    | .func typeIndex => some typeIndex
    | _ => none

def importedFuncCount (m : Module) : Nat := m.importedFuncTypes.length

/-- The type index of a function, imported functions first. -/
def funcTypeIndex? (m : Module) (index : Nat) : Option UInt32 :=
  (m.importedFuncTypes ++ m.funcs.map (·.typeIndex))[index]?

/-- The signature of a function. -/
def funcType? (m : Module) (index : Nat) : Option FuncType := do
  let typeIndex ← m.funcTypeIndex? index
  m.types[typeIndex.toNat]?

/-- The first export of a name. -/
def export? (m : Module) (name : String) : Option Export :=
  m.exports.find? (·.name == name)

end Module

/-! ## Comparison by value

Modules are compared field by field, with the float constants in their code
compared as numbers.
-/

/-- Whether two lists agree item by item. -/
def sameItems {α : Type} (same : α → α → Bool) : List α → List α → Bool
  | [], [] => true
  | a :: as, b :: bs => same a b && sameItems same as bs
  | _, _ => false

def Func.sameValue (a b : Func) : Bool :=
  a.typeIndex == b.typeIndex && a.locals == b.locals && Instr.sameValues a.body b.body

def Global.sameValue (a b : Global) : Bool :=
  a.type == b.type && Instr.sameValues a.init b.init

def ElementMode.sameValue : ElementMode → ElementMode → Bool
  | .active i a, .active j b => i == j && Instr.sameValues a b
  | .passive, .passive => true
  | .declarative, .declarative => true
  | _, _ => false

def ElementSegment.sameValue (a b : ElementSegment) : Bool :=
  a.mode.sameValue b.mode && a.type == b.type && sameItems Instr.sameValues a.init b.init

def DataMode.sameValue : DataMode → DataMode → Bool
  | .active i a, .active j b => i == j && Instr.sameValues a b
  | .passive, .passive => true
  | _, _ => false

def DataSegment.sameValue (a b : DataSegment) : Bool :=
  a.mode.sameValue b.mode && a.init == b.init

/-- Equality of modules, floats compared as numbers. -/
def Module.sameValue (a b : Module) : Bool :=
  a.types == b.types && a.imports == b.imports && sameItems Func.sameValue a.funcs b.funcs &&
    a.tables == b.tables && a.memories == b.memories &&
    sameItems Global.sameValue a.globals b.globals && a.exports == b.exports &&
    a.start == b.start && sameItems ElementSegment.sameValue a.elements b.elements &&
    a.dataCount == b.dataCount && sameItems DataSegment.sameValue a.data b.data &&
    a.customs == b.customs

end Wasm
