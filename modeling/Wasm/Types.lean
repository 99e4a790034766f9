/-!
# The types of a module

Value types classify operands, locals and globals; function types are
signatures; limits bound the size of tables and memories. Each type has a
text, which is how listings and messages show it.
-/

namespace Wasm

/-- The type of a value. -/
inductive ValType where
  | i32
  | i64
  | f32
  | f64
  | v128
  | funcRef
  | externRef
deriving DecidableEq, Inhabited, Repr

namespace ValType

/-- References are the types that tables hold. -/
def isRef : ValType → Bool
  | .funcRef | .externRef => true
  | _ => false

/-- The integer and floating-point types. -/
def isNum : ValType → Bool
  | .i32 | .i64 | .f32 | .f64 => true
  | _ => false

def text : ValType → String
  | .i32 => "i32"
  | .i64 => "i64"
  | .f32 => "f32"
  | .f64 => "f64"
  | .v128 => "v128"
  | .funcRef => "funcref"
  | .externRef => "externref"

/-- All value types. -/
def all : List ValType := [.i32, .i64, .f32, .f64, .v128, .funcRef, .externRef]

/-- The value type with the given text. -/
def ofText? (s : String) : Option ValType := all.find? (·.text == s)

/-- A sequence of types as `i32 i64`. -/
def listText (types : List ValType) : String :=
  " ".intercalate (types.map text)

end ValType

/-- A signature. -/
structure FuncType where
  params : List ValType := []
  results : List ValType := []
deriving DecidableEq, Inhabited, Repr

/-- A signature as `(i32 i64) -> (f32)`. -/
def FuncType.text (type : FuncType) : String :=
  "(" ++ ValType.listText type.params ++ ") -> (" ++ ValType.listText type.results ++ ")"

/-- Size bounds, in elements or pages. -/
structure Limits where
  min : UInt32
  max : Option UInt32 := none
deriving DecidableEq, Inhabited, Repr

structure TableType where
  element : ValType
  limits : Limits
deriving DecidableEq, Inhabited, Repr

/-- The type of a memory. A shared memory is visible to several threads. -/
structure MemoryType where
  limits : Limits
  shared : Bool := false
deriving DecidableEq, Inhabited, Repr

structure GlobalType where
  value : ValType
  isMutable : Bool := false
deriving DecidableEq, Inhabited, Repr

end Wasm
