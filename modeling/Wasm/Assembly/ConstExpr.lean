import Wasm.Body.Error

/-!
# Constant expressions

The values that globals and table entries can start with: constants,
references, and the values of imported immutable globals.
-/

namespace Wasm

inductive ConstExpr where
  | i32 (value : Int32)
  | i64 (value : Int64)
  | f32 (value : Binary32)
  | f64 (value : Binary64)
  | v128 (value : V128)
  | refNull (type : ValType)
  | refFunc (handle : FuncHandle)
  | globalGet (handle : GlobalHandle)
deriving DecidableEq, Inhabited

namespace ConstExpr

/-- The type of the value. -/
def type : ConstExpr → ValType
  | .i32 _ => .i32
  | .i64 _ => .i64
  | .f32 _ => .f32
  | .f64 _ => .f64
  | .v128 _ => .v128
  | .refNull type => type
  | .refFunc _ => .funcRef
  | .globalGet handle => handle.type.value

/-- What can be said against an expression without looking at declarations. -/
def check : ConstExpr → Except BuildError Unit
  | .refNull type =>
    if type.isRef then .ok () else .error (.invalidArguments "ref.null" (.notReference type))
  | .globalGet handle =>
    if handle.type.isMutable then .error (.invalidArguments "global.get" .mutableGlobal)
    else .ok ()
  | _ => .ok ()

/-- What the expression refers to. -/
def references : ConstExpr → List Reference
  | .refFunc handle => [.func handle.id]
  | .globalGet handle => [.global handle.id]
  | _ => []

end ConstExpr

end Wasm
