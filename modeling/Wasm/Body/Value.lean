import Wasm.Entity

/-!
# Values, locals and labels of a body

What code under construction can be told about: values on the operand stack,
locals, and the labels of the constructs around it.
-/

namespace Wasm

/-- A value on the operand stack. Ids are handed out in turn and start over after
2^32 of them, so in a body of no more values than that this is a particular
value and not a place on the stack. -/
structure StackVar where
  id : UInt32
  type : ValType
deriving DecidableEq, Inhabited, Repr

def StackVar.text (var : StackVar) : String :=
  "%" ++ toString var.id.toNat ++ ":" ++ var.type.text

/-- A parameter or declared local. -/
structure LocalHandle where
  index : UInt32
  type : ValType
deriving DecidableEq, Inhabited, Repr

/-- The identity of a construct that code can branch to, among the last 2^32 that
were begun in its body. -/
structure Label where
  id : UInt32
deriving DecidableEq, Inhabited, Repr

def Label.text (label : Label) : String := "@" ++ toString label.id.toNat

/-- Where a branch goes: to a construct by its label, or out of a number of
constructs. -/
inductive Target where
  | label (l : Label)
  | depth (d : UInt32)
deriving DecidableEq, Inhabited, Repr

def Target.text : Target → String
  | .label l => l.text
  | .depth d => "depth " ++ toString d.toNat

/-- An operand of an instruction. The first two are on the stack already; the
others are pushed by an instruction of their own. -/
inductive Operand where
  | stack
  | var (v : StackVar)
  | localVar (handle : LocalHandle)
  | globalVar (handle : GlobalHandle)
  | i32 (value : Int32)
  | i64 (value : Int64)
  | f32 (value : Binary32)
  | f64 (value : Binary64)
deriving DecidableEq, Inhabited, Repr

def Operand.isOnStack : Operand → Bool
  | .stack | .var _ => true
  | _ => false

end Wasm
