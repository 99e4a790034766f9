import Wasm.Ieee
import Wasm.Types

/-!
# Instructions

An instruction is a mnemonic and an immediate operand in which every
reference is a number. Structured instructions carry their bodies, so code
is a tree and holds no `end` markers. Which mnemonics exist, and which shape
of immediate each one takes, is the business of the instruction set; a tree
may hold any name.
-/

namespace Wasm

/-- A vector constant or a list of shuffle lanes, in memory order. -/
abbrev V128 := Vector UInt8 16

/-- The operand of a memory access; the alignment is a power of two. -/
structure MemArg where
  align : UInt32
  offset : UInt32
deriving DecidableEq, Inhabited, Repr

/-- The type of a structured instruction: nothing, one result, or the number
of a signature. -/
inductive BlockType where
  | empty
  | value (type : ValType)
  | funcType (index : UInt32)
deriving DecidableEq, Inhabited, Repr

mutual

/-- The operand that follows an opcode. -/
inductive Immediate where
  | none
  | i32 (value : Int32)
  | i64 (value : Int64)
  | f32 (value : Binary32)
  | f64 (value : Binary64)
  | v128 (bytes : V128)
  | index (i : UInt32)
  | indexPair (first second : UInt32)
  | memArg (arg : MemArg)
  | lane (l : UInt8)
  | shuffle (lanes : V128)
  | brTable (labels : List UInt32) (fallback : UInt32)
  | callIndirect (typeIndex tableIndex : UInt32)
  | valTypes (types : List ValType)
  | refType (type : ValType)
  | reserved
  | block (type : BlockType) (body : List Instr)
  | ifThen (type : BlockType) (thenBody : List Instr)
  | ifElse (type : BlockType) (thenBody elseBody : List Instr)

/-- A mnemonic with its immediate. -/
inductive Instr where
  | mk (name : String) (immediate : Immediate)

end

instance : Inhabited Immediate := ⟨.none⟩

instance : Inhabited Instr := ⟨.mk "" .none⟩

namespace Instr

def name : Instr → String
  | .mk name _ => name

def immediate : Instr → Immediate
  | .mk _ immediate => immediate

/-- An instruction without an immediate. -/
def plain (name : String) : Instr := .mk name .none

end Instr

/-! ## Size -/

mutual

/-- Instructions inside an immediate. -/
def Immediate.size : Immediate → Nat
  | .block _ body => Instr.totalSize body
  | .ifThen _ thenBody => Instr.totalSize thenBody
  | .ifElse _ thenBody elseBody => Instr.totalSize thenBody + Instr.totalSize elseBody
  | _ => 0

/-- The number of instructions in this one, itself and nested ones counted. -/
def Instr.size : Instr → Nat
  | .mk _ immediate => 1 + immediate.size

/-- The number of instructions in a sequence. -/
def Instr.totalSize : List Instr → Nat
  | [] => 0
  | instr :: rest => instr.size + Instr.totalSize rest

end

/-! ## Comparison by value

Code is compared as a program would compare its constants: the same tree,
with float constants equal as numbers. It is not reflexive, since a NaN
differs from itself.
-/

mutual

/-- Equality of immediates, floats compared as numbers. -/
def Immediate.sameValue : Immediate → Immediate → Bool
  | .none, .none => true
  | .i32 a, .i32 b => a == b
  | .i64 a, .i64 b => a == b
  | .f32 a, .f32 b => a.sameValue b
  | .f64 a, .f64 b => a.sameValue b
  | .v128 a, .v128 b => a == b
  | .index a, .index b => a == b
  | .indexPair a₁ a₂, .indexPair b₁ b₂ => a₁ == b₁ && a₂ == b₂
  | .memArg a, .memArg b => a == b
  | .lane a, .lane b => a == b
  | .shuffle a, .shuffle b => a == b
  | .brTable a d, .brTable b e => a == b && d == e
  | .callIndirect a₁ a₂, .callIndirect b₁ b₂ => a₁ == b₁ && a₂ == b₂
  | .valTypes a, .valTypes b => a == b
  | .refType a, .refType b => a == b
  | .reserved, .reserved => true
  | .block a body, .block b other => a == b && Instr.sameValues body other
  | .ifThen a body, .ifThen b other => a == b && Instr.sameValues body other
  | .ifElse a body elseBody, .ifElse b other elseOther =>
      a == b && Instr.sameValues body other && Instr.sameValues elseBody elseOther
  | _, _ => false

/-- Equality of instructions, floats compared as numbers. -/
def Instr.sameValue : Instr → Instr → Bool
  | .mk name immediate, .mk other otherImmediate =>
      name == other && immediate.sameValue otherImmediate

/-- Equality of code, floats compared as numbers. -/
def Instr.sameValues : List Instr → List Instr → Bool
  | [], [] => true
  | a :: as, b :: bs => a.sameValue b && Instr.sameValues as bs
  | _, _ => false

end

end Wasm
