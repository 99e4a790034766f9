import Wasm.InstrSet.Opcode
import Wasm.Instr

/-!
# Instruction definitions

A definition says everything about one instruction: its mnemonic and opcode,
the shape of its immediate, and two rules. The typing rule is used while code
is written, and says what the instruction takes from the operand stack and
what it leaves there. The linking rule is used once entities have numbers,
and says how the immediate is made from them. Both rules are data, so that a
definition can be inspected and compared; the functions that follow them live
with the stack checker and with the linker.
-/

namespace Wasm

/-- The shape of an immediate. -/
inductive Shape where
  | none
  | i32
  | i64
  | f32
  | f64
  | v128
  | index
  | indexPair
  /-- A memory operand of an access that is naturally aligned to this power of two. -/
  | memArg (natural : UInt32)
  /-- A lane number below this bound. -/
  | lane (lanes : UInt8)
  | shuffle
  | brTable
  | callIndirect
  | selectTypes
  | refType
  /-- A single zero byte. -/
  | reserved
  | block
  | conditional
deriving DecidableEq, Inhabited, Repr

/-- Whether an immediate has the shape. Bounds in the shape are not checked. -/
def Shape.fits : Shape → Immediate → Bool
  | .none, .none => true
  | .i32, .i32 _ => true
  | .i64, .i64 _ => true
  | .f32, .f32 _ => true
  | .f64, .f64 _ => true
  | .v128, .v128 _ => true
  | .index, .index _ => true
  | .indexPair, .indexPair .. => true
  | .memArg _, .memArg _ => true
  | .lane _, .lane _ => true
  | .shuffle, .shuffle _ => true
  | .brTable, .brTable .. => true
  | .callIndirect, .callIndirect .. => true
  | .selectTypes, .valTypes _ => true
  | .refType, .refType _ => true
  | .reserved, .reserved => true
  | .block, .block .. => true
  | .conditional, .ifThen .. => true
  | .conditional, .ifElse .. => true
  | _, _ => false

/-- Structured instructions have bodies. -/
def Shape.isStructured : Shape → Bool
  | .block | .conditional => true
  | _ => false

/-- How the stack effect of one use of an instruction is found. -/
inductive TypingRule where
  /-- The signature of the definition. -/
  | fixed
  /-- The same, and control does not continue. -/
  | trap
  | constant
  | shuffle
  | lane
  | fence
  | memoryAccess
  | memory
  | localGet
  | localSet
  | localTee
  | globalGet
  | globalSet
  | call
  | callIndirect
  | ret
  | br
  | brIf
  | brTable
  | drop
  | select
  | selectTyped
  | refNull
  | refIsNull
  | refFunc
  | tableGet
  | tableSet
  | tableSize
  | tableGrow
  | tableFill
  | tableCopy
  | block
  | conditional
deriving DecidableEq, Inhabited, Repr

/-- How the immediate is made from the numbers of the entities in use. -/
inductive LinkRule where
  /-- The immediate was known when the instruction was written. -/
  | literal
  /-- The same; the memory has to exist, but its number is not written. -/
  | memoryAccess
  | index
  | refFunc
  | callIndirect
  /-- One memory, named twice. -/
  | memoryCopy
  | tableCopy
  | block
  | conditional
deriving DecidableEq, Inhabited, Repr

/-- One instruction of an instruction set. -/
structure InstrDef where
  name : String
  opcode : Opcode
  shape : Shape
  /-- The stack effect, where it is the same at every use. -/
  signature : Option FuncType
  typing : TypingRule
  linking : LinkRule
deriving DecidableEq, Inhabited, Repr

end Wasm
