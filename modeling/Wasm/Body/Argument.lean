import Wasm.Body.Draft
import Wasm.Body.Value

/-!
# Arguments of instructions

What a use of an instruction says beyond its mnemonic. Each typing rule takes
arguments of one kind.
-/

namespace Wasm

/-- What is given with an instruction when it is written. -/
inductive Argument where
  | none
  /-- A literal: a constant or shuffle lanes. -/
  | literal (immediate : Immediate)
  | localVar (handle : LocalHandle)
  | globalVar (handle : GlobalHandle)
  | func (handle : FuncHandle)
  | callIndirect (table : TableHandle) (type : FuncType)
  | table (handle : TableHandle)
  | tablePair (destination source : TableHandle)
  /-- A memory operand; without an alignment it is the natural one. -/
  | memory (offset : UInt32) (align : Option UInt32)
  | lane (l : UInt8)
  | branch (target : Target)
  | branchTable (targets : List Target) (fallback : Target)
  | type (type : ValType)
  | block (type : FuncType) (body : List Draft)
  | ifThen (type : FuncType) (thenBody : List Draft)
  | ifElse (type : FuncType) (thenBody elseBody : List Draft)
deriving Inhabited

/-- The kind of an argument in words. -/
def Argument.description : Argument → String
  | .none => "no arguments"
  | .literal _ => "an immediate"
  | .localVar _ => "a local"
  | .globalVar _ => "a global"
  | .func _ => "a function"
  | .callIndirect .. => "an indirect call target"
  | .table _ => "a table"
  | .tablePair .. => "a table pair"
  | .memory .. => "a memory argument"
  | .lane _ => "a lane index"
  | .branch _ => "a branch target"
  | .branchTable .. => "a branch table"
  | .type _ => "a value type"
  | .block .. => "a block body"
  | .ifThen .. | .ifElse .. => "if/else bodies"

end Wasm
