import Wasm.Body.Construction

/-!
# Shorthands for instructions

One operation for each common instruction, with its operands named and its
result, where there is one, returned as a single value. Everything else can
be written with `instr`.
-/

namespace Wasm.Construction

variable {σ : Type}

/-- The only value of a list. -/
def single (name : String) : List StackVar → Construction σ StackVar
  | [var] => return var
  | _ => throw (.invalidOperand name .notOneValue)

/-- An instruction that leaves one value. -/
def value (name : String) (argument : Argument) (operands : List Operand) :
    Construction σ StackVar := do
  single name (← instr name argument operands)

/-- An instruction whose results are of no interest. -/
def effect (name : String) (argument : Argument) (operands : List Operand) :
    Construction σ Unit := do
  let _ ← instr name argument operands

/-! ## Constants -/

def i32Const (v : Int32) : Construction σ StackVar :=
  value "i32.const" (.literal (.i32 v)) []

def i64Const (v : Int64) : Construction σ StackVar :=
  value "i64.const" (.literal (.i64 v)) []

def f32Const (v : Binary32) : Construction σ StackVar :=
  value "f32.const" (.literal (.f32 v)) []

def f64Const (v : Binary64) : Construction σ StackVar :=
  value "f64.const" (.literal (.f64 v)) []

def v128Const (v : V128) : Construction σ StackVar :=
  value "v128.const" (.literal (.v128 v)) []

/-! ## Variables -/

def localGet (handle : LocalHandle) : Construction σ StackVar :=
  value "local.get" (.localVar handle) []

def localSet (handle : LocalHandle) (v : Operand) : Construction σ Unit :=
  effect "local.set" (.localVar handle) [v]

def localTee (handle : LocalHandle) (v : Operand) : Construction σ StackVar :=
  value "local.tee" (.localVar handle) [v]

def globalGet (handle : GlobalHandle) : Construction σ StackVar :=
  value "global.get" (.globalVar handle) []

def globalSet (handle : GlobalHandle) (v : Operand) : Construction σ Unit :=
  effect "global.set" (.globalVar handle) [v]

/-! ## Calls and branches -/

def call (handle : FuncHandle) (operands : List Operand) : Construction σ (List StackVar) :=
  instr "call" (.func handle) operands

/-- A call through a table; the last operand is the place in the table. -/
def callIndirect (table : TableHandle) (type : FuncType) (operands : List Operand) :
    Construction σ (List StackVar) :=
  instr "call_indirect" (.callIndirect table type) operands

def ret (operands : List Operand) : Construction σ Unit :=
  effect "return" .none operands

def unreachable : Construction σ Unit := effect "unreachable" .none []

def nop : Construction σ Unit := effect "nop" .none []

def br (target : Target) : Construction σ Unit := effect "br" (.branch target) []

/-- The values for the target stay on the stack if the branch is not taken,
and are returned. -/
def brIf (target : Target) (condition : Operand) : Construction σ (List StackVar) :=
  instr "br_if" (.branch target) [condition]

def brTable (targets : List Target) (fallback : Target) (index : Operand) :
    Construction σ Unit :=
  effect "br_table" (.branchTable targets fallback) [index]

/-! ## Operands of any type -/

def drop (v : Operand) : Construction σ Unit := effect "drop" .none [v]

def select (a b condition : Operand) : Construction σ StackVar :=
  value "select" .none [a, b, condition]

def selectTyped (type : ValType) (a b condition : Operand) : Construction σ StackVar :=
  value "select.typed" (.type type) [a, b, condition]

/-! ## References -/

def refNull (type : ValType) : Construction σ StackVar := value "ref.null" (.type type) []

def refFunc (handle : FuncHandle) : Construction σ StackVar :=
  value "ref.func" (.func handle) []

def refIsNull (v : Operand) : Construction σ StackVar := value "ref.is_null" .none [v]

/-! ## Memory -/

/-- A naturally aligned load. -/
def load (name : String) (offset : UInt32) (address : Operand) : Construction σ StackVar :=
  value name (.memory offset none) [address]

/-- A naturally aligned store. -/
def store (name : String) (offset : UInt32) (address v : Operand) : Construction σ Unit :=
  effect name (.memory offset none) [address, v]

def memorySize : Construction σ StackVar := value "memory.size" .none []

def memoryGrow (delta : Operand) : Construction σ StackVar :=
  value "memory.grow" .none [delta]

def memoryCopy (destination source length : Operand) : Construction σ Unit :=
  effect "memory.copy" .none [destination, source, length]

def memoryFill (destination v length : Operand) : Construction σ Unit :=
  effect "memory.fill" .none [destination, v, length]

/-! ## Tables -/

def tableGet (table : TableHandle) (index : Operand) : Construction σ StackVar :=
  value "table.get" (.table table) [index]

def tableSet (table : TableHandle) (index v : Operand) : Construction σ Unit :=
  effect "table.set" (.table table) [index, v]

def tableSize (table : TableHandle) : Construction σ StackVar :=
  value "table.size" (.table table) []

def tableGrow (table : TableHandle) (init delta : Operand) : Construction σ StackVar :=
  value "table.grow" (.table table) [init, delta]

def tableFill (table : TableHandle) (start v length : Operand) : Construction σ Unit :=
  effect "table.fill" (.table table) [start, v, length]

def tableCopy (destination source : TableHandle) (target start length : Operand) :
    Construction σ Unit :=
  effect "table.copy" (.tablePair destination source) [target, start, length]

/-! ## Vectors and atomics -/

def extractLane (name : String) (lane : UInt8) (vector : Operand) : Construction σ StackVar :=
  value name (.lane lane) [vector]

def replaceLane (name : String) (lane : UInt8) (vector v : Operand) :
    Construction σ StackVar :=
  value name (.lane lane) [vector, v]

def shuffle (lanes : V128) (a b : Operand) : Construction σ StackVar :=
  value "i8x16.shuffle" (.literal (.shuffle lanes)) [a, b]

def atomicFence : Construction σ Unit := effect "atomic.fence" .none []

/-! ## By mnemonic -/

def unary (name : String) (a : Operand) : Construction σ StackVar := value name .none [a]

def binary (name : String) (a b : Operand) : Construction σ StackVar :=
  value name .none [a, b]

end Wasm.Construction
