import Wasm.InstrSet.Definition

/-!
# Writing definitions

Most instructions follow one of a few patterns: a fixed signature, a
constant, a memory access or a lane access. The functions here write one
definition, or a run of them on consecutive opcodes.
-/

namespace Wasm.InstrSet

/-- A signature. -/
def sig (params results : List ValType) : FuncType := ⟨params, results⟩

def byte (code : UInt8) : Opcode := .single code

def misc (code : UInt32) : Opcode := .extended Opcode.miscSpace code

def vector (code : UInt32) : Opcode := .extended Opcode.vectorSpace code

def atomic (code : UInt32) : Opcode := .extended Opcode.atomicSpace code

/-- An instruction without an immediate and with one signature. -/
def fixed (name : String) (opcode : Opcode) (signature : FuncType) : InstrDef :=
  ⟨name, opcode, .none, some signature, .fixed, .literal⟩

/-- Instructions of one signature on consecutive opcodes. -/
def run (first : Opcode) (names : List String) (signature : FuncType) : List InstrDef :=
  names.zipIdx.map fun (name, i) => fixed name (first.advance i) signature

/-- A constant of the given shape and type. -/
def constant (name : String) (opcode : Opcode) (shape : Shape) (type : ValType) : InstrDef :=
  ⟨name, opcode, shape, some (sig [] [type]), .constant, .literal⟩

/-- A load, store or atomic access, naturally aligned to a power of two. -/
def access (name : String) (opcode : Opcode) (natural : UInt32) (signature : FuncType) :
    InstrDef :=
  ⟨name, opcode, .memArg natural, some signature, .memoryAccess, .memoryAccess⟩

/-- An access to one lane of a vector. -/
def laneAccess (name : String) (opcode : Opcode) (lanes : UInt8) (signature : FuncType) :
    InstrDef :=
  ⟨name, opcode, .lane lanes, some signature, .lane, .literal⟩

end Wasm.InstrSet
