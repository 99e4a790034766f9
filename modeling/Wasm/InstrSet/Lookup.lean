import Wasm.InstrSet.Definition

/-!
# Looking up instructions

An instruction set is a list of definitions, and the first definition with
the wanted name or opcode is the one that counts. A byte that opens a space
for any definition is never an instruction by itself.
-/

namespace Wasm

structure InstrSet where
  defs : List InstrDef
deriving DecidableEq, Inhabited, Repr

/-- What a first opcode byte stands for. -/
inductive OpcodeEntry where
  | instr (definition : InstrDef)
  /-- A code of this space follows. -/
  | space (byte : UInt8)
deriving DecidableEq, Inhabited, Repr

namespace InstrSet

/-- The definition of a mnemonic. -/
def named (set : InstrSet) (name : String) : Except LookupError InstrDef :=
  match set.defs.find? (·.name == name) with
  | some definition => .ok definition
  | none => .error (.unknownName name)

/-- What an opcode that starts with `byte` stands for. -/
def atByte (set : InstrSet) (byte : UInt8) : Except LookupError OpcodeEntry :=
  if set.defs.any (·.opcode.space? == some byte) then
    .ok (.space byte)
  else
    match set.defs.find? (·.opcode == .single byte) with
    | some definition => .ok (.instr definition)
    | none => .error (.unknownByte byte)

/-- The definition of a code in a space. -/
def atCode (set : InstrSet) (space : UInt8) (code : UInt32) : Except LookupError InstrDef :=
  match set.defs.find? (·.opcode == .extended space code) with
  | some definition => .ok definition
  | none => .error (.unknownCode space code)

end InstrSet

end Wasm
