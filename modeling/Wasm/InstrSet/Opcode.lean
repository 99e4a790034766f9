import Wasm.Text.Hex
import Wasm.Text.Quoted

/-!
# Opcodes

An opcode is a byte, or a byte that opens a space of further codes together
with a code in that space.
-/

namespace Wasm

/-- How an instruction is spelled in the binary format. -/
inductive Opcode where
  | single (byte : UInt8)
  | extended (space : UInt8) (code : UInt32)
deriving DecidableEq, Inhabited, Repr

namespace Opcode

/-- The opcode `n` places after this one, in the same space. -/
def advance : Opcode → Nat → Opcode
  | .single byte, n => .single (byte + UInt8.ofNat n)
  | .extended space code, n => .extended space (code + UInt32.ofNat n)

/-- The space an opcode lies in, if it does not stand alone. -/
def space? : Opcode → Option UInt8
  | .single _ => none
  | .extended space _ => some space

/-- The space of saturating conversions and bulk operations. -/
def miscSpace : UInt8 := 0xFC

/-- The space of vector instructions. -/
def vectorSpace : UInt8 := 0xFD

/-- The space of atomic instructions. -/
def atomicSpace : UInt8 := 0xFE

/-- Atomic accesses have stricter alignment rules. -/
def isAtomic (opcode : Opcode) : Bool := opcode.space? == some atomicSpace

def text : Opcode → String
  | .single byte => Text.hexByte byte
  | .extended space code => Text.hexByte space ++ " " ++ Text.hexNat code.toNat

end Opcode

/-- A mnemonic or opcode that the instruction set does not have. -/
inductive LookupError where
  | unknownName (name : String)
  | unknownByte (byte : UInt8)
  | unknownCode (space : UInt8) (code : UInt32)
deriving DecidableEq, Inhabited, Repr

def LookupError.message : LookupError → String
  | .unknownName name => "invalid instruction name " ++ Text.quoted name
  | .unknownByte byte => "invalid opcode " ++ (Opcode.single byte).text
  | .unknownCode space code => "invalid opcode " ++ (Opcode.extended space code).text

end Wasm
