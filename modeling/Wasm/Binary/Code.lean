import Wasm.Binary.Codec
import Wasm.InstrSet.Standard

/-!
# Code

An expression is a sequence of instructions with an `end` byte behind it. An
instruction is its opcode and its immediate; the instruction set says which
shape of immediate follows an opcode. Bodies nest, each one an expression of
its own, except that the first body of a two-armed conditional is closed by
an `else` byte.
-/

namespace Wasm

/-- The byte that closes a body. -/
def endByte : UInt8 := 0x0B

/-- The byte between the two bodies of a conditional. -/
def elseByte : UInt8 := 0x05

/-! ## Writing -/

def Opcode.encode : Opcode → Bytes
  | .single byte => [byte]
  | .extended space code => space :: Codec.u32.encode code

mutual

/-- The bytes of an immediate, which fail only for an unknown mnemonic in a
body. -/
def Immediate.encode : Immediate → Except LookupError Bytes
  | .none => .ok []
  | .i32 value => .ok (Codec.i32.encode value)
  | .i64 value => .ok (Codec.i64.encode value)
  | .f32 value => .ok (Codec.f32.encode value)
  | .f64 value => .ok (Codec.f64.encode value)
  | .v128 value | .shuffle value => .ok (Codec.v128.encode value)
  | .index i => .ok (Codec.u32.encode i)
  | .indexPair first second => .ok (Codec.u32.encode first ++ Codec.u32.encode second)
  | .memArg arg => .ok (Codec.memArg.encode arg)
  | .lane l => .ok [l]
  | .brTable labels fallback =>
      .ok (Codec.encodeList Codec.u32.encode labels ++ Codec.u32.encode fallback)
  | .callIndirect typeIndex tableIndex =>
      .ok (Codec.u32.encode typeIndex ++ Codec.u32.encode tableIndex)
  | .valTypes types => .ok (Codec.encodeList Codec.valType.encode types)
  | .refType type => .ok (Codec.valType.encode type)
  | .reserved => .ok [0x00]
  | .block type body => do
      let body ← Instr.encodeAll body
      return Codec.blockType.encode type ++ body ++ [endByte]
  | .ifThen type thenBody => do
      let thenBody ← Instr.encodeAll thenBody
      return Codec.blockType.encode type ++ thenBody ++ [endByte]
  | .ifElse type thenBody elseBody => do
      let thenBody ← Instr.encodeAll thenBody
      let elseBody ← Instr.encodeAll elseBody
      return Codec.blockType.encode type ++ thenBody ++ [elseByte] ++ elseBody ++ [endByte]

/-- The bytes of an instruction. The immediate is written as it is, whatever
shape the mnemonic asks for. -/
def Instr.encode : Instr → Except LookupError Bytes
  | .mk name immediate => do
    let definition ← InstrSet.standard.named name
    let operand ← immediate.encode
    return definition.opcode.encode ++ operand

/-- The bytes of a sequence of instructions. -/
def Instr.encodeAll : List Instr → Except LookupError Bytes
  | [] => .ok []
  | instr :: rest => do
    let head ← instr.encode
    let tail ← Instr.encodeAll rest
    return head ++ tail

end

/-- The bytes of an expression. -/
def encodeExpr (body : List Instr) : Except LookupError Bytes := do
  let body ← Instr.encodeAll body
  return body ++ [endByte]

/-! ## Reading -/

/-- The byte that closed a body. -/
inductive Terminator where
  | endOfBody
  | elseArm
deriving DecidableEq, Inhabited, Repr

namespace Decoder

/-- The definition of the instruction whose first byte `byte` was read at
`start`. -/
def definition (start : Nat) (byte : UInt8) : Decoder InstrDef :=
  match InstrSet.standard.atByte byte with
  | .error e => failAt start (.unknownInstruction e)
  | .ok (.instr definition) => return definition
  | .ok (.space space) => do
    let code ← Codec.u32.decode
    match InstrSet.standard.atCode space code with
    | .error e => failAt start (.unknownInstruction e)
    | .ok definition => return definition

/-- An immediate of a given shape. Bodies are read by `body`, which is told
whether an `else` may close the body. -/
def immediate (body : Bool → Decoder (List Instr × Terminator)) : Shape → Decoder Immediate
  | .none => return .none
  | .i32 => return .i32 (← Codec.i32.decode)
  | .i64 => return .i64 (← Codec.i64.decode)
  | .f32 => return .f32 (← Codec.f32.decode)
  | .f64 => return .f64 (← Codec.f64.decode)
  | .v128 => return .v128 (← Codec.v128.decode)
  | .shuffle => return .shuffle (← Codec.v128.decode)
  | .index => return .index (← Codec.u32.decode)
  | .indexPair => return .indexPair (← Codec.u32.decode) (← Codec.u32.decode)
  | .memArg _ => return .memArg (← Codec.memArg.decode)
  | .lane _ => return .lane (← byte)
  | .brTable => do
    let labels ← Codec.counted "br_table labels" Bound.branchLabels Codec.u32.decode
    return .brTable labels (← Codec.u32.decode)
  | .callIndirect => return .callIndirect (← Codec.u32.decode) (← Codec.u32.decode)
  | .selectTypes =>
    return .valTypes (← Codec.counted "select types" Bound.selectTypes Codec.valType.decode)
  | .refType => return .refType (← Codec.refType)
  | .reserved => do
    expect 0x00
    return .reserved
  | .block => do
    let type ← Codec.blockType.decode
    let (body, _) ← body false
    return .block type body
  | .conditional => do
    let type ← Codec.blockType.decode
    let (thenBody, terminator) ← body true
    match terminator with
    | .endOfBody => return .ifThen type thenBody
    | .elseArm =>
      let (elseBody, _) ← body false
      return .ifElse type thenBody elseBody

/-- Reads a body that lies inside `depth` structured instructions and belongs
to one more. -/
def nested {α : Type} (depth : Nat) (inner : Decoder α) : Decoder α :=
  if Bound.nesting.toNat ≤ depth then
    fail (.limitExceeded "nested blocks" (depth + 1) Bound.nesting)
  else inner

/-- Instructions up to the byte that closes them, inside `depth` structured
instructions. Each step reads a byte, so as much fuel as there is input
suffices. -/
def body : (fuel : Nat) → (depth : Nat) → (inThenArm : Bool) →
    Decoder (List Instr × Terminator)
  | 0, _, _ => failAtEnd
  | fuel + 1, depth, inThenArm => do
    let start ← offset
    let b ← byte
    if b = endByte then return ([], .endOfBody)
    else if b = elseByte then
      if inThenArm then return ([], .elseArm) else failAt start .unexpectedElse
    else
      let definition ← definition start b
      let operand ← immediate (fun inThenArm => nested depth (body fuel (depth + 1) inThenArm))
        definition.shape
      let (rest, terminator) ← body fuel depth inThenArm
      return (.mk definition.name operand :: rest, terminator)

/-- An expression: instructions up to the closing `end`. -/
def expr : Decoder (List Instr) := do
  let fuel ← remaining
  let (body, _) ← body (fuel + 1) 0 false
  return body

end Decoder

end Wasm
