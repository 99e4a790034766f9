import Wasm.Binary.Bound
import Wasm.Binary.Leb128
import Wasm.Instr

/-!
# Codecs

A codec writes values of one type and reads them back. Writers choose the
shortest spelling throughout. `WireType` names the types that have a codec,
vectors of them included, so that a law about all codecs can be stated over
one variable.
-/

namespace Wasm

/-- Writing and reading one type of values. -/
structure Codec (α : Type) where
  encode : α → Bytes
  decode : Decoder α

namespace Codec

/-! ## Numbers -/

def u32 : Codec UInt32 where
  encode value := Leb128.unsigned value.toNat
  decode := UInt32.ofNat <$> Leb128.readUnsigned 32

def u64 : Codec UInt64 where
  encode value := Leb128.unsigned value.toNat
  decode := UInt64.ofNat <$> Leb128.readUnsigned 64

def i32 : Codec Int32 where
  encode value := Leb128.signed value.toInt
  decode := Int32.ofInt <$> Leb128.readSigned 32

def i64 : Codec Int64 where
  encode value := Leb128.signed value.toInt
  decode := Int64.ofInt <$> Leb128.readSigned 64

/-- Floats are four bytes, least significant first. -/
def f32 : Codec Binary32 where
  encode value := Bytes.littleEndian 4 value.bits.toNat
  decode := (fun bs => ⟨UInt32.ofNat (Bytes.toNatLE bs)⟩) <$> Decoder.bytes 4

/-- Floats are eight bytes, least significant first. -/
def f64 : Codec Binary64 where
  encode value := Bytes.littleEndian 8 value.bits.toNat
  decode := (fun bs => ⟨UInt64.ofNat (Bytes.toNatLE bs)⟩) <$> Decoder.bytes 8

/-- Vectors are sixteen bytes as they are. -/
def v128 : Codec V128 where
  encode value := value.toList
  decode := do
    let bs ← Decoder.bytes 16
    if h : bs.length = 16 then return ⟨bs.toArray, by simp [h]⟩
    else Decoder.failAtEnd

def bool : Codec Bool where
  encode value := [if value then 1 else 0]
  decode := do
    let start ← Decoder.offset
    match ← Decoder.byte with
    | 0 => return false
    | 1 => return true
    | found => Decoder.failAt start (.unexpectedByte 1 found)

/-! ## Vectors -/

/-- The length of a vector of items that take a byte or more each. It must
not exceed `limit` nor the bytes that are left. -/
def count (what : String) (limit : UInt32) : Decoder Nat := do
  let start ← Decoder.offset
  let n ← Leb128.readUnsigned 32
  if limit.toNat < n then Decoder.failAt start (.limitExceeded what n limit)
  else if ← Decoder.hasAtLeast n then return n
  else Decoder.failAtEnd

/-- Items behind their number. -/
def counted {α : Type} (what : String) (limit : UInt32) (item : Decoder α) :
    Decoder (List α) := do
  let n ← count what limit
  Decoder.list item n

/-- The number of items, then the items. -/
def encodeList {α : Type} (encode : α → Bytes) (items : List α) : Bytes :=
  u32.encode (UInt32.ofNat items.length) ++ items.flatMap encode

def vector {α : Type} (item : Codec α) : Codec (List α) where
  encode items := encodeList item.encode items
  decode := counted "vector items" Bound.vectorItems item.decode

/-- Bytes behind their number. -/
def byteVector : Codec Bytes where
  encode value := u32.encode (UInt32.ofNat value.length) ++ value
  decode := do
    let n ← Leb128.readUnsigned 32
    Decoder.bytes n

/-- Text in UTF-8 behind the number of its bytes. -/
def string : Codec String where
  encode value := byteVector.encode value.toUTF8.toList
  decode := do
    let start ← Decoder.offset
    let bs ← byteVector.decode
    match String.fromUTF8? ⟨bs.toArray⟩ with
    | some value => return value
    | none => Decoder.failAt start .invalidUtf8

/-! ## Types -/

end Codec

namespace ValType

def toByte : ValType → UInt8
  | .i32 => 0x7F
  | .i64 => 0x7E
  | .f32 => 0x7D
  | .f64 => 0x7C
  | .v128 => 0x7B
  | .funcRef => 0x70
  | .externRef => 0x6F

def ofByte? (byte : UInt8) : Option ValType :=
  match byte.toNat with
  | 0x7F => some .i32
  | 0x7E => some .i64
  | 0x7D => some .f32
  | 0x7C => some .f64
  | 0x7B => some .v128
  | 0x70 => some .funcRef
  | 0x6F => some .externRef
  | _ => none

end ValType

namespace Codec

def valType : Codec ValType where
  encode type := [type.toByte]
  decode := do
    let start ← Decoder.offset
    let b ← Decoder.byte
    match ValType.ofByte? b with
    | some type => return type
    | none => Decoder.failAt start (.invalidValueType b)

/-- A value type that must be a reference type. -/
def refType : Decoder ValType := do
  let start ← Decoder.offset
  let type ← valType.decode
  if type.isRef then return type
  else Decoder.failAt start (.invalidValueType type.toByte)

/-- The byte that opens a signature. -/
def funcTypeTag : UInt8 := 0x60

def funcType : Codec FuncType where
  encode type :=
    funcTypeTag :: encodeList valType.encode type.params ++
      encodeList valType.encode type.results
  decode := do
    Decoder.expect funcTypeTag
    let params ← counted "value types" Bound.valueTypes valType.decode
    let results ← counted "value types" Bound.valueTypes valType.decode
    return { params, results }

/-- Limits open with a flag that says whether a maximum follows. -/
def limits : Codec Limits where
  encode value :=
    match value.max with
    | none => 0x00 :: u32.encode value.min
    | some max => 0x01 :: u32.encode value.min ++ u32.encode max
  decode := do
    let start ← Decoder.offset
    match ← Decoder.byte with
    | 0x00 => return { min := ← u32.decode }
    | 0x01 => return { min := ← u32.decode, max := some (← u32.decode) }
    | flags => Decoder.failAt start (.invalidLimits flags)

def tableType : Codec TableType where
  encode type := type.element.toByte :: limits.encode type.limits
  decode := return { element := ← refType, limits := ← limits.decode }

/-- The flag of a shared memory, which always writes a maximum. -/
def sharedFlag : UInt8 := 0x03

/-- A shared memory without a maximum is written with its minimum in that
place. -/
def memoryType : Codec MemoryType where
  encode type :=
    if type.shared then
      sharedFlag :: u32.encode type.limits.min ++
        u32.encode (type.limits.max.getD type.limits.min)
    else limits.encode type.limits
  decode := do
    if (← Decoder.peek) = sharedFlag then
      let _ ← Decoder.byte
      let min ← u32.decode
      let max ← u32.decode
      return { limits := { min, max := some max }, shared := true }
    else return { limits := ← limits.decode }

def globalType : Codec GlobalType where
  encode type := [type.value.toByte, if type.isMutable then 1 else 0]
  decode := do
    let value ← valType.decode
    let start ← Decoder.offset
    match ← Decoder.byte with
    | 0 => return { value }
    | 1 => return { value, isMutable := true }
    | flag => Decoder.failAt start (.invalidMutability flag)

/-! ## Immediates -/

def memArg : Codec MemArg where
  encode arg := u32.encode arg.align ++ u32.encode arg.offset
  decode := return { align := ← u32.decode, offset := ← u32.decode }

/-- The byte of a structured instruction without parameters and results. -/
def emptyBlockTag : UInt8 := 0x40

/-- The number of a signature is a signed integer, so that it cannot be taken
for a value type. -/
def blockType : Codec BlockType where
  encode
    | .empty => [emptyBlockTag]
    | .value type => [type.toByte]
    | .funcType index => Leb128.signed index.toNat
  decode := do
    let start ← Decoder.offset
    let b ← Decoder.peek
    if b = emptyBlockTag then
      let _ ← Decoder.byte
      return .empty
    else
      match ValType.ofByte? b with
      | some type =>
        let _ ← Decoder.byte
        return .value type
      | none =>
        let index ← Leb128.readSigned 33
        if index < 0 then Decoder.failAt start .invalidBlockType
        else return .funcType (UInt32.ofNat index.toNat)

end Codec

/-! ## All types with a codec -/

/-- The types of values that can be written and read by themselves. -/
inductive WireType where
  | u32
  | i32
  | i64
  | f32
  | f64
  | v128
  | bool
  | string
  | valType
  | funcType
  | limits
  | tableType
  | memoryType
  | globalType
  | memArg
  | blockType
  | vector (item : WireType)
deriving DecidableEq, Inhabited, Repr

namespace WireType

/-- The values of a wire type. -/
abbrev Value : WireType → Type
  | .u32 => UInt32
  | .i32 => Int32
  | .i64 => Int64
  | .f32 => Binary32
  | .f64 => Binary64
  | .v128 => V128
  | .bool => Bool
  | .string => String
  | .valType => ValType
  | .funcType => FuncType
  | .limits => Limits
  | .tableType => TableType
  | .memoryType => MemoryType
  | .globalType => GlobalType
  | .memArg => MemArg
  | .blockType => BlockType
  | .vector item => List item.Value

/-- The codec of a wire type. -/
def codec : (type : WireType) → Codec type.Value
  | .u32 => .u32
  | .i32 => .i32
  | .i64 => .i64
  | .f32 => .f32
  | .f64 => .f64
  | .v128 => .v128
  | .bool => .bool
  | .string => .string
  | .valType => .valType
  | .funcType => .funcType
  | .limits => .limits
  | .tableType => .tableType
  | .memoryType => .memoryType
  | .globalType => .globalType
  | .memArg => .memArg
  | .blockType => .blockType
  | .vector item => .vector item.codec

/-- Reads a value at an offset of the input; the second part of the result
is the number of bytes read. -/
def decodeAt (type : WireType) (input : Bytes) (offset : Nat) :
    Except DecodeError (type.Value × Nat) :=
  match type.codec.decode (Cursor.ofInput input offset) with
  | .ok value c => .ok (value, c.offset - offset)
  | .error e _ => .error e

/-- The bytes of a value. -/
def encode (type : WireType) (value : type.Value) : Bytes :=
  type.codec.encode value

end WireType

end Wasm
