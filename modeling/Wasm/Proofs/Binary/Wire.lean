import Wasm.Proofs.Binary.Values
import Wasm.Proofs.Binary.Representable

/-!
# Values of every wire type

`WireType` names all types that are written and read by themselves, so that
one statement covers the codecs of all of them, vectors of vectors included.
Here it is said which values the decoder takes, and that what is written for
such a value is read back from wherever it stands in an input.
-/

namespace Wasm.WireType

open Decoder

/-! ## Which values can be read back -/

/-- A value that comes back from its bytes: a text and a vector are no longer
than the decoder takes, tables hold references, and a shared memory states its
maximum. -/
def Representable : (type : WireType) → type.Value → Prop
  | .string => fun value => value.utf8ByteSize < 2 ^ 32
  | .funcType => FuncType.Representable
  | .tableType => TableType.Representable
  | .memoryType => MemoryType.Representable
  | .vector item => fun items =>
      items.length ≤ Bound.vectorItems.toNat ∧ ∀ a ∈ items, item.Representable a
  | .u32 | .i32 | .i64 | .f32 | .f64 | .v128 | .bool | .valType | .limits | .globalType
  | .memArg | .blockType => fun _ => True

def decRepresentable : (type : WireType) → (value : type.Value) →
    Decidable (type.Representable value)
  | .string, value => inferInstanceAs (Decidable (value.utf8ByteSize < 2 ^ 32))
  | .funcType, value => inferInstanceAs (Decidable (FuncType.Representable value))
  | .tableType, value => inferInstanceAs (Decidable (TableType.Representable value))
  | .memoryType, value => inferInstanceAs (Decidable (MemoryType.Representable value))
  | .vector item, items =>
      have : DecidablePred item.Representable := decRepresentable item
      inferInstanceAs (Decidable (items.length ≤ Bound.vectorItems.toNat ∧
        ∀ a ∈ items, item.Representable a))
  | .u32, _ | .i32, _ | .i64, _ | .f32, _ | .f64, _ | .v128, _ | .bool, _ | .valType, _
  | .limits, _ | .globalType, _ | .memArg, _ | .blockType, _ => inferInstanceAs (Decidable True)

instance (type : WireType) (value : type.Value) : Decidable (type.Representable value) :=
  decRepresentable type value

/-! ## Reading back -/

/-- Every value takes a byte or more, so a vector has no more items than bytes. -/
theorem encode_ne_nil (type : WireType) (value : type.Value) : type.encode value ≠ [] := by
  cases type with
  | u32 => exact Leb128.unsigned_ne_nil _
  | i32 | i64 => exact Leb128.signed_ne_nil _
  | f32 | f64 | bool | valType | funcType | tableType | globalType => exact List.cons_ne_nil _ _
  | v128 => exact List.ne_nil_of_length_eq_add_one value.length_toList
  | string => exact Codec.string_ne_nil value
  | limits => exact Codec.limits_ne_nil value
  | memoryType => exact Codec.memoryType_ne_nil value
  | memArg => exact List.append_ne_nil_of_left_ne_nil (Leb128.unsigned_ne_nil _) _
  | blockType =>
      cases value with
      | empty | value => exact List.cons_ne_nil _ _
      | funcType index => exact Leb128.signed_ne_nil _
  | vector item => exact List.append_ne_nil_of_left_ne_nil (Leb128.unsigned_ne_nil _) _

theorem reads_encode {type : WireType} {value : type.Value} (rep : type.Representable value) :
    Reads type.codec.decode (type.encode value) value := by
  induction type with
  | u32 => exact Codec.reads_u32 value
  | i32 => exact Codec.reads_i32 value
  | i64 => exact Codec.reads_i64 value
  | f32 => exact Codec.reads_f32 value
  | f64 => exact Codec.reads_f64 value
  | v128 => exact Codec.reads_v128 value
  | bool => exact Codec.reads_bool value
  | string => exact Codec.reads_shortString rep
  | valType => exact Codec.reads_valType value
  | funcType => exact Codec.reads_funcType rep.1 rep.2
  | limits => exact Codec.reads_limits value
  | tableType => exact Codec.reads_tableType rep
  | memoryType => exact Codec.reads_memoryType rep
  | globalType => exact Codec.reads_globalType value
  | memArg => exact Codec.reads_memArg value
  | blockType => exact Codec.reads_blockType value
  | vector item ih =>
      refine Codec.reads_counted rep.1 ?_ ?_
      · intro a member
        exact encode_ne_nil item a
      · intro a member
        exact ih (rep.2 a member)

/-- What is written for a value is read back from any input that holds it, and
nothing else of the input is taken. -/
theorem decodeAt_encode {type : WireType} {value : type.Value} (rep : type.Representable value)
    (front back : Bytes) :
    type.decodeAt (front ++ type.encode value ++ back) front.length =
      .ok (value, (type.encode value).length) := by
  rw [decodeAt, (reads_encode rep).inPlace front back]
  show Except.ok (value, front.length + (type.encode value).length - front.length) = _
  rw [Nat.add_sub_cancel_left]

/-- Vectors in a vector. One number of a signature has in its byte the same seven
bits as the type beside it, another one needs all of its own, and the bytes
around the value could belong to it. -/
theorem decodeAt_encode_nested :
    let type : WireType := .vector (.vector .blockType)
    let value : type.Value := [[.value .externRef, .funcType 0x6F], [], [.funcType 0xFFFFFFFF]]
    type.Representable value ∧
      type.decodeAt ([0x80] ++ type.encode value ++ [0x40]) 1 = .ok (value, 12) := by
  intro type value
  have rep : type.Representable value := by decide
  have length : (type.encode value).length = 12 := by decide +kernel
  have read := decodeAt_encode rep [0x80] [0x40]
  rw [length] at read
  exact ⟨rep, read⟩

end Wasm.WireType
