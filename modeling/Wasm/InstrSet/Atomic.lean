import Wasm.InstrSet.Entry

/-!
# Atomic instructions

Every atomic operation comes in seven widths on consecutive opcodes: the two
full widths, then the narrow accesses to each.
-/

namespace Wasm.InstrSet

open ValType

/-- What an atomic operation does with its operands. -/
inductive AtomicKind where
  | load
  | store
  | rmw
  | cmpxchg
deriving DecidableEq, Repr

/-- The stack effect of an atomic operation on values of one integer type. -/
def AtomicKind.signature (value : ValType) : AtomicKind → FuncType
  | .load => sig [i32] [value]
  | .store => sig [i32, value] []
  | .rmw => sig [i32, value] [value]
  | .cmpxchg => sig [i32, value, value] [value]

/-- The value type and alignment of the seven widths. -/
def atomicWidths : List (ValType × UInt32) :=
  [(i32, 2), (i64, 3), (i32, 0), (i32, 1), (i64, 0), (i64, 1), (i64, 2)]

/-- The seven widths of an operation, from the code of the first one. -/
def atomicFamily (kind : AtomicKind) (first : UInt32) (names : List String) : List InstrDef :=
  (names.zip atomicWidths).zipIdx.map fun ((name, value, natural), i) =>
    access name ((atomic first).advance i) natural (kind.signature value)

/-- Waiting, waking and ordering. -/
def waiting : List InstrDef :=
  [access "memory.atomic.notify" (atomic 0x00) 2 (sig [i32, i32] [i32]),
   access "memory.atomic.wait32" (atomic 0x01) 2 (sig [i32, i32, i64] [i32]),
   access "memory.atomic.wait64" (atomic 0x02) 3 (sig [i32, i64, i64] [i32]),
   ⟨"atomic.fence", atomic 0x03, .reserved, some (sig [] []), .fence, .literal⟩]

/-- Accesses in all widths. -/
def atomicAccesses : List InstrDef :=
  atomicFamily .load 0x10 ["i32.atomic.load", "i64.atomic.load", "i32.atomic.load8_u",
      "i32.atomic.load16_u", "i64.atomic.load8_u", "i64.atomic.load16_u", "i64.atomic.load32_u"] ++
  atomicFamily .store 0x17 ["i32.atomic.store", "i64.atomic.store", "i32.atomic.store8",
      "i32.atomic.store16", "i64.atomic.store8", "i64.atomic.store16", "i64.atomic.store32"] ++
  atomicFamily .rmw 0x1E ["i32.atomic.rmw.add", "i64.atomic.rmw.add", "i32.atomic.rmw8.add_u",
      "i32.atomic.rmw16.add_u", "i64.atomic.rmw8.add_u", "i64.atomic.rmw16.add_u",
      "i64.atomic.rmw32.add_u"] ++
  atomicFamily .rmw 0x25 ["i32.atomic.rmw.sub", "i64.atomic.rmw.sub", "i32.atomic.rmw8.sub_u",
      "i32.atomic.rmw16.sub_u", "i64.atomic.rmw8.sub_u", "i64.atomic.rmw16.sub_u",
      "i64.atomic.rmw32.sub_u"] ++
  atomicFamily .rmw 0x2C ["i32.atomic.rmw.and", "i64.atomic.rmw.and", "i32.atomic.rmw8.and_u",
      "i32.atomic.rmw16.and_u", "i64.atomic.rmw8.and_u", "i64.atomic.rmw16.and_u",
      "i64.atomic.rmw32.and_u"] ++
  atomicFamily .rmw 0x33 ["i32.atomic.rmw.or", "i64.atomic.rmw.or", "i32.atomic.rmw8.or_u",
      "i32.atomic.rmw16.or_u", "i64.atomic.rmw8.or_u", "i64.atomic.rmw16.or_u",
      "i64.atomic.rmw32.or_u"] ++
  atomicFamily .rmw 0x3A ["i32.atomic.rmw.xor", "i64.atomic.rmw.xor", "i32.atomic.rmw8.xor_u",
      "i32.atomic.rmw16.xor_u", "i64.atomic.rmw8.xor_u", "i64.atomic.rmw16.xor_u",
      "i64.atomic.rmw32.xor_u"] ++
  atomicFamily .rmw 0x41 ["i32.atomic.rmw.xchg", "i64.atomic.rmw.xchg",
      "i32.atomic.rmw8.xchg_u", "i32.atomic.rmw16.xchg_u", "i64.atomic.rmw8.xchg_u",
      "i64.atomic.rmw16.xchg_u", "i64.atomic.rmw32.xchg_u"] ++
  atomicFamily .cmpxchg 0x48 ["i32.atomic.rmw.cmpxchg", "i64.atomic.rmw.cmpxchg",
      "i32.atomic.rmw8.cmpxchg_u", "i32.atomic.rmw16.cmpxchg_u", "i64.atomic.rmw8.cmpxchg_u",
      "i64.atomic.rmw16.cmpxchg_u", "i64.atomic.rmw32.cmpxchg_u"]

/-- The atomic instructions. -/
def atomics : List InstrDef := waiting ++ atomicAccesses

end Wasm.InstrSet
