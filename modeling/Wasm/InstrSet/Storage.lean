import Wasm.InstrSet.Entry

/-!
# Storage instructions

Reading and writing locals, globals, tables and the memory.
-/

namespace Wasm.InstrSet

open ValType

/-- Locals and globals. -/
def variableAccesses : List InstrDef :=
  [⟨"local.get", byte 0x20, .index, none, .localGet, .literal⟩,
   ⟨"local.set", byte 0x21, .index, none, .localSet, .literal⟩,
   ⟨"local.tee", byte 0x22, .index, none, .localTee, .literal⟩,
   ⟨"global.get", byte 0x23, .index, none, .globalGet, .index⟩,
   ⟨"global.set", byte 0x24, .index, none, .globalSet, .index⟩]

/-- Tables. -/
def tables : List InstrDef :=
  [⟨"table.get", byte 0x25, .index, none, .tableGet, .index⟩,
   ⟨"table.set", byte 0x26, .index, none, .tableSet, .index⟩,
   ⟨"table.copy", misc 0x0E, .indexPair, none, .tableCopy, .tableCopy⟩,
   ⟨"table.grow", misc 0x0F, .index, none, .tableGrow, .index⟩,
   ⟨"table.size", misc 0x10, .index, none, .tableSize, .index⟩,
   ⟨"table.fill", misc 0x11, .index, none, .tableFill, .index⟩]

/-- Loads and stores. -/
def memoryAccesses : List InstrDef :=
  [access "i32.load" (byte 0x28) 2 (sig [i32] [i32]),
   access "i64.load" (byte 0x29) 3 (sig [i32] [i64]),
   access "f32.load" (byte 0x2A) 2 (sig [i32] [f32]),
   access "f64.load" (byte 0x2B) 3 (sig [i32] [f64]),
   access "i32.load8_s" (byte 0x2C) 0 (sig [i32] [i32]),
   access "i32.load8_u" (byte 0x2D) 0 (sig [i32] [i32]),
   access "i32.load16_s" (byte 0x2E) 1 (sig [i32] [i32]),
   access "i32.load16_u" (byte 0x2F) 1 (sig [i32] [i32]),
   access "i64.load8_s" (byte 0x30) 0 (sig [i32] [i64]),
   access "i64.load8_u" (byte 0x31) 0 (sig [i32] [i64]),
   access "i64.load16_s" (byte 0x32) 1 (sig [i32] [i64]),
   access "i64.load16_u" (byte 0x33) 1 (sig [i32] [i64]),
   access "i64.load32_s" (byte 0x34) 2 (sig [i32] [i64]),
   access "i64.load32_u" (byte 0x35) 2 (sig [i32] [i64]),
   access "i32.store" (byte 0x36) 2 (sig [i32, i32] []),
   access "i64.store" (byte 0x37) 3 (sig [i32, i64] []),
   access "f32.store" (byte 0x38) 2 (sig [i32, f32] []),
   access "f64.store" (byte 0x39) 3 (sig [i32, f64] []),
   access "i32.store8" (byte 0x3A) 0 (sig [i32, i32] []),
   access "i32.store16" (byte 0x3B) 1 (sig [i32, i32] []),
   access "i64.store8" (byte 0x3C) 0 (sig [i32, i64] []),
   access "i64.store16" (byte 0x3D) 1 (sig [i32, i64] []),
   access "i64.store32" (byte 0x3E) 2 (sig [i32, i64] [])]

/-- The size of the memory, and operations on ranges of it. -/
def bulkMemory : List InstrDef :=
  [⟨"memory.size", byte 0x3F, .index, some (sig [] [i32]), .memory, .index⟩,
   ⟨"memory.grow", byte 0x40, .index, some (sig [i32] [i32]), .memory, .index⟩,
   ⟨"memory.copy", misc 0x0A, .indexPair, some (sig [i32, i32, i32] []), .memory, .memoryCopy⟩,
   ⟨"memory.fill", misc 0x0B, .index, some (sig [i32, i32, i32] []), .memory, .index⟩]

/-- The storage instructions. -/
def storage : List InstrDef := variableAccesses ++ tables ++ memoryAccesses ++ bulkMemory

end Wasm.InstrSet
