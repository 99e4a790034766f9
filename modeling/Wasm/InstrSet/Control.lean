import Wasm.InstrSet.Entry

/-!
# Control instructions

Structured control, branches and calls, and the instructions that work on
operands of any type.
-/

namespace Wasm.InstrSet

/-- Blocks, branches and calls. -/
def controlFlow : List InstrDef :=
  [⟨"unreachable", byte 0x00, .none, some (sig [] []), .trap, .literal⟩,
   fixed "nop" (byte 0x01) (sig [] []),
   ⟨"block", byte 0x02, .block, none, .block, .block⟩,
   ⟨"loop", byte 0x03, .block, none, .block, .block⟩,
   ⟨"if", byte 0x04, .conditional, none, .conditional, .conditional⟩,
   ⟨"br", byte 0x0C, .index, none, .br, .literal⟩,
   ⟨"br_if", byte 0x0D, .index, none, .brIf, .literal⟩,
   ⟨"br_table", byte 0x0E, .brTable, none, .brTable, .literal⟩,
   ⟨"return", byte 0x0F, .none, none, .ret, .literal⟩,
   ⟨"call", byte 0x10, .index, none, .call, .index⟩,
   ⟨"call_indirect", byte 0x11, .callIndirect, none, .callIndirect, .callIndirect⟩]

/-- Operations on operands of any type. -/
def parametric : List InstrDef :=
  [⟨"drop", byte 0x1A, .none, none, .drop, .literal⟩,
   ⟨"select", byte 0x1B, .none, none, .select, .literal⟩,
   ⟨"select.typed", byte 0x1C, .selectTypes, none, .selectTyped, .literal⟩]

/-- Making and testing references. -/
def references : List InstrDef :=
  [⟨"ref.null", byte 0xD0, .refType, none, .refNull, .literal⟩,
   ⟨"ref.is_null", byte 0xD1, .none, none, .refIsNull, .literal⟩,
   ⟨"ref.func", byte 0xD2, .index, none, .refFunc, .refFunc⟩]

/-- The control instructions. -/
def control : List InstrDef := controlFlow ++ parametric ++ references

end Wasm.InstrSet
