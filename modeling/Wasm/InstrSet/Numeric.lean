import Wasm.InstrSet.Entry

/-!
# Numeric instructions

Constants, comparisons, arithmetic and conversions on the four number types.
-/

namespace Wasm.InstrSet

open ValType

/-- Number constants. -/
def constants : List InstrDef :=
  [constant "i32.const" (byte 0x41) .i32 i32,
   constant "i64.const" (byte 0x42) .i64 i64,
   constant "f32.const" (byte 0x43) .f32 f32,
   constant "f64.const" (byte 0x44) .f64 f64]

/-- Tests and comparisons. -/
def comparisons : List InstrDef :=
  [fixed "i32.eqz" (byte 0x45) (sig [i32] [i32])] ++
  run (byte 0x46) ["i32.eq", "i32.ne", "i32.lt_s", "i32.lt_u", "i32.gt_s", "i32.gt_u",
      "i32.le_s", "i32.le_u", "i32.ge_s", "i32.ge_u"] (sig [i32, i32] [i32]) ++
  [fixed "i64.eqz" (byte 0x50) (sig [i64] [i32])] ++
  run (byte 0x51) ["i64.eq", "i64.ne", "i64.lt_s", "i64.lt_u", "i64.gt_s", "i64.gt_u",
      "i64.le_s", "i64.le_u", "i64.ge_s", "i64.ge_u"] (sig [i64, i64] [i32]) ++
  run (byte 0x5B) ["f32.eq", "f32.ne", "f32.lt", "f32.gt", "f32.le", "f32.ge"]
      (sig [f32, f32] [i32]) ++
  run (byte 0x61) ["f64.eq", "f64.ne", "f64.lt", "f64.gt", "f64.le", "f64.ge"]
      (sig [f64, f64] [i32])

/-- Arithmetic within one type. -/
def arithmetic : List InstrDef :=
  run (byte 0x67) ["i32.clz", "i32.ctz", "i32.popcnt"] (sig [i32] [i32]) ++
  run (byte 0x6A) ["i32.add", "i32.sub", "i32.mul", "i32.div_s", "i32.div_u", "i32.rem_s",
      "i32.rem_u", "i32.and", "i32.or", "i32.xor", "i32.shl", "i32.shr_s", "i32.shr_u",
      "i32.rotl", "i32.rotr"] (sig [i32, i32] [i32]) ++
  run (byte 0x79) ["i64.clz", "i64.ctz", "i64.popcnt"] (sig [i64] [i64]) ++
  run (byte 0x7C) ["i64.add", "i64.sub", "i64.mul", "i64.div_s", "i64.div_u", "i64.rem_s",
      "i64.rem_u", "i64.and", "i64.or", "i64.xor", "i64.shl", "i64.shr_s", "i64.shr_u",
      "i64.rotl", "i64.rotr"] (sig [i64, i64] [i64]) ++
  run (byte 0x8B) ["f32.abs", "f32.neg", "f32.ceil", "f32.floor", "f32.trunc", "f32.nearest",
      "f32.sqrt"] (sig [f32] [f32]) ++
  run (byte 0x92) ["f32.add", "f32.sub", "f32.mul", "f32.div", "f32.min", "f32.max",
      "f32.copysign"] (sig [f32, f32] [f32]) ++
  run (byte 0x99) ["f64.abs", "f64.neg", "f64.ceil", "f64.floor", "f64.trunc", "f64.nearest",
      "f64.sqrt"] (sig [f64] [f64]) ++
  run (byte 0xA0) ["f64.add", "f64.sub", "f64.mul", "f64.div", "f64.min", "f64.max",
      "f64.copysign"] (sig [f64, f64] [f64])

/-- Conversions between types. -/
def conversions : List InstrDef :=
  [fixed "i32.wrap_i64" (byte 0xA7) (sig [i64] [i32])] ++
  run (byte 0xA8) ["i32.trunc_f32_s", "i32.trunc_f32_u"] (sig [f32] [i32]) ++
  run (byte 0xAA) ["i32.trunc_f64_s", "i32.trunc_f64_u"] (sig [f64] [i32]) ++
  run (byte 0xAC) ["i64.extend_i32_s", "i64.extend_i32_u"] (sig [i32] [i64]) ++
  run (byte 0xAE) ["i64.trunc_f32_s", "i64.trunc_f32_u"] (sig [f32] [i64]) ++
  run (byte 0xB0) ["i64.trunc_f64_s", "i64.trunc_f64_u"] (sig [f64] [i64]) ++
  run (byte 0xB2) ["f32.convert_i32_s", "f32.convert_i32_u"] (sig [i32] [f32]) ++
  run (byte 0xB4) ["f32.convert_i64_s", "f32.convert_i64_u"] (sig [i64] [f32]) ++
  [fixed "f32.demote_f64" (byte 0xB6) (sig [f64] [f32])] ++
  run (byte 0xB7) ["f64.convert_i32_s", "f64.convert_i32_u"] (sig [i32] [f64]) ++
  run (byte 0xB9) ["f64.convert_i64_s", "f64.convert_i64_u"] (sig [i64] [f64]) ++
  [fixed "f64.promote_f32" (byte 0xBB) (sig [f32] [f64]),
   fixed "i32.reinterpret_f32" (byte 0xBC) (sig [f32] [i32]),
   fixed "i64.reinterpret_f64" (byte 0xBD) (sig [f64] [i64]),
   fixed "f32.reinterpret_i32" (byte 0xBE) (sig [i32] [f32]),
   fixed "f64.reinterpret_i64" (byte 0xBF) (sig [i64] [f64])]

/-- Sign extension within one type. -/
def signExtensions : List InstrDef :=
  run (byte 0xC0) ["i32.extend8_s", "i32.extend16_s"] (sig [i32] [i32]) ++
  run (byte 0xC2) ["i64.extend8_s", "i64.extend16_s", "i64.extend32_s"] (sig [i64] [i64])

/-- Float to integer conversions that saturate. -/
def saturatingConversions : List InstrDef :=
  run (misc 0x00) ["i32.trunc_sat_f32_s", "i32.trunc_sat_f32_u"] (sig [f32] [i32]) ++
  run (misc 0x02) ["i32.trunc_sat_f64_s", "i32.trunc_sat_f64_u"] (sig [f64] [i32]) ++
  run (misc 0x04) ["i64.trunc_sat_f32_s", "i64.trunc_sat_f32_u"] (sig [f32] [i64]) ++
  run (misc 0x06) ["i64.trunc_sat_f64_s", "i64.trunc_sat_f64_u"] (sig [f64] [i64])

/-- The numeric instructions. -/
def numeric : List InstrDef :=
  constants ++ comparisons ++ arithmetic ++ conversions ++ signExtensions ++
    saturatingConversions

end Wasm.InstrSet
