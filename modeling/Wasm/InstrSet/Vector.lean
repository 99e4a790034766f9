import Wasm.InstrSet.Entry

/-!
# Vector instructions

Operations on 128-bit vectors, seen as lanes of integers or floats.
-/

namespace Wasm.InstrSet

open ValType

/-- Loads, stores, constants and permutations. -/
def vectorMoves : List InstrDef :=
  [access "v128.load" (vector 0x00) 4 (sig [i32] [v128]),
   access "v128.store" (vector 0x0B) 4 (sig [i32, v128] []),
   constant "v128.const" (vector 0x0C) .v128 v128,
   ⟨"i8x16.shuffle", vector 0x0D, .shuffle, some (sig [v128, v128] [v128]), .shuffle, .literal⟩,
   fixed "i8x16.swizzle" (vector 0x0E) (sig [v128, v128] [v128])]

/-- One value in all lanes. -/
def splats : List InstrDef :=
  run (vector 0x0F) ["i8x16.splat", "i16x8.splat", "i32x4.splat"] (sig [i32] [v128]) ++
  [fixed "i64x2.splat" (vector 0x12) (sig [i64] [v128]),
   fixed "f32x4.splat" (vector 0x13) (sig [f32] [v128]),
   fixed "f64x2.splat" (vector 0x14) (sig [f64] [v128])]

/-- Reading and replacing one lane. -/
def laneAccesses : List InstrDef :=
  [laneAccess "i8x16.extract_lane_s" (vector 0x15) 16 (sig [v128] [i32]),
   laneAccess "i8x16.extract_lane_u" (vector 0x16) 16 (sig [v128] [i32]),
   laneAccess "i8x16.replace_lane" (vector 0x17) 16 (sig [v128, i32] [v128]),
   laneAccess "i16x8.extract_lane_s" (vector 0x18) 8 (sig [v128] [i32]),
   laneAccess "i16x8.extract_lane_u" (vector 0x19) 8 (sig [v128] [i32]),
   laneAccess "i16x8.replace_lane" (vector 0x1A) 8 (sig [v128, i32] [v128]),
   laneAccess "i32x4.extract_lane" (vector 0x1B) 4 (sig [v128] [i32]),
   laneAccess "i32x4.replace_lane" (vector 0x1C) 4 (sig [v128, i32] [v128]),
   laneAccess "i64x2.extract_lane" (vector 0x1D) 2 (sig [v128] [i64]),
   laneAccess "i64x2.replace_lane" (vector 0x1E) 2 (sig [v128, i64] [v128]),
   laneAccess "f32x4.extract_lane" (vector 0x1F) 4 (sig [v128] [f32]),
   laneAccess "f32x4.replace_lane" (vector 0x20) 4 (sig [v128, f32] [v128]),
   laneAccess "f64x2.extract_lane" (vector 0x21) 2 (sig [v128] [f64]),
   laneAccess "f64x2.replace_lane" (vector 0x22) 2 (sig [v128, f64] [v128])]

/-- Comparisons by lane. -/
def vectorComparisons : List InstrDef :=
  run (vector 0x23) ["i8x16.eq", "i8x16.ne", "i8x16.lt_s", "i8x16.lt_u", "i8x16.gt_s",
      "i8x16.gt_u", "i8x16.le_s", "i8x16.le_u", "i8x16.ge_s", "i8x16.ge_u", "i16x8.eq",
      "i16x8.ne", "i16x8.lt_s", "i16x8.lt_u", "i16x8.gt_s", "i16x8.gt_u", "i16x8.le_s",
      "i16x8.le_u", "i16x8.ge_s", "i16x8.ge_u", "i32x4.eq", "i32x4.ne", "i32x4.lt_s",
      "i32x4.lt_u", "i32x4.gt_s", "i32x4.gt_u", "i32x4.le_s", "i32x4.le_u", "i32x4.ge_s",
      "i32x4.ge_u", "f32x4.eq", "f32x4.ne", "f32x4.lt", "f32x4.gt", "f32x4.le", "f32x4.ge",
      "f64x2.eq", "f64x2.ne", "f64x2.lt", "f64x2.gt", "f64x2.le", "f64x2.ge"]
      (sig [v128, v128] [v128])

/-- The vector as a string of bits. -/
def bitwise : List InstrDef :=
  [fixed "v128.not" (vector 0x4D) (sig [v128] [v128])] ++
  run (vector 0x4E) ["v128.and", "v128.andnot", "v128.or", "v128.xor"] (sig [v128, v128] [v128]) ++
  [fixed "v128.bitselect" (vector 0x52) (sig [v128, v128, v128] [v128]),
   fixed "v128.any_true" (vector 0x53) (sig [v128] [i32])]

/-- Integer arithmetic by lane. -/
def integerLanes : List InstrDef :=
  run (vector 0x60) ["i8x16.abs", "i8x16.neg", "i8x16.popcnt"] (sig [v128] [v128]) ++
  run (vector 0x63) ["i8x16.all_true", "i8x16.bitmask"] (sig [v128] [i32]) ++
  run (vector 0x6E) ["i8x16.add", "i8x16.add_sat_s", "i8x16.add_sat_u", "i8x16.sub",
      "i8x16.sub_sat_s", "i8x16.sub_sat_u"] (sig [v128, v128] [v128]) ++
  run (vector 0x76) ["i8x16.min_s", "i8x16.min_u", "i8x16.max_s", "i8x16.max_u"]
      (sig [v128, v128] [v128]) ++
  [fixed "i8x16.avgr_u" (vector 0x7B) (sig [v128, v128] [v128])] ++
  run (vector 0x80) ["i16x8.abs", "i16x8.neg"] (sig [v128] [v128]) ++
  run (vector 0x83) ["i16x8.all_true", "i16x8.bitmask"] (sig [v128] [i32]) ++
  [fixed "i16x8.add" (vector 0x8E) (sig [v128, v128] [v128]),
   fixed "i16x8.sub" (vector 0x91) (sig [v128, v128] [v128]),
   fixed "i16x8.mul" (vector 0x95) (sig [v128, v128] [v128])] ++
  run (vector 0xA0) ["i32x4.abs", "i32x4.neg"] (sig [v128] [v128]) ++
  run (vector 0xA3) ["i32x4.all_true", "i32x4.bitmask"] (sig [v128] [i32]) ++
  run (vector 0xAB) ["i32x4.shl", "i32x4.shr_s", "i32x4.shr_u"] (sig [v128, i32] [v128]) ++
  [fixed "i32x4.add" (vector 0xAE) (sig [v128, v128] [v128]),
   fixed "i32x4.sub" (vector 0xB1) (sig [v128, v128] [v128])] ++
  run (vector 0xB5) ["i32x4.mul", "i32x4.min_s", "i32x4.min_u", "i32x4.max_s", "i32x4.max_u"]
      (sig [v128, v128] [v128]) ++
  run (vector 0xC0) ["i64x2.abs", "i64x2.neg"] (sig [v128] [v128]) ++
  run (vector 0xC3) ["i64x2.all_true", "i64x2.bitmask"] (sig [v128] [i32]) ++
  [fixed "i64x2.add" (vector 0xCE) (sig [v128, v128] [v128]),
   fixed "i64x2.sub" (vector 0xD1) (sig [v128, v128] [v128]),
   fixed "i64x2.mul" (vector 0xD5) (sig [v128, v128] [v128])]

/-- Float arithmetic by lane. -/
def floatLanes : List InstrDef :=
  run (vector 0xE0) ["f32x4.abs", "f32x4.neg"] (sig [v128] [v128]) ++
  [fixed "f32x4.sqrt" (vector 0xE3) (sig [v128] [v128])] ++
  run (vector 0xE4) ["f32x4.add", "f32x4.sub", "f32x4.mul", "f32x4.div", "f32x4.min",
      "f32x4.max"] (sig [v128, v128] [v128]) ++
  run (vector 0xEC) ["f64x2.abs", "f64x2.neg"] (sig [v128] [v128]) ++
  [fixed "f64x2.sqrt" (vector 0xEF) (sig [v128] [v128])] ++
  run (vector 0xF0) ["f64x2.add", "f64x2.sub", "f64x2.mul", "f64x2.div", "f64x2.min",
      "f64x2.max"] (sig [v128, v128] [v128])

/-- Operations whose result may depend on the machine. -/
def relaxedVectors : List InstrDef :=
  [fixed "i8x16.relaxed_swizzle" (vector 0x100) (sig [v128, v128] [v128])] ++
  run (vector 0x105) ["f32x4.relaxed_madd", "f32x4.relaxed_nmadd", "f64x2.relaxed_madd",
      "f64x2.relaxed_nmadd"] (sig [v128, v128, v128] [v128])

/-- The vector instructions. -/
def vectors : List InstrDef :=
  vectorMoves ++ splats ++ laneAccesses ++ vectorComparisons ++ bitwise ++ integerLanes ++
    floatLanes ++ relaxedVectors

end Wasm.InstrSet
