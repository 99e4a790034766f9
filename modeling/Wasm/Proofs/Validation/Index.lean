import Mathlib.Data.List.Basic
import Wasm.Proofs.InstrSet.Distinct

/-!
# The index of instructions

Each instruction with the rule that validation follows, in the terms of the
specification: its type where that is fixed, the width of a memory access in
bytes, the number of lanes. It is stated without the definitions that the
stack checker goes by, and the two are compared at the end.
-/

namespace Wasm.Validation

open ValType

/-- What validation does at an instruction. -/
inductive Rule where
  /-- A type and no immediate. -/
  | operator (type : FuncType)
  | constant (type : ValType)
  | shuffle
  | lane (count : UInt8) (type : FuncType)
  /-- An access to memory; if it is `exact` it must be naturally aligned. -/
  | access (bytes : Nat) (exact : Bool) (type : FuncType)
  | memory (type : FuncType)
  | memoryCopy
  | fence
  | unreachable
  | block
  | loop
  | conditional
  | br
  | brIf
  | brTable
  | ret
  | call
  | callIndirect
  | drop
  | select
  | selectTyped
  | refNull
  | refIsNull
  | refFunc
  | localGet
  | localSet
  | localTee
  | globalGet
  | globalSet
  | tableGet
  | tableSet
  | tableSize
  | tableGrow
  | tableFill
  | tableCopy
deriving DecidableEq, Repr

/-! ## Families of instructions -/

def operators (type : FuncType) (names : List String) : List (String × Rule) :=
  names.map (·, .operator type)

/-- Operators with operands of one type and a result of the same type. -/
def unops (type : ValType) : List String → List (String × Rule) := operators ⟨[type], [type]⟩

def binops (type : ValType) : List String → List (String × Rule) :=
  operators ⟨[type, type], [type]⟩

def ternops (type : ValType) : List String → List (String × Rule) :=
  operators ⟨[type, type, type], [type]⟩

/-- Operators with a truth value as their result. -/
def testops (type : ValType) : List String → List (String × Rule) := operators ⟨[type], [i32]⟩

def relops (type : ValType) : List String → List (String × Rule) :=
  operators ⟨[type, type], [i32]⟩

def cvtops (source target : ValType) : List String → List (String × Rule) :=
  operators ⟨[source], [target]⟩

def load (bytes : Nat) (type : ValType) (name : String) : String × Rule :=
  (name, .access bytes false ⟨[i32], [type]⟩)

def store (bytes : Nat) (type : ValType) (name : String) : String × Rule :=
  (name, .access bytes false ⟨[i32, type], []⟩)

/-- The seven widths of an atomic access, full ones first. -/
def atomics (type : ValType → FuncType) (names : List String) : List (String × Rule) :=
  (names.zip [(i32, 4), (i64, 8), (i32, 1), (i32, 2), (i64, 1), (i64, 2), (i64, 4)]).map
    fun (name, value, bytes) => (name, .access bytes true (type value))

/-! ## Control and storage -/

def control : List (String × Rule) :=
  [("unreachable", .unreachable), ("nop", .operator ⟨[], []⟩), ("block", .block),
   ("loop", .loop), ("if", .conditional), ("br", .br), ("br_if", .brIf), ("br_table", .brTable),
   ("return", .ret), ("call", .call), ("call_indirect", .callIndirect), ("drop", .drop),
   ("select", .select), ("select.typed", .selectTyped), ("ref.null", .refNull),
   ("ref.is_null", .refIsNull), ("ref.func", .refFunc)]

def storage : List (String × Rule) :=
  [("local.get", .localGet), ("local.set", .localSet), ("local.tee", .localTee),
   ("global.get", .globalGet), ("global.set", .globalSet), ("table.get", .tableGet),
   ("table.set", .tableSet), ("table.copy", .tableCopy), ("table.grow", .tableGrow),
   ("table.size", .tableSize), ("table.fill", .tableFill),
   load 4 i32 "i32.load", load 8 i64 "i64.load", load 4 f32 "f32.load", load 8 f64 "f64.load",
   load 1 i32 "i32.load8_s", load 1 i32 "i32.load8_u", load 2 i32 "i32.load16_s",
   load 2 i32 "i32.load16_u", load 1 i64 "i64.load8_s", load 1 i64 "i64.load8_u",
   load 2 i64 "i64.load16_s", load 2 i64 "i64.load16_u", load 4 i64 "i64.load32_s",
   load 4 i64 "i64.load32_u", store 4 i32 "i32.store", store 8 i64 "i64.store",
   store 4 f32 "f32.store", store 8 f64 "f64.store", store 1 i32 "i32.store8",
   store 2 i32 "i32.store16", store 1 i64 "i64.store8", store 2 i64 "i64.store16",
   store 4 i64 "i64.store32", ("memory.size", .memory ⟨[], [i32]⟩),
   ("memory.grow", .memory ⟨[i32], [i32]⟩), ("memory.copy", .memoryCopy),
   ("memory.fill", .memory ⟨[i32, i32, i32], []⟩)]

/-! ## Numbers -/

def constants : List (String × Rule) :=
  [("i32.const", .constant i32), ("i64.const", .constant i64), ("f32.const", .constant f32),
   ("f64.const", .constant f64)]

def comparisons : List (String × Rule) :=
  testops i32 ["i32.eqz"] ++
  relops i32 ["i32.eq", "i32.ne", "i32.lt_s", "i32.lt_u", "i32.gt_s", "i32.gt_u", "i32.le_s",
    "i32.le_u", "i32.ge_s", "i32.ge_u"] ++
  testops i64 ["i64.eqz"] ++
  relops i64 ["i64.eq", "i64.ne", "i64.lt_s", "i64.lt_u", "i64.gt_s", "i64.gt_u", "i64.le_s",
    "i64.le_u", "i64.ge_s", "i64.ge_u"] ++
  relops f32 ["f32.eq", "f32.ne", "f32.lt", "f32.gt", "f32.le", "f32.ge"] ++
  relops f64 ["f64.eq", "f64.ne", "f64.lt", "f64.gt", "f64.le", "f64.ge"]

def arithmetic : List (String × Rule) :=
  unops i32 ["i32.clz", "i32.ctz", "i32.popcnt"] ++
  binops i32 ["i32.add", "i32.sub", "i32.mul", "i32.div_s", "i32.div_u", "i32.rem_s",
    "i32.rem_u", "i32.and", "i32.or", "i32.xor", "i32.shl", "i32.shr_s", "i32.shr_u", "i32.rotl",
    "i32.rotr"] ++
  unops i64 ["i64.clz", "i64.ctz", "i64.popcnt"] ++
  binops i64 ["i64.add", "i64.sub", "i64.mul", "i64.div_s", "i64.div_u", "i64.rem_s",
    "i64.rem_u", "i64.and", "i64.or", "i64.xor", "i64.shl", "i64.shr_s", "i64.shr_u", "i64.rotl",
    "i64.rotr"] ++
  unops f32 ["f32.abs", "f32.neg", "f32.ceil", "f32.floor", "f32.trunc", "f32.nearest",
    "f32.sqrt"] ++
  binops f32 ["f32.add", "f32.sub", "f32.mul", "f32.div", "f32.min", "f32.max",
    "f32.copysign"] ++
  unops f64 ["f64.abs", "f64.neg", "f64.ceil", "f64.floor", "f64.trunc", "f64.nearest",
    "f64.sqrt"] ++
  binops f64 ["f64.add", "f64.sub", "f64.mul", "f64.div", "f64.min", "f64.max", "f64.copysign"]

def conversions : List (String × Rule) :=
  cvtops i64 i32 ["i32.wrap_i64"] ++
  cvtops f32 i32 ["i32.trunc_f32_s", "i32.trunc_f32_u"] ++
  cvtops f64 i32 ["i32.trunc_f64_s", "i32.trunc_f64_u"] ++
  cvtops i32 i64 ["i64.extend_i32_s", "i64.extend_i32_u"] ++
  cvtops f32 i64 ["i64.trunc_f32_s", "i64.trunc_f32_u"] ++
  cvtops f64 i64 ["i64.trunc_f64_s", "i64.trunc_f64_u"] ++
  cvtops i32 f32 ["f32.convert_i32_s", "f32.convert_i32_u"] ++
  cvtops i64 f32 ["f32.convert_i64_s", "f32.convert_i64_u"] ++
  cvtops f64 f32 ["f32.demote_f64"] ++
  cvtops i32 f64 ["f64.convert_i32_s", "f64.convert_i32_u"] ++
  cvtops i64 f64 ["f64.convert_i64_s", "f64.convert_i64_u"] ++
  cvtops f32 f64 ["f64.promote_f32"] ++
  cvtops f32 i32 ["i32.reinterpret_f32"] ++
  cvtops f64 i64 ["i64.reinterpret_f64"] ++
  cvtops i32 f32 ["f32.reinterpret_i32"] ++
  cvtops i64 f64 ["f64.reinterpret_i64"] ++
  unops i32 ["i32.extend8_s", "i32.extend16_s"] ++
  unops i64 ["i64.extend8_s", "i64.extend16_s", "i64.extend32_s"] ++
  cvtops f32 i32 ["i32.trunc_sat_f32_s", "i32.trunc_sat_f32_u"] ++
  cvtops f64 i32 ["i32.trunc_sat_f64_s", "i32.trunc_sat_f64_u"] ++
  cvtops f32 i64 ["i64.trunc_sat_f32_s", "i64.trunc_sat_f32_u"] ++
  cvtops f64 i64 ["i64.trunc_sat_f64_s", "i64.trunc_sat_f64_u"]

/-! ## Vectors -/

def vectorMoves : List (String × Rule) :=
  [load 16 v128 "v128.load", store 16 v128 "v128.store", ("v128.const", .constant v128),
   ("i8x16.shuffle", .shuffle)] ++
  binops v128 ["i8x16.swizzle"] ++
  cvtops i32 v128 ["i8x16.splat", "i16x8.splat", "i32x4.splat"] ++
  cvtops i64 v128 ["i64x2.splat"] ++
  cvtops f32 v128 ["f32x4.splat"] ++
  cvtops f64 v128 ["f64x2.splat"] ++
  [("i8x16.extract_lane_s", .lane 16 ⟨[v128], [i32]⟩),
   ("i8x16.extract_lane_u", .lane 16 ⟨[v128], [i32]⟩),
   ("i8x16.replace_lane", .lane 16 ⟨[v128, i32], [v128]⟩),
   ("i16x8.extract_lane_s", .lane 8 ⟨[v128], [i32]⟩),
   ("i16x8.extract_lane_u", .lane 8 ⟨[v128], [i32]⟩),
   ("i16x8.replace_lane", .lane 8 ⟨[v128, i32], [v128]⟩),
   ("i32x4.extract_lane", .lane 4 ⟨[v128], [i32]⟩),
   ("i32x4.replace_lane", .lane 4 ⟨[v128, i32], [v128]⟩),
   ("i64x2.extract_lane", .lane 2 ⟨[v128], [i64]⟩),
   ("i64x2.replace_lane", .lane 2 ⟨[v128, i64], [v128]⟩),
   ("f32x4.extract_lane", .lane 4 ⟨[v128], [f32]⟩),
   ("f32x4.replace_lane", .lane 4 ⟨[v128, f32], [v128]⟩),
   ("f64x2.extract_lane", .lane 2 ⟨[v128], [f64]⟩),
   ("f64x2.replace_lane", .lane 2 ⟨[v128, f64], [v128]⟩)]

def vectorOperators : List (String × Rule) :=
  binops v128 ["i8x16.eq", "i8x16.ne", "i8x16.lt_s", "i8x16.lt_u", "i8x16.gt_s", "i8x16.gt_u",
    "i8x16.le_s", "i8x16.le_u", "i8x16.ge_s", "i8x16.ge_u", "i16x8.eq", "i16x8.ne", "i16x8.lt_s",
    "i16x8.lt_u", "i16x8.gt_s", "i16x8.gt_u", "i16x8.le_s", "i16x8.le_u", "i16x8.ge_s",
    "i16x8.ge_u", "i32x4.eq", "i32x4.ne", "i32x4.lt_s", "i32x4.lt_u", "i32x4.gt_s", "i32x4.gt_u",
    "i32x4.le_s", "i32x4.le_u", "i32x4.ge_s", "i32x4.ge_u", "f32x4.eq", "f32x4.ne", "f32x4.lt",
    "f32x4.gt", "f32x4.le", "f32x4.ge", "f64x2.eq", "f64x2.ne", "f64x2.lt", "f64x2.gt",
    "f64x2.le", "f64x2.ge"] ++
  unops v128 ["v128.not"] ++
  binops v128 ["v128.and", "v128.andnot", "v128.or", "v128.xor"] ++
  ternops v128 ["v128.bitselect"] ++
  testops v128 ["v128.any_true"] ++
  unops v128 ["i8x16.abs", "i8x16.neg", "i8x16.popcnt"] ++
  testops v128 ["i8x16.all_true", "i8x16.bitmask"] ++
  binops v128 ["i8x16.add", "i8x16.add_sat_s", "i8x16.add_sat_u", "i8x16.sub",
    "i8x16.sub_sat_s", "i8x16.sub_sat_u", "i8x16.min_s", "i8x16.min_u", "i8x16.max_s",
    "i8x16.max_u", "i8x16.avgr_u"] ++
  unops v128 ["i16x8.abs", "i16x8.neg"] ++
  testops v128 ["i16x8.all_true", "i16x8.bitmask"] ++
  binops v128 ["i16x8.add", "i16x8.sub", "i16x8.mul"] ++
  unops v128 ["i32x4.abs", "i32x4.neg"] ++
  testops v128 ["i32x4.all_true", "i32x4.bitmask"] ++
  operators ⟨[v128, i32], [v128]⟩ ["i32x4.shl", "i32x4.shr_s", "i32x4.shr_u"] ++
  binops v128 ["i32x4.add", "i32x4.sub", "i32x4.mul", "i32x4.min_s", "i32x4.min_u",
    "i32x4.max_s", "i32x4.max_u"] ++
  unops v128 ["i64x2.abs", "i64x2.neg"] ++
  testops v128 ["i64x2.all_true", "i64x2.bitmask"] ++
  binops v128 ["i64x2.add", "i64x2.sub", "i64x2.mul"] ++
  unops v128 ["f32x4.abs", "f32x4.neg", "f32x4.sqrt"] ++
  binops v128 ["f32x4.add", "f32x4.sub", "f32x4.mul", "f32x4.div", "f32x4.min", "f32x4.max"] ++
  unops v128 ["f64x2.abs", "f64x2.neg", "f64x2.sqrt"] ++
  binops v128 ["f64x2.add", "f64x2.sub", "f64x2.mul", "f64x2.div", "f64x2.min", "f64x2.max",
    "i8x16.relaxed_swizzle"] ++
  ternops v128 ["f32x4.relaxed_madd", "f32x4.relaxed_nmadd", "f64x2.relaxed_madd",
    "f64x2.relaxed_nmadd"]

/-! ## Atomic accesses -/

def waiting : List (String × Rule) :=
  [("memory.atomic.notify", .access 4 true ⟨[i32, i32], [i32]⟩),
   ("memory.atomic.wait32", .access 4 true ⟨[i32, i32, i64], [i32]⟩),
   ("memory.atomic.wait64", .access 8 true ⟨[i32, i64, i64], [i32]⟩),
   ("atomic.fence", .fence)]

def atomicAccesses : List (String × Rule) :=
  atomics (fun value => ⟨[i32], [value]⟩) ["i32.atomic.load", "i64.atomic.load",
    "i32.atomic.load8_u", "i32.atomic.load16_u", "i64.atomic.load8_u", "i64.atomic.load16_u",
    "i64.atomic.load32_u"] ++
  atomics (fun value => ⟨[i32, value], []⟩) ["i32.atomic.store", "i64.atomic.store",
    "i32.atomic.store8", "i32.atomic.store16", "i64.atomic.store8", "i64.atomic.store16",
    "i64.atomic.store32"] ++
  atomics (fun value => ⟨[i32, value], [value]⟩) ["i32.atomic.rmw.add", "i64.atomic.rmw.add",
    "i32.atomic.rmw8.add_u", "i32.atomic.rmw16.add_u", "i64.atomic.rmw8.add_u",
    "i64.atomic.rmw16.add_u", "i64.atomic.rmw32.add_u"] ++
  atomics (fun value => ⟨[i32, value], [value]⟩) ["i32.atomic.rmw.sub", "i64.atomic.rmw.sub",
    "i32.atomic.rmw8.sub_u", "i32.atomic.rmw16.sub_u", "i64.atomic.rmw8.sub_u",
    "i64.atomic.rmw16.sub_u", "i64.atomic.rmw32.sub_u"] ++
  atomics (fun value => ⟨[i32, value], [value]⟩) ["i32.atomic.rmw.and", "i64.atomic.rmw.and",
    "i32.atomic.rmw8.and_u", "i32.atomic.rmw16.and_u", "i64.atomic.rmw8.and_u",
    "i64.atomic.rmw16.and_u", "i64.atomic.rmw32.and_u"] ++
  atomics (fun value => ⟨[i32, value], [value]⟩) ["i32.atomic.rmw.or", "i64.atomic.rmw.or",
    "i32.atomic.rmw8.or_u", "i32.atomic.rmw16.or_u", "i64.atomic.rmw8.or_u",
    "i64.atomic.rmw16.or_u", "i64.atomic.rmw32.or_u"] ++
  atomics (fun value => ⟨[i32, value], [value]⟩) ["i32.atomic.rmw.xor", "i64.atomic.rmw.xor",
    "i32.atomic.rmw8.xor_u", "i32.atomic.rmw16.xor_u", "i64.atomic.rmw8.xor_u",
    "i64.atomic.rmw16.xor_u", "i64.atomic.rmw32.xor_u"] ++
  atomics (fun value => ⟨[i32, value], [value]⟩) ["i32.atomic.rmw.xchg", "i64.atomic.rmw.xchg",
    "i32.atomic.rmw8.xchg_u", "i32.atomic.rmw16.xchg_u", "i64.atomic.rmw8.xchg_u",
    "i64.atomic.rmw16.xchg_u", "i64.atomic.rmw32.xchg_u"] ++
  atomics (fun value => ⟨[i32, value, value], [value]⟩) ["i32.atomic.rmw.cmpxchg",
    "i64.atomic.rmw.cmpxchg", "i32.atomic.rmw8.cmpxchg_u", "i32.atomic.rmw16.cmpxchg_u",
    "i64.atomic.rmw8.cmpxchg_u", "i64.atomic.rmw16.cmpxchg_u", "i64.atomic.rmw32.cmpxchg_u"]

/-! ## The index -/

def index : List (String × Rule) :=
  control ++ storage ++ constants ++ comparisons ++ arithmetic ++ conversions ++ vectorMoves ++
    vectorOperators ++ waiting ++ atomicAccesses

/-- The rule of a mnemonic. -/
def ruleOf (name : String) : Option Rule :=
  (index.find? (·.1 == name)).map (·.2)

end Wasm.Validation

/-! ## Comparison with the instruction set -/

namespace Wasm

/-- The typing rules of instructions on one table. -/
def TypingRule.isOnTable : TypingRule → Bool
  | .tableGet | .tableSet | .tableSize | .tableGrow | .tableFill => true
  | _ => false

/-- The typing rules of instructions on one local. -/
def TypingRule.isOnLocal : TypingRule → Bool
  | .localGet | .localSet | .localTee => true
  | _ => false

/-- The rule that a definition amounts to. -/
def InstrDef.rule (d : InstrDef) : Option Validation.Rule :=
  match d.typing with
  | .fixed => if d.shape = .none then d.signature.map .operator else none
  | .trap => if d.shape = .none ∧ d.signature = some ⟨[], []⟩ then some .unreachable else none
  | .constant =>
    match d.shape, d.signature with
    | .i32, some ⟨[], [.i32]⟩ => some (.constant .i32)
    | .i64, some ⟨[], [.i64]⟩ => some (.constant .i64)
    | .f32, some ⟨[], [.f32]⟩ => some (.constant .f32)
    | .f64, some ⟨[], [.f64]⟩ => some (.constant .f64)
    | .v128, some ⟨[], [.v128]⟩ => some (.constant .v128)
    | _, _ => none
  | .shuffle => if d.signature = some ⟨[.v128, .v128], [.v128]⟩ then some .shuffle else none
  | .lane =>
    match d.shape, d.signature with
    | .lane count, some type => some (.lane count type)
    | _, _ => none
  | .memoryAccess =>
    match d.shape, d.signature with
    | .memArg natural, some type => some (.access (2 ^ natural.toNat) d.opcode.isAtomic type)
    | _, _ => none
  | .memory =>
    match d.linking, d.signature with
    | .index, some type => some (.memory type)
    | .memoryCopy, some ⟨[.i32, .i32, .i32], []⟩ => some .memoryCopy
    | _, _ => none
  | .fence => some .fence
  | .block => some (if d.name = "loop" then .loop else .block)
  | .conditional => some .conditional
  | .br => some .br
  | .brIf => some .brIf
  | .brTable => some .brTable
  | .ret => some .ret
  | .call => some .call
  | .callIndirect => some .callIndirect
  | .drop => some .drop
  | .select => some .select
  | .selectTyped => some .selectTyped
  | .refNull => some .refNull
  | .refIsNull => some .refIsNull
  | .refFunc => some .refFunc
  | .localGet => some .localGet
  | .localSet => some .localSet
  | .localTee => some .localTee
  | .globalGet => some .globalGet
  | .globalSet => some .globalSet
  | .tableGet => some .tableGet
  | .tableSet => some .tableSet
  | .tableSize => some .tableSize
  | .tableGrow => some .tableGrow
  | .tableFill => some .tableFill
  | .tableCopy => some .tableCopy

/-- The type of the literals that have the shape. -/
def Shape.literalType : Shape → Option ValType
  | .i32 => some .i32
  | .i64 => some .i64
  | .f32 => some .f32
  | .f64 => some .f64
  | .v128 => some .v128
  | _ => .none

/-- What the definition has to be, with the given typing rule, to amount to `rule`. -/
def InstrDef.AmountsTo (d : InstrDef) (rule : Validation.Rule) : TypingRule → Prop
  | .fixed => ∃ type, d.shape = .none ∧ d.signature = some type ∧ rule = .operator type
  | .trap => d.shape = .none ∧ d.signature = some ⟨[], []⟩ ∧ rule = .unreachable
  | .constant => ∃ type, d.shape.literalType = some type ∧ d.signature = some ⟨[], [type]⟩ ∧
      rule = .constant type
  | .shuffle => d.signature = some ⟨[.v128, .v128], [.v128]⟩ ∧ rule = .shuffle
  | .lane => ∃ count type, d.shape = .lane count ∧ d.signature = some type ∧
      rule = .lane count type
  | .memoryAccess => ∃ natural type, d.shape = .memArg natural ∧ d.signature = some type ∧
      rule = .access (2 ^ natural.toNat) d.opcode.isAtomic type
  | .memory => (∃ type, d.linking = .index ∧ d.signature = some type ∧ rule = .memory type) ∨
      d.linking = .memoryCopy ∧ d.signature = some ⟨[.i32, .i32, .i32], []⟩ ∧ rule = .memoryCopy
  | .fence => rule = .fence
  | .block => rule = if d.name = "loop" then .loop else .block
  | .conditional => rule = .conditional
  | .br => rule = .br
  | .brIf => rule = .brIf
  | .brTable => rule = .brTable
  | .ret => rule = .ret
  | .call => rule = .call
  | .callIndirect => rule = .callIndirect
  | .drop => rule = .drop
  | .select => rule = .select
  | .selectTyped => rule = .selectTyped
  | .refNull => rule = .refNull
  | .refIsNull => rule = .refIsNull
  | .refFunc => rule = .refFunc
  | .localGet => rule = .localGet
  | .localSet => rule = .localSet
  | .localTee => rule = .localTee
  | .globalGet => rule = .globalGet
  | .globalSet => rule = .globalSet
  | .tableGet => rule = .tableGet
  | .tableSet => rule = .tableSet
  | .tableSize => rule = .tableSize
  | .tableGrow => rule = .tableGrow
  | .tableFill => rule = .tableFill
  | .tableCopy => rule = .tableCopy

theorem InstrDef.of_rule {d : InstrDef} {rule : Validation.Rule} (ruled : d.rule = some rule)
    {typing : TypingRule} (known : d.typing = typing) : d.AmountsTo rule typing := by
  rw [InstrDef.rule, known] at ruled
  cases typing <;> dsimp only [AmountsTo] at ruled ⊢
  case fixed =>
      obtain ⟨shape, found⟩ := Option.ite_none_right_eq_some.mp ruled
      obtain ⟨type, signature, rfl⟩ := Option.map_eq_some_iff.mp found
      exact ⟨type, shape, signature, rfl⟩
  case trap =>
      obtain ⟨⟨shape, signature⟩, same⟩ := Option.ite_none_right_eq_some.mp ruled
      cases same
      exact ⟨shape, signature, rfl⟩
  case constant =>
      split at ruled
      case h_6 => cases ruled
      all_goals
        rename_i shape signature
        cases ruled
        exact ⟨_, congrArg Shape.literalType shape, signature, rfl⟩
  case shuffle =>
      obtain ⟨signature, same⟩ := Option.ite_none_right_eq_some.mp ruled
      cases same
      exact ⟨signature, rfl⟩
  case lane | memoryAccess =>
      split at ruled
      · rename_i shape signature
        cases ruled
        exact ⟨_, _, shape, signature, rfl⟩
      · cases ruled
  case memory =>
      split at ruled
      · rename_i linking signature
        cases ruled
        exact .inl ⟨_, linking, signature, rfl⟩
      · rename_i linking signature
        cases ruled
        exact .inr ⟨linking, signature, rfl⟩
      · cases ruled
  all_goals exact (Option.some.inj ruled).symm

/-- The instruction set and the index list the same instructions, with the same rules. -/
theorem InstrSet.standard_index : InstrSet.standard.defs.map (fun d => (d.name, d.rule)) =
    Validation.index.map fun (name, rule) => (name, some rule) := by
  decide +kernel

theorem Validation.index_names :
    Validation.index.map (·.1) = InstrSet.standard.defs.map (·.name) := by
  have names := congrArg (List.map Prod.fst) InstrSet.standard_index
  rw [List.map_map, List.map_map] at names
  exact names.symm

/-- The index has the rule of every definition under its mnemonic. -/
theorem Validation.ruleOf_name {d : InstrDef} (member : d ∈ InstrSet.standard.defs) :
    ∃ rule, Validation.ruleOf d.name = some rule ∧ d.rule = some rule := by
  have listed : (d.name, d.rule) ∈ Validation.index.map fun (name, rule) => (name, some rule) := by
    rw [← InstrSet.standard_index]
    exact List.mem_map_of_mem member
  obtain ⟨⟨name, rule⟩, entry, same⟩ := List.mem_map.mp listed
  obtain ⟨rfl, ruled⟩ := Prod.mk.inj same
  have distinct : (Validation.index.map (·.1)).Nodup := by
    rw [Validation.index_names]
    exact InstrSet.standard_names
  refine ⟨rule, ?_, ruled.symm⟩
  rw [Validation.ruleOf, InstrSet.find?_of_nodup distinct entry]
  rfl

end Wasm
