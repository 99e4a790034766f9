import Wasm.Module
import Wasm.Proofs.Validation.Index

/-!
# The validation algorithm

The algorithm of the specification, which goes through code once with a stack
of operand types and a stack of control frames. An operand type can be
unknown: behind an instruction that does not hand on control a frame is
unreachable, and there operands that are missing are taken to be there. Here
code is a tree, so the end of a construct is where its body ends.
-/

namespace Wasm.Validation

/-! ## The two stacks -/

/-- A construct that is open. -/
structure Control where
  isLoop : Bool := false
  startTypes : List ValType
  endTypes : List ValType
  /-- The number of operands below the construct. -/
  height : Nat
  unreachable : Bool := false
deriving DecidableEq, Inhabited, Repr

/-- The types that a branch to the construct takes. -/
def Control.labelTypes (control : Control) : List ValType :=
  if control.isLoop then control.startTypes else control.endTypes

structure Stacks where
  /-- The operand types, the top first; unknown ones are `none`. -/
  values : List (Option ValType) := []
  /-- The open constructs, the innermost first. -/
  controls : List Control := []
deriving DecidableEq, Inhabited, Repr

namespace Stacks

/-- Takes one operand. -/
def pop (s : Stacks) : Option (Option ValType × Stacks) :=
  match s.controls with
  | [] => none
  | control :: _ =>
    if s.values.length = control.height then
      if control.unreachable then some (none, s) else none
    else
      match s.values with
      | [] => none
      | value :: values => some (value, { s with values })

/-- Takes one operand of the given type. -/
def popType (s : Stacks) (expected : ValType) : Option (Option ValType × Stacks) := do
  let (actual, s) ← s.pop
  if actual = none ∨ actual = some expected then return (actual, s) else none

/-- Takes operands of the given types, the top first. -/
def popTop (s : Stacks) : List ValType → Option (List (Option ValType) × Stacks)
  | [] => some ([], s)
  | type :: types => do
    let (value, s) ← s.popType type
    let (values, s) ← s.popTop types
    return (value :: values, s)

/-- Takes operands of the given types, the last one on top. -/
def popTypes (s : Stacks) (types : List ValType) : Option (List (Option ValType) × Stacks) :=
  s.popTop types.reverse

/-- Puts operands back that were taken. -/
def putBack (s : Stacks) (values : List (Option ValType)) : Stacks :=
  { s with values := values ++ s.values }

/-- Puts operands of the given types on the stack, the last one on top. -/
def pushTypes (s : Stacks) (types : List ValType) : Stacks :=
  s.putBack (types.map some).reverse

/-- Takes the operands of an instruction and leaves its results. -/
def apply (s : Stacks) (type : FuncType) : Option Stacks := do
  let (_, s) ← s.popTypes type.params
  return s.pushTypes type.results

/-- Control does not get past this point. -/
def diverge (s : Stacks) : Stacks :=
  match s.controls with
  | [] => s
  | control :: outer =>
    { values := s.values.drop (s.values.length - control.height)
      controls := { control with unreachable := true } :: outer }

/-- Opens a construct. -/
def enter (s : Stacks) (isLoop : Bool) (type : FuncType) : Stacks :=
  let control : Control := {
    isLoop
    startTypes := type.params
    endTypes := type.results
    height := s.values.length }
  pushTypes { s with controls := control :: s.controls } type.params

/-- Closes the innermost construct, of which nothing but the results may be left. -/
def leave (s : Stacks) : Option Stacks :=
  match s.controls with
  | [] => none
  | control :: outer => do
    let (_, s) ← s.popTypes control.endTypes
    if s.values.length = control.height then return { s with controls := outer } else none

/-- The types that a branch takes. -/
def labelTypes (s : Stacks) (label : UInt32) : Option (List ValType) :=
  s.controls[label.toNat]?.map (·.labelTypes)

/-- The result types of the function. -/
def returnTypes (s : Stacks) : Option (List ValType) :=
  s.controls.getLast?.map (·.endTypes)

/-- Checks the labels of a branch table that are not the last one: each must
have the same arity, and its types must be on the stack. -/
def checkLabels (s : Stacks) (arity : Nat) : List UInt32 → Option Stacks
  | [] => some s
  | label :: labels => do
    let types ← s.labelTypes label
    if types.length = arity then
      let (values, s) ← s.popTypes types
      (s.putBack values).checkLabels arity labels
    else none

end Stacks

/-! ## Single instructions -/

/-- What a body can refer to by number. -/
structure Env where
  types : List FuncType := []
  funcs : List FuncType := []
  tables : List TableType := []
  memories : List MemoryType := []
  globals : List GlobalType := []
  /-- The functions that code may make references to. -/
  declared : List UInt32 := []
  /-- The parameters of the function and its locals. -/
  locals : List ValType := []
deriving Inhabited

/-- The type of a constant. -/
def literalType : Immediate → Option ValType
  | .i32 _ => some .i32
  | .i64 _ => some .i64
  | .f32 _ => some .f32
  | .f64 _ => some .f64
  | .v128 _ => some .v128
  | _ => none

/-- A shape of literals takes those of one type. -/
theorem fits_iff_literalType {shape : Shape} {immediate : Immediate} {valType : ValType}
    (literals : shape.literalType = some valType) :
    shape.fits immediate = true ↔ literalType immediate = some valType := by
  cases shape <;> cases literals <;> cases immediate <;> first
    | exact ⟨fun _ => rfl, fun _ => rfl⟩
    | exact ⟨nofun, nofun⟩

namespace Env

/-- The signature of a block type. -/
def blockType (Γ : Env) : BlockType → Option FuncType
  | .empty => some ⟨[], []⟩
  | .value type => some ⟨[], [type]⟩
  | .funcType index => Γ.types[index.toNat]?

/-- The type of an instruction without a body, where its immediate decides it. -/
def typeOf (Γ : Env) : Rule → Immediate → Option FuncType
  | .operator type, .none => some type
  | .constant type, literal =>
    if literalType literal = some type then some ⟨[], [type]⟩ else none
  | .shuffle, .shuffle lanes =>
    if lanes.toList.all (· < 32) then some ⟨[.v128, .v128], [.v128]⟩ else none
  | .lane count type, .lane l => if l < count then some type else none
  | .access bytes exact type, .memArg arg =>
    if Γ.memories ≠ [] ∧ 2 ^ arg.align.toNat ≤ bytes ∧
        (exact = true → 2 ^ arg.align.toNat = bytes)
    then some type else none
  | .memory type, .index i => if i = 0 ∧ Γ.memories ≠ [] then some type else none
  | .memoryCopy, .indexPair i j =>
    if i = 0 ∧ j = 0 ∧ Γ.memories ≠ [] then some ⟨[.i32, .i32, .i32], []⟩ else none
  | .fence, .reserved => some ⟨[], []⟩
  | .call, .index f => Γ.funcs[f.toNat]?
  | .callIndirect, .callIndirect typeIndex tableIndex => do
    let table ← Γ.tables[tableIndex.toNat]?
    let type ← Γ.types[typeIndex.toNat]?
    if table.element = .funcRef then some ⟨type.params ++ [.i32], type.results⟩ else none
  | .selectTyped, .valTypes [type] => some ⟨[type, type, .i32], [type]⟩
  | .refNull, .refType type => if type.isRef then some ⟨[], [type]⟩ else none
  | .refFunc, .index f => do
    let _ ← Γ.funcs[f.toNat]?
    if f ∈ Γ.declared then some ⟨[], [.funcRef]⟩ else none
  | .localGet, .index x => do return ⟨[], [← Γ.locals[x.toNat]?]⟩
  | .localSet, .index x => do return ⟨[← Γ.locals[x.toNat]?], []⟩
  | .localTee, .index x => do
    let type ← Γ.locals[x.toNat]?
    return ⟨[type], [type]⟩
  | .globalGet, .index x => do return ⟨[], [(← Γ.globals[x.toNat]?).value]⟩
  | .globalSet, .index x => do
    let g ← Γ.globals[x.toNat]?
    if g.isMutable then some ⟨[g.value], []⟩ else none
  | .tableGet, .index t => do return ⟨[.i32], [(← Γ.tables[t.toNat]?).element]⟩
  | .tableSet, .index t => do return ⟨[.i32, (← Γ.tables[t.toNat]?).element], []⟩
  | .tableSize, .index t => do
    let _ ← Γ.tables[t.toNat]?
    return ⟨[], [.i32]⟩
  | .tableGrow, .index t => do return ⟨[(← Γ.tables[t.toNat]?).element, .i32], [.i32]⟩
  | .tableFill, .index t => do return ⟨[.i32, (← Γ.tables[t.toNat]?).element, .i32], []⟩
  | .tableCopy, .indexPair destination source => do
    let into ← Γ.tables[destination.toNat]?
    let out ← Γ.tables[source.toNat]?
    if into.element = out.element then some ⟨[.i32, .i32, .i32], []⟩ else none
  | _, _ => none

/-- An instruction without a body. -/
def simple (Γ : Env) (s : Stacks) (rule : Rule) (immediate : Immediate) : Option Stacks :=
  match rule with
  | .unreachable =>
    match immediate with
    | .none => some s.diverge
    | _ => none
  | .br =>
    match immediate with
    | .index label => do
      let types ← s.labelTypes label
      let (_, s) ← s.popTypes types
      return s.diverge
    | _ => none
  | .brIf =>
    match immediate with
    | .index label => do
      let (_, s) ← s.popType .i32
      let types ← s.labelTypes label
      s.apply ⟨types, types⟩
    | _ => none
  | .brTable =>
    match immediate with
    | .brTable labels fallback => do
      let (_, s) ← s.popType .i32
      let types ← s.labelTypes fallback
      let s ← s.checkLabels types.length labels
      let (_, s) ← s.popTypes types
      return s.diverge
    | _ => none
  | .ret =>
    match immediate with
    | .none => do
      let types ← s.returnTypes
      let (_, s) ← s.popTypes types
      return s.diverge
    | _ => none
  | .drop =>
    match immediate with
    | .none => s.pop.map (·.2)
    | _ => none
  | .select =>
    match immediate with
    | .none => do
      let (_, s) ← s.popType .i32
      let (a, s) ← s.pop
      let (b, s) ← s.pop
      -- The operands are numbers or vectors, and of one type as far as it is known.
      if a.all (! ·.isRef) ∧ b.all (! ·.isRef) ∧ (a = b ∨ a = none ∨ b = none) then
        return s.putBack [if a = none then b else a]
      else none
    | _ => none
  | .refIsNull =>
    match immediate with
    | .none => do
      let (value, s) ← s.pop
      if value.all (·.isRef) then return s.pushTypes [.i32] else none
    | _ => none
  | rule => do s.apply (← Γ.typeOf rule immediate)

/-! ## Code -/

mutual

/-- An instruction with the given rule. -/
def immediate (Γ : Env) (rule : Rule) (s : Stacks) : Immediate → Option Stacks
  | .block type body =>
    match rule with
    | .block => do
      let type ← Γ.blockType type
      let (_, s) ← s.popTypes type.params
      let s ← Γ.code (s.enter false type) body
      return (← s.leave).pushTypes type.results
    | .loop => do
      let type ← Γ.blockType type
      let (_, s) ← s.popTypes type.params
      let s ← Γ.code (s.enter true type) body
      return (← s.leave).pushTypes type.results
    | _ => none
  -- Without a second arm the operands become the results.
  | .ifThen type thenBody =>
    match rule with
    | .conditional => do
      let type ← Γ.blockType type
      let (_, s) ← s.popType .i32
      let (_, s) ← s.popTypes type.params
      let s ← Γ.code (s.enter false type) thenBody
      let s ← (← s.leave).enter false type |>.leave
      return s.pushTypes type.results
    | _ => none
  | .ifElse type thenBody elseBody =>
    match rule with
    | .conditional => do
      let type ← Γ.blockType type
      let (_, s) ← s.popType .i32
      let (_, s) ← s.popTypes type.params
      let s ← Γ.code (s.enter false type) thenBody
      let s ← Γ.code ((← s.leave).enter false type) elseBody
      return (← s.leave).pushTypes type.results
    | _ => none
  | other => Γ.simple s rule other

def instr (Γ : Env) (s : Stacks) : Instr → Option Stacks
  | .mk name immediate => do Γ.immediate (← ruleOf name) s immediate

def code (Γ : Env) (s : Stacks) : List Instr → Option Stacks
  | [] => some s
  | i :: rest => do Γ.code (← Γ.instr s i) rest

end

/-- Whether code is a valid body for a function with these results, which has
the locals of the environment. -/
def validates (Γ : Env) (results : List ValType) (body : List Instr) : Bool :=
  let start : Stacks := { controls := [{ startTypes := [], endTypes := results, height := 0 }] }
  ((Γ.code start body).bind (·.leave)).isSome

end Env

end Wasm.Validation
