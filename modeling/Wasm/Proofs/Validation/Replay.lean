import Wasm.Proofs.Body.Program
import Wasm.Proofs.Validation.Algorithm

/-!
# Writing code again

A body that is there as code can be written once more, with one call for each
of its instructions. Each call finds its operands on the stack, branches say
how far out they go, and entities are given by handles. The validation
algorithm comes here with a parameter, what is done at a single instruction,
since the stack checker differs from it at one of them.
-/

namespace Wasm

/-! ## Making the calls -/

mutual

/-- Makes a call, with its operands on the stack. -/
def Call.run {σ : Type} : Call → Construction σ Unit
  | .instr name argument => do
    let _ ← Construction.instr name argument []
  | .block name type body => do
    let _ ← if name = "loop" then Construction.loop type fun _ => Call.runAll body
      else Construction.block type fun _ => Call.runAll body
  | .ifThen type thenBody => do
    let _ ← Construction.ifThen type fun _ => Call.runAll thenBody
  | .ifElse type thenBody elseBody => do
    let _ ← Construction.ifElse type (fun _ => Call.runAll thenBody) fun _ => Call.runAll elseBody

def Call.runAll {σ : Type} : List Call → Construction σ Unit
  | [] => return ()
  | call :: rest => do
    call.run
    Call.runAll rest

end

/-- Declares the locals of a function. -/
def Construction.addLocals {σ : Type} : List ValType → Construction σ Unit
  | [] => return ()
  | type :: rest => do
    let _ ← addLocal type
    addLocals rest

/-- Writes a body by the given calls. -/
def FuncBody.replay {σ : Type} (locals : List ValType) (calls : List Call) :
    Construction σ Unit := do
  Construction.addLocals locals
  Call.runAll calls

namespace Validation

namespace Env

variable (Γ : Env)

/-! ## The calls of code -/

section Calls

variable (ids : ExternKind → UInt32 → Nat)

def funcHandle (f : UInt32) : Option FuncHandle := do
  return ⟨ids .func f, ← Γ.funcs[f.toNat]?⟩

def globalHandle (x : UInt32) : Option GlobalHandle := do
  return ⟨ids .global x, ← Γ.globals[x.toNat]?⟩

def tableHandle (t : UInt32) : Option TableHandle := do
  return ⟨ids .table t, ← Γ.tables[t.toNat]?⟩

def localHandle (x : UInt32) : Option LocalHandle := do
  return ⟨x, ← Γ.locals[x.toNat]?⟩

section Handles

variable {Γ ids}

theorem funcHandle_of_place {f : UInt32} {type : FuncType}
    (place : Γ.funcs[f.toNat]? = some type) :
    Γ.funcHandle ids f = some ⟨ids .func f, type⟩ := by
  rw [funcHandle, place]
  rfl

theorem globalHandle_of_place {x : UInt32} {type : GlobalType}
    (place : Γ.globals[x.toNat]? = some type) :
    Γ.globalHandle ids x = some ⟨ids .global x, type⟩ := by
  rw [globalHandle, place]
  rfl

theorem tableHandle_of_place {t : UInt32} {type : TableType}
    (place : Γ.tables[t.toNat]? = some type) :
    Γ.tableHandle ids t = some ⟨ids .table t, type⟩ := by
  rw [tableHandle, place]
  rfl

theorem localHandle_of_place {x : UInt32} {type : ValType}
    (place : Γ.locals[x.toNat]? = some type) : Γ.localHandle x = some ⟨x, type⟩ := by
  rw [localHandle, place]
  rfl

end Handles

/-- What is given with an instruction that has this immediate. Of the entity
with a number, `ids` tells which one it is. -/
def argument : Rule → Immediate → Option Argument
  | .constant _, literal | .shuffle, literal => some (.literal literal)
  | .lane _ _, .lane l => some (.lane l)
  | .access _ _ _, .memArg arg => some (.memory arg.offset (some arg.align))
  | .br, .index label | .brIf, .index label => some (.branch (.depth label))
  | .brTable, .brTable labels fallback =>
    some (.branchTable (labels.map .depth) (.depth fallback))
  | .call, .index f | .refFunc, .index f => (Γ.funcHandle ids f).map .func
  | .callIndirect, .callIndirect typeIndex tableIndex => do
    return .callIndirect (← Γ.tableHandle ids tableIndex) (← Γ.types[typeIndex.toNat]?)
  | .selectTyped, .valTypes [type] | .refNull, .refType type => some (.type type)
  | .localGet, .index x | .localSet, .index x | .localTee, .index x =>
    (Γ.localHandle x).map .localVar
  | .globalGet, .index x | .globalSet, .index x => (Γ.globalHandle ids x).map .globalVar
  | .tableGet, .index t | .tableSet, .index t | .tableSize, .index t | .tableGrow, .index t
  | .tableFill, .index t => (Γ.tableHandle ids t).map .table
  | .tableCopy, .indexPair destination source => do
    return .tablePair (← Γ.tableHandle ids destination) (← Γ.tableHandle ids source)
  | _, _ => some .none

mutual

/-- The call for an instruction with the given mnemonic and rule. -/
def immediateCall (name : String) (rule : Rule) : Immediate → Option Call
  | .block type body => do return .block name (← Γ.blockType type) (← calls body)
  | .ifThen type thenBody => do return .ifThen (← Γ.blockType type) (← calls thenBody)
  | .ifElse type thenBody elseBody => do
    return .ifElse (← Γ.blockType type) (← calls thenBody) (← calls elseBody)
  | other => do return .instr name (← Γ.argument ids rule other)

def call : Instr → Option Call
  | .mk name immediate => do immediateCall name (← ruleOf name) immediate

/-- The calls that write the code, one for each instruction. -/
def calls : List Instr → Option (List Call)
  | [] => some []
  | i :: rest => do return (← call i) :: (← calls rest)

end

end Calls

/-! ## The algorithm with a parameter -/

section By

variable (step : Stacks → Rule → Immediate → Option Stacks)

mutual

/-- An instruction with the given rule, where `step` is what is done at one without a body. -/
def immediateBy (rule : Rule) (s : Stacks) : Immediate → Option Stacks
  | .block type body =>
    match rule with
    | .block => do
      let type ← Γ.blockType type
      let (_, s) ← s.popTypes type.params
      let s ← codeBy (s.enter false type) body
      return (← s.leave).pushTypes type.results
    | .loop => do
      let type ← Γ.blockType type
      let (_, s) ← s.popTypes type.params
      let s ← codeBy (s.enter true type) body
      return (← s.leave).pushTypes type.results
    | _ => none
  | .ifThen type thenBody =>
    match rule with
    | .conditional => do
      let type ← Γ.blockType type
      let (_, s) ← s.popType .i32
      let (_, s) ← s.popTypes type.params
      let s ← codeBy (s.enter false type) thenBody
      let s ← (← s.leave).enter false type |>.leave
      return s.pushTypes type.results
    | _ => none
  | .ifElse type thenBody elseBody =>
    match rule with
    | .conditional => do
      let type ← Γ.blockType type
      let (_, s) ← s.popType .i32
      let (_, s) ← s.popTypes type.params
      let s ← codeBy (s.enter false type) thenBody
      let s ← codeBy ((← s.leave).enter false type) elseBody
      return (← s.leave).pushTypes type.results
    | _ => none
  | other => step s rule other

def instrBy (s : Stacks) : Instr → Option Stacks
  | .mk name immediate => do immediateBy (← ruleOf name) s immediate

def codeBy (s : Stacks) : List Instr → Option Stacks
  | [] => some s
  | i :: rest => do codeBy (← instrBy s i) rest

end

/-- Whether code passes as a body for a function with these results. -/
def validatesBy (results : List ValType) (body : List Instr) : Bool :=
  let start : Stacks := { controls := [{ startTypes := [], endTypes := results, height := 0 }] }
  ((Γ.codeBy step start body).bind (·.leave)).isSome

end By

mutual

theorem immediateBy_simple (rule : Rule) (s : Stacks) :
    (i : Immediate) → Γ.immediateBy Γ.simple rule s i = Γ.immediate rule s i
  | .block _ body => by
      have inner := fun s => codeBy_simple s body
      cases rule <;> simp only [immediateBy, immediate, inner]
  | .ifThen _ thenBody => by
      have inner := fun s => codeBy_simple s thenBody
      cases rule <;> simp only [immediateBy, immediate, inner]
  | .ifElse _ thenBody elseBody => by
      have inner := fun s => codeBy_simple s thenBody
      have innerElse := fun s => codeBy_simple s elseBody
      cases rule <;> simp only [immediateBy, immediate, inner, innerElse]
  | .none | .i32 _ | .i64 _ | .f32 _ | .f64 _ | .v128 _ | .index _ | .indexPair _ _ | .memArg _
  | .lane _ | .shuffle _ | .brTable _ _ | .callIndirect _ _ | .valTypes _ | .refType _
  | .reserved => by simp only [immediateBy, immediate]

theorem instrBy_simple (s : Stacks) : (i : Instr) → Γ.instrBy Γ.simple s i = Γ.instr s i
  | .mk name immediate => by
      have same := fun rule => immediateBy_simple rule s immediate
      simp only [instrBy, instr, same]

/-- With its own rule for single instructions this is the algorithm. -/
theorem codeBy_simple (s : Stacks) : (code : List Instr) → Γ.codeBy Γ.simple s code = Γ.code s code
  | [] => by simp only [codeBy, Env.code]
  | i :: rest => by
      have others := fun s => codeBy_simple s rest
      simp only [codeBy, Env.code, instrBy_simple s i, others]

end

end Env

/-! ## Unknown operands -/

/-- Every operand of unknown type is now an i32. -/
def Stacks.commit (s : Stacks) : Stacks :=
  { s with values := s.values.map fun value => some (value.getD .i32) }

/-- A single instruction, which leaves no operand of unknown type behind. -/
def Env.committed (Γ : Env) (s : Stacks) (rule : Rule) (immediate : Immediate) : Option Stacks :=
  (Γ.simple s rule immediate).map (·.commit)

end Validation

end Wasm
