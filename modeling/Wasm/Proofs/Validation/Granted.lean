import Wasm.Proofs.Body.Effects
import Wasm.Proofs.Validation.Replay

/-!
# Instructions with a type, written again

An instruction whose immediate decides its type can be given to the stack
checker again, and is taken for the same type: what the rule of the index asks
of the immediate is all that the typing rule of the definition asks of the
argument, where the handles are those of the environment.
-/

namespace Wasm.Validation

open InstrDef (HasEffect)

variable {Γ : Env} {ids : ExternKind → UInt32 → Nat} {d : InstrDef} {rule : Rule}
  {immediate : Immediate} {type : FuncType}

/-- Where the handles are those of the environment, the stack checker takes the
instruction for the type that it has. -/
def Granted (Γ : Env) (ids : ExternKind → UInt32 → Nat) (d : InstrDef) (rule : Rule)
    (immediate : Immediate) (type : FuncType) : Prop :=
  ∃ argument, Γ.argument ids rule immediate = some argument ∧
    ∀ c : Context, Γ.locals <+: c.locals.toList → ∃ references capture, d.effect c argument =
      .ok { params := type.params, results := type.results, references, capture }

section Types

variable (ruled : d.rule = some rule) (typed : Γ.typeOf rule immediate = some type)

include ruled typed

/-! ## Signatures and literals -/

theorem granted_fixed (typing : d.typing = .fixed) : Granted Γ ids d rule immediate type := by
  obtain ⟨type', -, signature, rfl⟩ := InstrDef.of_rule ruled typing
  cases immediate with
  | none =>
      cases typed
      exact ⟨.none, rfl, fun c _ => ⟨_, _, (HasEffect.fixed signature).eq_ok typing⟩⟩
  | _ => cases typed

theorem granted_constant (typing : d.typing = .constant) :
    Granted Γ ids d rule immediate type := by
  obtain ⟨valType, shape, signature, rfl⟩ := InstrDef.of_rule ruled typing
  obtain ⟨literal, same⟩ := Option.ite_none_right_eq_some.mp typed
  cases same
  have fits := (fits_iff_literalType shape).mpr literal
  exact ⟨.literal immediate, rfl, fun c _ =>
    ⟨_, _, (HasEffect.constant fits signature).eq_ok typing⟩⟩

theorem granted_shuffle (typing : d.typing = .shuffle) : Granted Γ ids d rule immediate type := by
  obtain ⟨signature, rfl⟩ := InstrDef.of_rule ruled typing
  cases immediate with
  | shuffle lanes =>
      obtain ⟨inside, same⟩ := Option.ite_none_right_eq_some.mp typed
      cases same
      have small : ∀ lane ∈ lanes.toList, lane < 32 := fun lane member =>
        of_decide_eq_true (List.all_eq_true.mp inside lane member)
      exact ⟨.literal (.shuffle lanes), rfl, fun c _ =>
        ⟨_, _, (HasEffect.shuffle small signature).eq_ok typing⟩⟩
  | _ => cases typed

theorem granted_lane (typing : d.typing = .lane) : Granted Γ ids d rule immediate type := by
  obtain ⟨count, type', shape, signature, rfl⟩ := InstrDef.of_rule ruled typing
  cases immediate with
  | lane l =>
      obtain ⟨inside, same⟩ := Option.ite_none_right_eq_some.mp typed
      cases same
      exact ⟨.lane l, rfl, fun c _ => ⟨_, _, (HasEffect.lane shape inside signature).eq_ok typing⟩⟩
  | _ => cases typed

theorem granted_fence (typing : d.typing = .fence) : Granted Γ ids d rule immediate type := by
  obtain rfl := InstrDef.of_rule ruled typing
  cases immediate with
  | reserved =>
      cases typed
      exact ⟨.none, rfl, fun c _ => ⟨_, _, HasEffect.fence.eq_ok typing⟩⟩
  | _ => cases typed

/-! ## Memory -/

theorem granted_memory (typing : d.typing = .memory) : Granted Γ ids d rule immediate type := by
  have allowed : d.signature = some type ∧ Γ.argument ids rule immediate = some .none := by
    rcases InstrDef.of_rule ruled typing with ⟨type', -, signature, rfl⟩ | ⟨-, signature, rfl⟩
    · cases immediate with
      | index i =>
          obtain ⟨-, same⟩ := Option.ite_none_right_eq_some.mp typed
          cases same
          exact ⟨signature, rfl⟩
      | _ => cases typed
    · cases immediate with
      | indexPair i j =>
          obtain ⟨-, same⟩ := Option.ite_none_right_eq_some.mp typed
          cases same
          exact ⟨signature, rfl⟩
      | _ => cases typed
  exact ⟨.none, allowed.2, fun c _ => ⟨_, _, (HasEffect.memory allowed.1).eq_ok typing⟩⟩

theorem granted_memoryAccess (typing : d.typing = .memoryAccess) :
    Granted Γ ids d rule immediate type := by
  obtain ⟨natural, type', shape, signature, rfl⟩ := InstrDef.of_rule ruled typing
  cases immediate with
  | memArg arg =>
      obtain ⟨⟨-, small, exactly⟩, same⟩ := Option.ite_none_right_eq_some.mp typed
      cases same
      have below : (some arg.align).getD natural ≤ natural :=
        UInt32.le_iff_toNat_le.mpr ((Nat.pow_le_pow_iff_right (by decide)).mp small)
      have aligned : d.opcode.isAtomic = true → arg.align = natural := fun atomic =>
        UInt32.toNat_inj.mp ((Nat.pow_right_inj (by decide)).mp (exactly atomic))
      exact ⟨.memory arg.offset (some arg.align), rfl, fun c _ =>
        ⟨_, _, (HasEffect.access shape below aligned signature).eq_ok typing⟩⟩
  | _ => cases typed

/-! ## Locals, globals and tables -/

theorem granted_local (typing : d.typing.isOnLocal = true) :
    Granted Γ ids d rule immediate type := by
  cases kind : d.typing <;> rw [kind] at typing
  case localGet | localSet | localTee =>
      obtain rfl := InstrDef.of_rule ruled kind
      cases immediate with
      | index x =>
          obtain ⟨valType, place, same⟩ := Option.bind_eq_some_iff.mp typed
          cases same
          refine ⟨.localVar ⟨x, valType⟩, ?_, fun c locals => ⟨[], .literal (.index x), ?_⟩⟩
          · exact congrArg (Option.map Argument.localVar) (Env.localHandle_of_place place)
          · -- The locals of the function are the first ones of the body.
            have there : c.locals[x.toNat]? = some valType := by
              obtain ⟨inside, found⟩ := List.getElem?_eq_some_iff.mp place
              rw [← Array.getElem?_toList, ← found]
              exact List.prefix_iff_getElem?.mp locals _ inside
            refine HasEffect.eq_ok ?_ kind
            constructor
            exact if_pos there
      | _ => cases typed
  all_goals cases typing

theorem granted_global (typing : d.typing = .globalGet ∨ d.typing = .globalSet) :
    Granted Γ ids d rule immediate type := by
  rcases typing with typing | typing <;> obtain rfl := InstrDef.of_rule ruled typing
  · cases immediate with
    | index x =>
        obtain ⟨g, place, same⟩ := Option.bind_eq_some_iff.mp typed
        cases same
        refine ⟨.globalVar ⟨ids .global x, g⟩, ?_, fun c _ =>
          ⟨_, _, HasEffect.globalGet.eq_ok typing⟩⟩
        exact congrArg (Option.map Argument.globalVar) (Env.globalHandle_of_place place)
    | _ => cases typed
  · cases immediate with
    | index x =>
        obtain ⟨g, place, rest⟩ := Option.bind_eq_some_iff.mp typed
        obtain ⟨isMutable, same⟩ := Option.ite_none_right_eq_some.mp rest
        cases same
        refine ⟨.globalVar ⟨ids .global x, g⟩, ?_, fun c _ =>
          ⟨_, _, (HasEffect.globalSet isMutable).eq_ok typing⟩⟩
        exact congrArg (Option.map Argument.globalVar) (Env.globalHandle_of_place place)
    | _ => cases typed

theorem granted_table (typing : d.typing.isOnTable = true) :
    Granted Γ ids d rule immediate type := by
  cases kind : d.typing <;> rw [kind] at typing
  case tableGet | tableSet | tableSize | tableGrow | tableFill =>
      obtain rfl := InstrDef.of_rule ruled kind
      cases immediate with
      | index t =>
          obtain ⟨table, place, same⟩ := Option.bind_eq_some_iff.mp typed
          cases same
          refine ⟨.table ⟨ids .table t, table⟩, ?_, fun c _ =>
            ⟨[.table (ids .table t)], default, HasEffect.eq_ok ?_ kind⟩⟩
          · exact congrArg (Option.map Argument.table) (Env.tableHandle_of_place place)
          · constructor
      | _ => cases typed
  all_goals cases typing

theorem granted_tableCopy (typing : d.typing = .tableCopy) :
    Granted Γ ids d rule immediate type := by
  obtain rfl := InstrDef.of_rule ruled typing
  cases immediate with
  | indexPair destination source =>
      obtain ⟨into, place, rest⟩ := Option.bind_eq_some_iff.mp typed
      obtain ⟨out, place', rest⟩ := Option.bind_eq_some_iff.mp rest
      obtain ⟨agree, same⟩ := Option.ite_none_right_eq_some.mp rest
      cases same
      refine ⟨.tablePair ⟨ids .table destination, into⟩ ⟨ids .table source, out⟩, ?_, fun c _ =>
        ⟨_, _, (HasEffect.tableCopy agree).eq_ok typing⟩⟩
      show Option.bind (Γ.tableHandle ids destination) _ = _
      rw [Env.tableHandle_of_place place]
      show Option.bind (Γ.tableHandle ids source) _ = _
      rw [Env.tableHandle_of_place place']
      rfl
  | _ => cases typed

/-! ## Functions and types -/

theorem granted_call (typing : d.typing = .call) : Granted Γ ids d rule immediate type := by
  obtain rfl := InstrDef.of_rule ruled typing
  cases immediate with
  | index f =>
      have place : Γ.funcs[f.toNat]? = some type := typed
      refine ⟨.func ⟨ids .func f, type⟩, ?_, fun c _ => ⟨_, _, HasEffect.call.eq_ok typing⟩⟩
      exact congrArg (Option.map Argument.func) (Env.funcHandle_of_place place)
  | _ => cases typed

theorem granted_callIndirect (typing : d.typing = .callIndirect) :
    Granted Γ ids d rule immediate type := by
  obtain rfl := InstrDef.of_rule ruled typing
  cases immediate with
  | callIndirect typeIndex tableIndex =>
      obtain ⟨table, place, rest⟩ := Option.bind_eq_some_iff.mp typed
      obtain ⟨signature, place', rest⟩ := Option.bind_eq_some_iff.mp rest
      obtain ⟨holdsFuncs, same⟩ := Option.ite_none_right_eq_some.mp rest
      cases same
      refine ⟨.callIndirect ⟨ids .table tableIndex, table⟩ signature, ?_, fun c _ =>
        ⟨_, _, (HasEffect.callIndirect holdsFuncs).eq_ok typing⟩⟩
      show Option.bind (Γ.tableHandle ids tableIndex) _ = _
      rw [Env.tableHandle_of_place place]
      show Option.bind Γ.types[typeIndex.toNat]? _ = _
      rw [place']
      rfl
  | _ => cases typed

theorem granted_refFunc (typing : d.typing = .refFunc) : Granted Γ ids d rule immediate type := by
  obtain rfl := InstrDef.of_rule ruled typing
  cases immediate with
  | index f =>
      obtain ⟨signature, place, rest⟩ := Option.bind_eq_some_iff.mp typed
      obtain ⟨-, same⟩ := Option.ite_none_right_eq_some.mp rest
      cases same
      refine ⟨.func ⟨ids .func f, signature⟩, ?_, fun c _ =>
        ⟨_, _, HasEffect.refFunc.eq_ok typing⟩⟩
      exact congrArg (Option.map Argument.func) (Env.funcHandle_of_place place)
  | _ => cases typed

theorem granted_selectTyped (typing : d.typing = .selectTyped) :
    Granted Γ ids d rule immediate type := by
  obtain rfl := InstrDef.of_rule ruled typing
  cases immediate with
  | valTypes types =>
      rcases types with _ | ⟨valType, _ | ⟨_, _⟩⟩
      · cases typed
      · cases typed
        exact ⟨.type valType, rfl, fun c _ => ⟨_, _, HasEffect.selectTyped.eq_ok typing⟩⟩
      · cases typed
  | _ => cases typed

theorem granted_refNull (typing : d.typing = .refNull) : Granted Γ ids d rule immediate type := by
  obtain rfl := InstrDef.of_rule ruled typing
  cases immediate with
  | refType valType =>
      obtain ⟨isRef, same⟩ := Option.ite_none_right_eq_some.mp typed
      cases same
      exact ⟨.type valType, rfl, fun c _ => ⟨_, _, (HasEffect.refNull isRef).eq_ok typing⟩⟩
  | _ => cases typed

end Types

/-! ## All of them -/

theorem granted_of_typeOf (ruled : d.rule = some rule)
    (typed : Γ.typeOf rule immediate = some type) : Granted Γ ids d rule immediate type := by
  cases typing : d.typing with
  | fixed => exact granted_fixed ruled typed typing
  | constant => exact granted_constant ruled typed typing
  | shuffle => exact granted_shuffle ruled typed typing
  | lane => exact granted_lane ruled typed typing
  | fence => exact granted_fence ruled typed typing
  | memory => exact granted_memory ruled typed typing
  | memoryAccess => exact granted_memoryAccess ruled typed typing
  | localGet | localSet | localTee => exact granted_local ruled typed (by rw [typing]; rfl)
  | globalGet => exact granted_global ruled typed (.inl typing)
  | globalSet => exact granted_global ruled typed (.inr typing)
  | tableGet | tableSet | tableSize | tableGrow | tableFill =>
      exact granted_table ruled typed (by rw [typing]; rfl)
  | tableCopy => exact granted_tableCopy ruled typed typing
  | call => exact granted_call ruled typed typing
  | callIndirect => exact granted_callIndirect ruled typed typing
  | refFunc => exact granted_refFunc ruled typed typing
  | selectTyped => exact granted_selectTyped ruled typed typing
  | refNull => exact granted_refNull ruled typed typing
  | trap =>
      obtain ⟨-, -, rfl⟩ := InstrDef.of_rule ruled typing
      cases typed
  | block =>
      have same := InstrDef.of_rule ruled typing
      dsimp only [InstrDef.AmountsTo] at same
      split at same <;> cases same <;> cases typed
  | ret | br | brIf | brTable | drop | select | refIsNull | conditional =>
      obtain rfl := InstrDef.of_rule ruled typing
      cases typed

end Wasm.Validation
