import Wasm.Assembly.Declarations
import Wasm.Proofs.Body.Linked
import Wasm.Proofs.Validation.Follows

/-!
# Instructions without a body

What the stack checker takes an instruction for is what the validation
algorithm takes it for once handles are numbers: most instructions have a type
that their immediate decides, and the others treat the two stacks alike.
-/

namespace Wasm

/-! ## Handles of a builder -/

/-- The handles of an argument are those of entities of `b`. -/
def ModuleBuilder.Owns (b : ModuleBuilder) : Argument → Prop
  | .func handle => ∃ decl, b.funcs[handle.id]? = some decl ∧ decl.type = handle.type
  | .globalVar handle => ∃ decl, b.globals[handle.id]? = some decl ∧ decl.type = handle.type
  | .table handle | .callIndirect handle _ =>
      ∃ decl, b.tables[handle.id]? = some decl ∧ decl.type = handle.type
  | .tablePair destination source =>
      (∃ decl, b.tables[destination.id]? = some decl ∧ decl.type = destination.type) ∧
        ∃ decl, b.tables[source.id]? = some decl ∧ decl.type = source.type
  | _ => True

/-- The numbers that `N` gives to the references of `b` stand for entities of
the same types, there is a memory where code uses one, and functions that code
makes references to are declared. -/
structure Validation.Env.Fits (Γ : Env) (b : ModuleBuilder) (N : Reference → UInt32 → Prop) :
    Prop where
  funcs : ∀ id decl n, b.funcs[id]? = some decl → N (.func id) n →
    Γ.funcs[n.toNat]? = some decl.type
  globals : ∀ id decl n, b.globals[id]? = some decl → N (.global id) n →
    Γ.globals[n.toNat]? = some decl.type
  tables : ∀ id decl n, b.tables[id]? = some decl → N (.table id) n →
    Γ.tables[n.toNat]? = some decl.type
  signatures : ∀ type n, N (.signature type) n → Γ.types[n.toNat]? = some type
  memory : ∀ n, N .memoryUse n → n = 0 ∧ Γ.memories ≠ []
  mentions : ∀ id n mark, N (.func id) n → N (.funcMention id) mark → n ∈ Γ.declared

namespace Validation

variable {b : ModuleBuilder} {N : Reference → UInt32 → Prop} {Γ : Env} {d : InstrDef}
  {c c' : Context} {argument : Argument} {effect : Effect} {indices : List UInt32} {rule : Rule}

/-! ## Numbers of an effect -/

theorem number_of_single {reference : Reference} (h : List.Forall₂ N [reference] indices) :
    ∃ n, N reference n ∧ indices = [n] := by
  cases h with
  | cons known rest =>
      cases rest
      exact ⟨_, known, rfl⟩

theorem numbers_of_pair {first second : Reference} (h : List.Forall₂ N [first, second] indices) :
    ∃ n m, N first n ∧ N second m ∧ indices = [n, m] := by
  cases h with
  | cons known rest =>
      obtain ⟨m, known', rfl⟩ := number_of_single rest
      exact ⟨_, m, known, known', rfl⟩

/-! ## Types -/

/-- Locals are only added, so one that is known now keeps its place. -/
theorem place_of_localType {handle : LocalHandle} (locals : c.locals.toList <+: Γ.locals)
    (known : c.localType handle = .ok handle.type) :
    Γ.locals[handle.index.toNat]? = some handle.type := by
  rw [Context.localType] at known
  obtain ⟨found, -⟩ := Except.ite_error_eq_ok.mp known
  rw [← Array.getElem?_toList] at found
  obtain ⟨inside, same⟩ := List.getElem?_eq_some_iff.mp found
  rw [List.prefix_iff_getElem?.mp locals _ inside, same]

/-- The instruction has a type, which is the effect that the stack checker goes by. -/
def HasType (Γ : Env) (d : InstrDef) (effect : Effect) (indices : List UInt32) (rule : Rule) :
    Prop :=
  effect.diverges = false ∧ ∃ immediate, effect.capture.link d indices = .ok immediate ∧
    Γ.typeOf rule immediate = some ⟨effect.params, effect.results⟩

section Types

variable (ruled : d.rule = some rule) (links : d.typing.linksBy d.linking = true)
  (allowed : d.effect c argument = .ok effect)
  (numbers : List.Forall₂ N effect.references indices)

include ruled links allowed numbers

/-! ### Signatures and literals -/

theorem hasType_fixed (typing : d.typing = .fixed) : HasType Γ d effect indices rule := by
  obtain ⟨type', -, signature', rfl⟩ := InstrDef.of_rule ruled typing
  rw [typing] at links
  cases (d.effect_eq_ok typing).mp allowed with
  | fixed signature =>
      cases numbers
      cases signature'.symm.trans signature
      exact ⟨rfl, .none, (link_literal (beq_iff_eq.mp links)).mpr ⟨rfl, rfl⟩, rfl⟩

theorem hasType_constant (typing : d.typing = .constant) : HasType Γ d effect indices rule := by
  obtain ⟨valType, shape, signature', rfl⟩ := InstrDef.of_rule ruled typing
  rw [typing] at links
  cases (d.effect_eq_ok typing).mp allowed with
  | constant fits signature =>
      cases numbers
      cases signature'.symm.trans signature
      exact ⟨rfl, _, (link_literal (beq_iff_eq.mp links)).mpr ⟨rfl, rfl⟩,
        if_pos ((fits_iff_literalType shape).mp fits)⟩

theorem hasType_shuffle (typing : d.typing = .shuffle) : HasType Γ d effect indices rule := by
  obtain ⟨signature', rfl⟩ := InstrDef.of_rule ruled typing
  rw [typing] at links
  cases (d.effect_eq_ok typing).mp allowed with
  | shuffle inside signature =>
      cases numbers
      cases signature'.symm.trans signature
      refine ⟨rfl, _, (link_literal (beq_iff_eq.mp links)).mpr ⟨rfl, rfl⟩, if_pos ?_⟩
      exact List.all_eq_true.mpr fun lane member => decide_eq_true (inside lane member)

theorem hasType_lane (typing : d.typing = .lane) : HasType Γ d effect indices rule := by
  obtain ⟨count, type, shape, signature, rfl⟩ := InstrDef.of_rule ruled typing
  rw [typing] at links
  cases (d.effect_eq_ok typing).mp allowed with
  | lane shape' inside signature' =>
      cases shape.symm.trans shape'
      cases signature.symm.trans signature'
      cases numbers
      exact ⟨rfl, _, (link_literal (beq_iff_eq.mp links)).mpr ⟨rfl, rfl⟩, if_pos inside⟩

theorem hasType_fence (typing : d.typing = .fence) : HasType Γ d effect indices rule := by
  obtain rfl := InstrDef.of_rule ruled typing
  rw [typing] at links
  cases (d.effect_eq_ok typing).mp allowed
  cases numbers
  exact ⟨rfl, .reserved, (link_literal (beq_iff_eq.mp links)).mpr ⟨rfl, rfl⟩, rfl⟩

/-! ### Memory -/

omit links in
theorem hasType_memory (fits : Γ.Fits b N) (typing : d.typing = .memory) :
    HasType Γ d effect indices rule := by
  cases (d.effect_eq_ok typing).mp allowed with
  | memory signature =>
      obtain ⟨n, known, rfl⟩ := number_of_single numbers
      obtain ⟨rfl, some⟩ := fits.memory n known
      rcases InstrDef.of_rule ruled typing with
        ⟨type', linking, signature', rfl⟩ | ⟨linking, signature', rfl⟩ <;>
        cases signature'.symm.trans signature
      · exact ⟨rfl, .index 0, (link_index linking).mpr ⟨0, rfl, rfl⟩, if_pos ⟨rfl, some⟩⟩
      · exact ⟨rfl, .indexPair 0 0, (link_memoryCopy linking).mpr ⟨0, rfl, rfl⟩,
          if_pos ⟨rfl, rfl, some⟩⟩

/-- Both the default alignment and a given one are allowed by the width. -/
theorem hasType_memoryAccess (fits : Γ.Fits b N) (typing : d.typing = .memoryAccess) :
    HasType Γ d effect indices rule := by
  obtain ⟨natural, type, shape, signature, rfl⟩ := InstrDef.of_rule ruled typing
  rw [typing] at links
  cases (d.effect_eq_ok typing).mp allowed with
  | naturalAccess shape' signature' =>
      cases shape.symm.trans shape'
      cases signature.symm.trans signature'
      obtain ⟨n, known, rfl⟩ := number_of_single numbers
      obtain ⟨rfl, some⟩ := fits.memory n known
      exact ⟨rfl, _, (link_memoryAccess (beq_iff_eq.mp links)).mpr ⟨rfl, rfl⟩,
        if_pos ⟨some, Nat.le_refl _, fun _ => rfl⟩⟩
  | access shape' small exactly signature' =>
      cases shape.symm.trans shape'
      cases signature.symm.trans signature'
      obtain ⟨n, known, rfl⟩ := number_of_single numbers
      obtain ⟨rfl, some⟩ := fits.memory n known
      refine ⟨rfl, _, (link_memoryAccess (beq_iff_eq.mp links)).mpr ⟨rfl, rfl⟩,
        if_pos ⟨some, ?_, fun atomic => ?_⟩⟩
      · exact Nat.pow_le_pow_right (by decide) (UInt32.le_iff_toNat_le.mp small)
      · rw [exactly atomic]

/-! ### Locals, globals and tables -/

theorem hasType_local (locals : c.locals.toList <+: Γ.locals)
    (typing : d.typing.isOnLocal = true) : HasType Γ d effect indices rule := by
  obtain ⟨kind, same, derived⟩ := InstrDef.exists_hasEffect allowed
  rw [same] at typing links
  cases derived with
  | localGet known | localSet known | localTee known =>
      obtain rfl := InstrDef.of_rule ruled same
      cases numbers
      refine ⟨rfl, _, (link_literal (beq_iff_eq.mp links)).mpr ⟨rfl, rfl⟩, ?_⟩
      show Option.bind Γ.locals[_]? _ = _
      rw [place_of_localType locals known]
      rfl
  | _ => cases typing

theorem hasType_global (owns : b.Owns argument) (fits : Γ.Fits b N)
    (typing : d.typing = .globalGet ∨ d.typing = .globalSet) :
    HasType Γ d effect indices rule := by
  rcases typing with typing | typing <;> rw [typing] at links <;>
    obtain rfl := InstrDef.of_rule ruled typing
  · cases (d.effect_eq_ok typing).mp allowed
    obtain ⟨decl, declared, same⟩ := owns
    obtain ⟨n, known, rfl⟩ := number_of_single numbers
    refine ⟨rfl, .index n, (link_index (beq_iff_eq.mp links)).mpr ⟨n, rfl, rfl⟩, ?_⟩
    show Option.bind Γ.globals[n.toNat]? _ = _
    rw [fits.globals _ decl n declared known, same]
    rfl
  · cases (d.effect_eq_ok typing).mp allowed with
    | globalSet isMutable =>
        obtain ⟨decl, declared, same⟩ := owns
        obtain ⟨n, known, rfl⟩ := number_of_single numbers
        refine ⟨rfl, .index n, (link_index (beq_iff_eq.mp links)).mpr ⟨n, rfl, rfl⟩, ?_⟩
        show Option.bind Γ.globals[n.toNat]? _ = _
        rw [fits.globals _ decl n declared known, same]
        exact if_pos isMutable

theorem hasType_table (owns : b.Owns argument) (fits : Γ.Fits b N)
    (typing : d.typing.isOnTable = true) : HasType Γ d effect indices rule := by
  obtain ⟨kind, same, derived⟩ := InstrDef.exists_hasEffect allowed
  rw [same] at typing links
  cases derived with
  | tableGet | tableSet | tableSize | tableGrow | tableFill =>
      obtain rfl := InstrDef.of_rule ruled same
      obtain ⟨decl, declared, same⟩ := owns
      obtain ⟨n, known, rfl⟩ := number_of_single numbers
      refine ⟨rfl, .index n, (link_index (beq_iff_eq.mp links)).mpr ⟨n, rfl, rfl⟩, ?_⟩
      show Option.bind Γ.tables[n.toNat]? _ = _
      rw [fits.tables _ decl n declared known, same]
      rfl
  | _ => cases typing

theorem hasType_tableCopy (owns : b.Owns argument) (fits : Γ.Fits b N)
    (typing : d.typing = .tableCopy) : HasType Γ d effect indices rule := by
  obtain rfl := InstrDef.of_rule ruled typing
  rw [typing] at links
  cases (d.effect_eq_ok typing).mp allowed with
  | tableCopy agree =>
      obtain ⟨⟨into, declaredInto, sameInto⟩, out, declaredOut, sameOut⟩ := owns
      obtain ⟨n, m, known, known', rfl⟩ := numbers_of_pair numbers
      refine ⟨rfl, .indexPair n m, (link_tableCopy (beq_iff_eq.mp links)).mpr ⟨n, m, rfl, rfl⟩, ?_⟩
      show Option.bind Γ.tables[n.toNat]? _ = _
      rw [fits.tables _ into n declaredInto known]
      show Option.bind Γ.tables[m.toNat]? _ = _
      rw [fits.tables _ out m declaredOut known']
      exact if_pos (by rw [sameInto, sameOut, agree])

/-! ### Functions -/

theorem hasType_call (owns : b.Owns argument) (fits : Γ.Fits b N) (typing : d.typing = .call) :
    HasType Γ d effect indices rule := by
  obtain rfl := InstrDef.of_rule ruled typing
  rw [typing] at links
  cases (d.effect_eq_ok typing).mp allowed
  obtain ⟨decl, declared, same⟩ := owns
  obtain ⟨n, known, rfl⟩ := number_of_single numbers
  refine ⟨rfl, .index n, (link_index (beq_iff_eq.mp links)).mpr ⟨n, rfl, rfl⟩, ?_⟩
  exact (fits.funcs _ decl n declared known).trans (congrArg some same)

theorem hasType_callIndirect (owns : b.Owns argument) (fits : Γ.Fits b N)
    (typing : d.typing = .callIndirect) : HasType Γ d effect indices rule := by
  obtain rfl := InstrDef.of_rule ruled typing
  rw [typing] at links
  cases (d.effect_eq_ok typing).mp allowed with
  | callIndirect holdsFuncs =>
      obtain ⟨decl, declared, same⟩ := owns
      obtain ⟨n, m, known, known', rfl⟩ := numbers_of_pair numbers
      refine ⟨rfl, .callIndirect m n,
        (link_callIndirect (beq_iff_eq.mp links)).mpr ⟨n, m, rfl, rfl⟩, ?_⟩
      show Option.bind Γ.tables[n.toNat]? _ = _
      rw [fits.tables _ decl n declared known]
      show Option.bind Γ.types[m.toNat]? _ = _
      rw [fits.signatures _ m known']
      exact if_pos (by rw [same, holdsFuncs])

theorem hasType_refFunc (owns : b.Owns argument) (fits : Γ.Fits b N)
    (typing : d.typing = .refFunc) : HasType Γ d effect indices rule := by
  obtain rfl := InstrDef.of_rule ruled typing
  rw [typing] at links
  cases (d.effect_eq_ok typing).mp allowed
  obtain ⟨decl, declared, same⟩ := owns
  obtain ⟨n, mark, known, marked, rfl⟩ := numbers_of_pair numbers
  refine ⟨rfl, .index n, (link_refFunc (beq_iff_eq.mp links)).mpr ⟨n, mark, rfl, rfl⟩, ?_⟩
  show Option.bind Γ.funcs[n.toNat]? _ = _
  rw [fits.funcs _ decl n declared known]
  exact if_pos (fits.mentions _ n mark known marked)

/-! ### Types as immediates -/

theorem hasType_selectTyped (typing : d.typing = .selectTyped) :
    HasType Γ d effect indices rule := by
  obtain rfl := InstrDef.of_rule ruled typing
  rw [typing] at links
  cases (d.effect_eq_ok typing).mp allowed
  cases numbers
  exact ⟨rfl, _, (link_literal (beq_iff_eq.mp links)).mpr ⟨rfl, rfl⟩, rfl⟩

theorem hasType_refNull (typing : d.typing = .refNull) : HasType Γ d effect indices rule := by
  obtain rfl := InstrDef.of_rule ruled typing
  rw [typing] at links
  cases (d.effect_eq_ok typing).mp allowed with
  | refNull isRef =>
      cases numbers
      exact ⟨rfl, _, (link_literal (beq_iff_eq.mp links)).mpr ⟨rfl, rfl⟩, if_pos isRef⟩

end Types

end Validation

end Wasm
