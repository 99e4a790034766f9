import Wasm.Proofs.Assembly.Written
import Wasm.Proofs.Binary.Image
import Wasm.Proofs.Binary.SettledItems

/-!
# Built modules of any size

The decoder holds what it reads against its bounds; the builder holds nothing
against them. A signature may have any number of parameters, a function any
number of locals, and bodies may be nested to any depth, so a built module may
be too large for the decoder. That is the only thing that can be wrong with it:
what is written for it is read back if it is within the bounds, and refused
because of one of them otherwise.
-/

namespace Wasm

namespace ModuleBuilder

open Decoder

variable {b : ModuleBuilder} {roots : Roots} {m : Module} {bytes : Bytes}

/-! ## What becomes of a well-formed module -/

theorem WellFormedModule.dataCountSection (formed : WellFormedModule m) :
    m.dataCountSection = .ok [] := by
  rw [Module.dataCountSection, formed.dataCount]

/-- What is written for a well-formed module is read back, or refused because
of a bound. -/
theorem WellFormedModule.settles (formed : WellFormedModule m)
    (counted : ∀ f ∈ m.funcs, f.locals.length < 2 ^ 32) (encoded : m.encode = .ok bytes)
    (size : bytes.length < 2 ^ 32) :
    Module.decode bytes = .ok m ∨ ∃ e, Module.decode bytes = .error e ∧ e.fault.IsLimit := by
  simp only [Module.encode, Except.bind_eq_ok, Except.pure_eq_ok, Except.ok.injEq,
    formed.dataCountSection, exists_eq_left'] at encoded
  obtain ⟨globals, madeGlobals, elements, madeElements, code, madeCode, data, madeData, rfl⟩ :=
    encoded
  have four : magic.length = 4 := rfl
  simp only [List.length_append, four, Bytes.length_littleEndian] at size
  have start : MayLead 0 [] {} := ⟨0, UInt8.le_refl 0, .inl (ReadsSections.nil _)⟩
  have lead := start
    |>.add (mayAdd_types (m := m) rfl (by omega)) (by decide)
    |>.add (mayAdd_imports formed.imports rfl (by omega)) (by decide)
    |>.add (mayAdd_functions (m := m) rfl (by omega)) (by decide)
    |>.add (mayAdd_tables formed.tables rfl (by omega)) (by decide)
    |>.add (mayAdd_memories formed.memories rfl (by omega)) (by decide)
    |>.add (mayAdd_globals formed.globals rfl madeGlobals (by omega)) (by decide)
    |>.add (mayAdd_exports (m := m) rfl (by omega)) (by decide)
    |>.add (adds_start (m := m) rfl (by omega)).mayAdd (by decide)
    |>.add (mayAdd_elements (fun segment member => by
      obtain ⟨mode, isRef, init⟩ := formed.elements segment member
      exact ⟨mode, isRef, init⟩) rfl madeElements (by omega)) (by decide)
    |>.add (mayAdd_code (fun f member => ⟨formed.funcs f member, counted f member⟩) rfl madeCode
      (by omega)) (by decide)
    |>.add (mayAdd_data formed.data rfl madeData (by omega)) (by decide)
  obtain ⟨last, -, settles⟩ := lead
  have all := settles.append (.inl (readsSections_customs m.customs _ (by omega)))
  have joined := joinFuncs_contents m last
  rw [Module.contents, formed.dataCount] at joined
  have outcome := decode_of_settlesSections all joined
  simpa only [List.append_assoc, List.nil_append] using outcome

/-- What is written for a well-formed module that is not within the bounds is
refused because of one of them. -/
theorem WellFormedModule.refused (formed : WellFormedModule m)
    (counted : ∀ f ∈ m.funcs, f.locals.length < 2 ^ 32) (encoded : m.encode = .ok bytes)
    (size : bytes.length < 2 ^ 32) (beyond : ¬m.WithinLimits) :
    ∃ e, Module.decode bytes = .error e ∧ e.fault.IsLimit := by
  refine (formed.settles counted encoded size).resolve_left fun decoded => ?_
  exact beyond (representable_of_decode decoded).withinLimits

/-- What is written for a built module is read back exactly if it is within the
bounds of the decoder. If it is not, and lengths of 32 bits can count the locals
of its functions, it is refused because of one of these bounds. -/
theorem decode_build_iff_withinLimits (reached : b.Reached) (done : b.build roots = .ok m)
    (encoded : m.encode = .ok bytes) (size : bytes.length < 2 ^ 32) :
    (Module.decode bytes = .ok m ↔ m.WithinLimits) ∧
      ((∀ f ∈ m.funcs, f.locals.length < 2 ^ 32) →
        ((∃ e, Module.decode bytes = .error e ∧ e.fault.IsLimit) ↔ ¬m.WithinLimits)) := by
  obtain ⟨-, found, -, assembled⟩ := build_eq_ok.mp done
  have formed := wellFormed_of_assemble reached assembled
  have reads : m.WithinLimits → Module.decode bytes = .ok m := fun limits =>
    decode_of_encode (formed.representable limits) (dataCountRight_of_encode encoded) encoded size
  refine ⟨⟨fun decoded => (representable_of_decode decoded).withinLimits, reads⟩, ?_⟩
  intro counted
  constructor
  · rintro ⟨e, failed, -⟩ limits
    cases failed.symm.trans (reads limits)
  · exact formed.refused counted encoded size

/-! ## A signature that is too large -/

/-- A module with one function, which is imported. -/
def importing (type : FuncType) : Module where
  types := [type]
  imports := [⟨"m", "f", .func 0⟩]
  exports := [⟨"f", .func, 0⟩]

/-- A builder with one function, which is imported. -/
def importsOne (type : FuncType) : ModuleBuilder := (ModuleBuilder.importFunc {} ⟨"m", "f"⟩ type).2

theorem importsOne_reached (type : FuncType) : (importsOne type).Reached :=
  Reached.empty.importFunc _ type

/-- A signature of any size is imported as it is. -/
theorem importsOne_build (type : FuncType) :
    (importsOne type).build { exports := [("f", ⟨.func, 0⟩)] } = .ok (importing type) := by
  have followed : (importsOne type).follow {} [.entity ⟨.func, 0⟩] =
      .ok { entities := [⟨.func, 0⟩] } := (follow_new rfl rfl).trans follow_nil
  have numbers : (importsOne type).indexSpace { entities := [⟨.func, 0⟩] } =
      { entities := [⟨.func, 0⟩], types := [type] } := by
    have signatures : (importsOne type).signatures [⟨.func, 0⟩] = [type].eraseDups := rfl
    have order : (importsOne type).order { entities := [⟨.func, 0⟩] } = [⟨.func, 0⟩] := rfl
    rw [indexSpace, order, signatures]
    rfl
  have first : IndexSpace.index { entities := [⟨.func, 0⟩], types := [type] } (.signature type) =
      .ok 0 := by
    simp [IndexSpace.index, IndexSpace.index?, List.idxOf?]
  have imported : (importsOne type).partsOf { entities := [⟨.func, 0⟩], types := [type] } .func =
      .ok [.imported ⟨"m", "f", .func 0⟩] := by
    have part : (importsOne type).part { entities := [⟨.func, 0⟩], types := [type] } ⟨.func, 0⟩ =
        .ok (.imported ⟨"m", "f", .func 0⟩) :=
      Except.bind_eq_ok.mpr ⟨0, first, rfl⟩
    show List.mapM _ [(⟨.func, 0⟩ : Entity)] = _
    rw [List.mapM_cons, part]
    rfl
  refine build_eq_ok.mpr ⟨rfl, _, Except.bind_eq_ok.mpr ⟨_, followed, rfl⟩, ?_⟩
  rw [assemble, numbers, imported]
  rfl

/-- One parameter more than the decoder takes. -/
def wideType : FuncType where
  params := List.replicate 1001 .i32
  results := []

theorem importing_wideType_encode :
    ∃ bytes, (importing wideType).encode = .ok bytes ∧ bytes.length < 2 ^ 32 := by
  have length : (importing wideType).encode.toOption.map List.length = some 1033 := by
    decide +kernel
  cases encoded : (importing wideType).encode with
  | error e =>
      rw [encoded] at length
      cases length
  | ok bytes =>
      rw [encoded] at length
      have : bytes.length = 1033 := Option.some.inj length
      exact ⟨bytes, rfl, by omega⟩

theorem importing_wideType_beyond : ¬(importing wideType).WithinLimits := by
  intro limits
  have few : wideType.params.length ≤ Bound.valueTypes.toNat :=
    (limits.types wideType List.mem_cons_self).1
  rw [wideType, List.length_replicate] at few
  exact absurd few (by decide)

/-- The module with this signature is built and written, and it is refused. -/
theorem decode_build_iff_withinLimits_wideType : ∃ m bytes,
    (importsOne wideType).build { exports := [("f", ⟨.func, 0⟩)] } = .ok m ∧
      m.encode = .ok bytes ∧ bytes.length < 2 ^ 32 ∧ ¬m.WithinLimits ∧
      ∃ e, Module.decode bytes = .error e ∧ e.fault.IsLimit := by
  obtain ⟨bytes, encoded, size⟩ := importing_wideType_encode
  have built := importsOne_build wideType
  obtain ⟨-, refused⟩ :=
    decode_build_iff_withinLimits (importsOne_reached wideType) built encoded size
  exact ⟨_, bytes, built, encoded, size, importing_wideType_beyond,
    (refused nofun).mpr importing_wideType_beyond⟩

/-- The builder does not keep to the bounds of the decoder. -/
theorem not_forall_build_not_refused : ¬∀ (b : ModuleBuilder) (roots : Roots) (m : Module)
    (bytes : Bytes), b.Reached → b.build roots = .ok m → m.encode = .ok bytes →
      ∀ e, Module.decode bytes = .error e → ¬e.fault.IsLimit := by
  intro all
  obtain ⟨bytes, encoded, size⟩ := importing_wideType_encode
  have built := importsOne_build wideType
  obtain ⟨-, found, -, assembled⟩ := build_eq_ok.mp built
  have formed := wellFormed_of_assemble (importsOne_reached wideType) assembled
  obtain ⟨e, failed, limit⟩ := formed.refused nofun encoded size importing_wideType_beyond
  exact all _ _ _ bytes (importsOne_reached wideType) built encoded e failed limit

end ModuleBuilder

end Wasm
