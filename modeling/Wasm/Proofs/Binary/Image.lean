import Wasm.Proofs.Binary.RoundTrip
import Wasm.Proofs.Binary.Yields

/-!
# What is decoded can be represented

Every module that comes out of the decoder is one that the format can
represent, whatever spelling it was read from. The bounds hold because the
decoder checks them, immediates have the shape of their instruction because
the shape says how they are read, and a mnemonic names the definition that
its opcode was found in because no two definitions share one. So writing a
decoded module again, however it was spelled, does not change it.
-/

namespace Wasm

open Decoder

/-! ## Code -/

theorem yields_definition (start : Nat) (b : UInt8) :
    Yields (definition start b) fun d => d ∈ InstrSet.standard.defs := by
  rw [definition]
  split
  · exact Yields.failAt _ _
  · rename_i d found
    exact Yields.pure (InstrSet.mem_of_atByte found).1
  · refine Yields.after fun code => ?_
    split
    · exact Yields.failAt _ _
    · rename_i d found
      exact Yields.pure (InstrSet.mem_of_atCode found).1

/-- Bodies inside one more structured instruction, if there is room for it. -/
theorem yields_nested {depth : Nat} {inner : Decoder (List Instr × Terminator)}
    (h : Yields inner fun r => Instr.AllRepresentable (depth + 1) r.1) :
    Yields (nested depth inner) fun r =>
      depth < Bound.nesting.toNat ∧ Instr.AllRepresentable (depth + 1) r.1 :=
  Yields.ite (fun _ => Yields.fail _) fun room => h.mono fun _ inner =>
    ⟨Nat.not_le.mp room, inner⟩

/-- An immediate fits the shape that it was read for. -/
theorem yields_immediate {depth : Nat} {body : Bool → Decoder (List Instr × Terminator)}
    (h : ∀ inThenArm, Yields (body inThenArm) fun r =>
      depth < Bound.nesting.toNat ∧ Instr.AllRepresentable (depth + 1) r.1) (shape : Shape) :
    Yields (immediate body shape) fun i => shape.fits i = true ∧ i.Representable depth := by
  cases shape with
  | brTable =>
      exact (Codec.yields_length _ _ _).bind fun labels few => Yields.after fun fallback =>
        Yields.pure ⟨rfl, few⟩
  | selectTypes => exact (Codec.yields_length _ _ _).bind fun types few => Yields.pure ⟨rfl, few⟩
  | refType => exact Codec.yields_refType.bind fun type isRef => Yields.pure ⟨rfl, isRef⟩
  | block =>
      exact Yields.after fun type => (h false).bind fun _ inner => Yields.pure ⟨rfl, inner⟩
  | conditional =>
      refine Yields.after fun type => (h true).bind fun first inner => ?_
      obtain ⟨thenBody, terminator⟩ := first
      cases terminator with
      | endOfBody => exact Yields.pure ⟨rfl, inner⟩
      | elseArm =>
          exact (h false).bind fun _ innerElse => Yields.pure ⟨rfl, inner.1, inner.2, innerElse.2⟩
  | none => exact Yields.pure ⟨rfl, trivial⟩
  | indexPair | callIndirect =>
      exact Yields.after fun _ => Yields.after fun _ => Yields.pure ⟨rfl, trivial⟩
  | _ => exact Yields.after fun _ => Yields.pure ⟨rfl, trivial⟩

/-- The induction is on the fuel, which covers both the rest of a body and the
bodies inside its instructions. -/
theorem yields_body (fuel depth : Nat) (inThenArm : Bool) :
    Yields (body fuel depth inThenArm) fun r => Instr.AllRepresentable depth r.1 := by
  induction fuel generalizing depth inThenArm with
  | zero => exact Yields.failAtEnd
  | succ fuel ih =>
      refine Yields.after fun start => Yields.after fun b => ?_
      refine Yields.ite (fun _ => Yields.pure trivial) fun _ => ?_
      refine Yields.ite (fun _ => ?_) fun _ => ?_
      · exact Yields.ite (fun _ => Yields.pure trivial) fun _ => Yields.failAt _ _
      · refine (yields_definition start b).bind fun d member => ?_
        refine (yields_immediate (fun arm => yields_nested (ih (depth + 1) arm)) d.shape).bind ?_
        rintro operand ⟨fits, inner⟩
        -- The mnemonic stands for the definition itself, since no other one bears it.
        refine (ih depth inThenArm).bind fun others rest =>
          Yields.pure ⟨⟨⟨d, ?_, fits⟩, inner⟩, rest⟩
        exact InstrSet.standard_unambiguous.named_of_mem member

theorem yields_expr : Yields expr RepresentableExpr :=
  Yields.after fun _ => (yields_body _ 0 false).bind fun _ h => Yields.pure h

/-! ## Items -/

theorem yields_importItem : Yields importItem fun i => i.type.Representable := by
  refine Yields.after fun moduleName => Yields.after fun name => ?_
  suffices h : Yields importType ImportType.Representable from h.bind fun _ rep => Yields.pure rep
  refine Yields.after fun kind => ?_
  cases kind with
  | func => exact Yields.after fun _ => Yields.pure trivial
  | table => exact Codec.yields_tableType.bind fun _ rep => Yields.pure rep
  | memory => exact Codec.yields_memoryType.bind fun _ rep => Yields.pure rep
  | global => exact Yields.after fun _ => Yields.pure trivial

theorem yields_global : Yields Decoder.global fun g => RepresentableExpr g.init :=
  Yields.after fun _ => yields_expr.bind fun _ rep => Yields.pure rep

theorem yields_elementMode (start : Nat) (flags : UInt32) :
    Yields (elementMode start flags) ElementMode.Representable := by
  rw [elementMode]
  split
  · exact yields_expr.bind fun _ rep => Yields.pure rep
  · exact yields_expr.bind fun _ rep => Yields.pure rep
  · exact Yields.after fun _ => yields_expr.bind fun _ rep => Yields.pure rep
  · exact Yields.after fun _ => yields_expr.bind fun _ rep => Yields.pure rep
  · exact Yields.pure trivial
  · exact Yields.pure trivial
  · exact Yields.pure trivial
  · exact Yields.pure trivial
  · exact Yields.failAt _ _

theorem yields_elementType (flags : UInt32) :
    Yields (elementType flags) fun type => type.isRef = true := by
  refine Yields.ite (fun _ => Yields.pure rfl) fun _ => Yields.ite (fun _ => ?_) fun _ => ?_
  · exact Codec.yields_refType
  · exact Yields.after fun _ => Yields.pure rfl

/-- A function number becomes an expression that could have been written. -/
theorem yields_functionEntry : Yields functionEntry RepresentableExpr := by
  refine Yields.after fun index => Yields.pure ?_
  exact ⟨⟨⟨_, rfl, rfl⟩, trivial⟩, trivial⟩

theorem yields_elementSegment : Yields elementSegment ElementSegment.Representable := by
  refine Yields.after fun start => Yields.after fun flags => ?_
  refine (yields_elementMode start flags).bind fun mode repMode => ?_
  refine (yields_elementType flags).bind fun type isRef => ?_
  have entry : Yields (if 4 ≤ flags then expr else functionEntry) RepresentableExpr :=
    Yields.ite (fun _ => yields_expr) fun _ => yields_functionEntry
  exact (Codec.yields_counted entry _ _).bind fun init rep =>
    Yields.pure ⟨repMode, isRef, rep.1, rep.2⟩

theorem yields_dataSegment : Yields dataSegment fun segment => segment.mode.Representable := by
  refine Yields.after fun start => Yields.after fun flags => ?_
  suffices h : Yields (dataMode start flags) DataMode.Representable from
    h.bind fun _ rep => Yields.after fun _ => Yields.pure rep
  rw [dataMode]
  split
  · exact yields_expr.bind fun _ rep => Yields.pure rep
  · exact Yields.pure trivial
  · exact Yields.after fun _ => yields_expr.bind fun _ rep => Yields.pure rep
  · exact Yields.failAt _ _

/-- The sum of the runs stays within the bound that each of them is held against. -/
theorem yields_runs (n : Nat) {total : Nat} (within : total ≤ Bound.locals.toNat) :
    Yields (runs n total) fun items => total + runTotal items ≤ Bound.locals.toNat := by
  induction n generalizing total with
  | zero => exact Yields.pure within
  | succ n ih =>
      refine Yields.after fun start => Yields.after fun length => Yields.after fun type => ?_
      refine Yields.ite (fun _ => Yields.failAt _ _) fun fits => ?_
      refine (ih (Nat.not_lt.mp fits)).bind fun rest bounded => Yields.pure ?_
      rw [runTotal, List.map_cons, List.sum_cons, ← Nat.add_assoc]
      exact bounded

theorem yields_functionBody : Yields functionBody fun body =>
    body.1.length ≤ Bound.locals.toNat ∧ RepresentableExpr body.2 := by
  refine Yields.after fun size => Yields.after fun start => Yields.after fun there => ?_
  refine Yields.ite (fun _ => ?_) fun _ => Yields.fail _
  refine Yields.after fun n => (yields_runs n (Nat.zero_le _)).bind fun items bounded => ?_
  -- Runs of no locals are read as well; only the sum counts.
  refine yields_expr.bind fun code rep => Yields.after fun stop => ?_
  refine Yields.ite (fun _ => Yields.pure ⟨?_, rep⟩) fun _ => Yields.fail _
  rw [length_expandRuns]
  omega

/-! ## Modules -/

/-- Contents that were read from sections. Signatures and bodies of functions
are still apart. -/
structure SectionContents.Representable (s : SectionContents) : Prop where
  result : s.result.ItemsRepresentable
  bodyCount : s.bodies.length ≤ Bound.functions.toNat
  bodies : ∀ body ∈ s.bodies, body.1.length ≤ Bound.locals.toNat ∧ RepresentableExpr body.2

theorem SectionContents.representable_empty : ({} : SectionContents).Representable := by
  refine ⟨?_, Nat.zero_le _, List.forall_mem_nil _⟩
  constructor <;> first | exact Nat.zero_le _ | exact List.forall_mem_nil _

theorem yields_sectionContent {s : SectionContents} (rep : s.Representable) (kind : SectionKind) :
    Yields (sectionContent s kind) SectionContents.Representable := by
  obtain ⟨result, bodyCount, bodies⟩ := rep
  cases kind with
  | custom | functions | start | dataCount =>
      exact Yields.after fun _ => Yields.pure ⟨{ result with }, bodyCount, bodies⟩
  | types =>
      exact (Codec.yields_counted Codec.yields_funcType _ _).bind fun _ h =>
        Yields.pure ⟨{ result with typeCount := h.1, types := h.2 }, bodyCount, bodies⟩
  | imports =>
      exact (Codec.yields_counted yields_importItem _ _).bind fun _ h =>
        Yields.pure ⟨{ result with importCount := h.1, imports := h.2 }, bodyCount, bodies⟩
  | tables =>
      exact (Codec.yields_counted Codec.yields_tableType _ _).bind fun _ h =>
        Yields.pure ⟨{ result with tableCount := h.1, tables := h.2 }, bodyCount, bodies⟩
  | memories =>
      exact (Codec.yields_counted Codec.yields_memoryType _ _).bind fun _ h =>
        Yields.pure ⟨{ result with memoryCount := h.1, memories := h.2 }, bodyCount, bodies⟩
  | globals =>
      exact (Codec.yields_counted yields_global _ _).bind fun _ h =>
        Yields.pure ⟨{ result with globalCount := h.1, globals := h.2 }, bodyCount, bodies⟩
  | exports =>
      -- An export is representable whatever it names.
      exact (Codec.yields_length _ _ _).bind fun _ few =>
        Yields.pure ⟨{ result with exportCount := few }, bodyCount, bodies⟩
  | elements =>
      exact (Codec.yields_counted yields_elementSegment _ _).bind fun _ h =>
        Yields.pure ⟨{ result with elementCount := h.1, elements := h.2 }, bodyCount, bodies⟩
  | code =>
      exact (Codec.yields_counted yields_functionBody _ _).bind fun _ h =>
        Yields.pure ⟨result, h.1, h.2⟩
  | data =>
      exact (Codec.yields_counted yields_dataSegment _ _).bind fun _ h =>
        Yields.pure ⟨{ result with dataCount := h.1, data := h.2 }, bodyCount, bodies⟩

theorem yields_nextSection {s : SectionContents} (rep : s.Representable) :
    Yields (nextSection s) SectionContents.Representable := by
  refine Yields.after fun start => Yields.after fun id => Yields.after fun size => ?_
  refine Yields.after fun there => Yields.ite (fun _ => ?_) fun _ => Yields.failAtEnd
  have placed : Yields (checkOrder start id s) SectionContents.Representable := by
    refine Yields.ite (fun _ => Yields.pure rep) fun _ => ?_
    refine Yields.ite (fun _ => Yields.failAt _ _) fun _ => Yields.pure ?_
    exact ⟨rep.result, rep.bodyCount, rep.bodies⟩
  refine placed.bind fun s' rep' => ?_
  split
  · exact (yields_sectionContent rep' _).within _ _
  · exact Yields.failAt _ _

theorem yields_sections (fuel : Nat) {s : SectionContents} (rep : s.Representable) :
    Yields (sections fuel s) SectionContents.Representable := by
  induction fuel generalizing s with
  | zero => exact Yields.failAtEnd
  | succ fuel ih =>
      refine Yields.after fun more => Yields.ite (fun _ => ?_) fun _ => Yields.pure rep
      exact (yields_nextSection rep).bind fun s' rep' => ih rep'

theorem yields_joinFuncs {s : SectionContents} (rep : s.Representable) :
    Yields (joinFuncs s) Module.ItemsRepresentable := by
  refine Yields.ite (fun _ => Yields.pure ?_) fun _ => Yields.fail _
  refine { rep.result with funcCount := ?_, funcs := ?_ }
  · rw [List.length_map, List.length_zip]
    exact (Nat.min_le_right _ _).trans rep.bodyCount
  · intro f member
    -- The signature puts no condition on the function, its body does.
    obtain ⟨⟨typeIndex, body⟩, joined, rfl⟩ := List.mem_map.mp member
    obtain ⟨few, code⟩ := rep.bodies body (List.of_mem_zip joined).2
    exact ⟨few, code⟩

/-- The image of the decoder lies where the encoder is inverted. -/
theorem representable_of_decode {input : Bytes} {m : Module}
    (decoded : Module.decode input = .ok m) : m.ItemsRepresentable := by
  have h : Yields wholeModule Module.ItemsRepresentable := by
    refine Yields.after fun _ => Yields.after fun fuel => ?_
    exact (yields_sections _ SectionContents.representable_empty).bind fun _ => yields_joinFuncs
  rw [Module.decode] at decoded
  split at decoded
  · rename_i result c read
    cases decoded
    exact h _ _ c read
  · cases decoded

/-! ## Writing again -/

/-- A module that can be written states the right number of data segments, if any. -/
theorem dataCountRight_of_encode {m : Module} {bytes : Bytes} (encoded : m.encode = .ok bytes) :
    m.DataCountRight := by
  obtain ⟨_, _, later⟩ := Except.bind_eq_ok.mp encoded
  obtain ⟨_, _, later⟩ := Except.bind_eq_ok.mp later
  obtain ⟨_, counted, _⟩ := Except.bind_eq_ok.mp later
  intro count stated
  rw [Module.dataCountSection, stated] at counted
  by_contra wrong
  cases counted.symm.trans (if_neg wrong)

/-- Writing a decoded module gives bytes that are decoded as the same module. -/
theorem Module.decode_encode_of_decode {input output : Bytes} {m : Module}
    (decoded : Module.decode input = .ok m) (encoded : m.encode = .ok output)
    (size : output.length < 2 ^ 32) : Module.decode output = .ok m :=
  decode_of_encode (representable_of_decode decoded) (dataCountRight_of_encode encoded) encoded size

/-- A passive data segment whose number is written in two bytes. -/
theorem Module.decode_encode_of_padded :
    let lead := magic ++ Bytes.littleEndian 4 formatVersion.toNat
    let m : Module := { data := [{ mode := .passive, init := [7] }] }
    Module.decode (lead ++ [11, 5, 0x81, 0, 1, 1, 7]) = .ok m ∧
      m.encode = .ok (lead ++ [11, 4, 1, 1, 1, 7]) ∧
      Module.decode (lead ++ [11, 4, 1, 1, 1, 7]) = .ok m := by
  intro lead m
  have decoded : Module.decode (lead ++ [11, 5, 0x81, 0, 1, 1, 7]) = .ok m := by rfl
  have encoded : m.encode = .ok (lead ++ [11, 4, 1, 1, 1, 7]) := by decide +kernel
  exact ⟨decoded, encoded, Module.decode_encode_of_decode decoded encoded (by decide)⟩

end Wasm
