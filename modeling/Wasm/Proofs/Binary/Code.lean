import Wasm.Proofs.Binary.Representable
import Wasm.Proofs.Monads
import Wasm.Proofs.Binary.Values
import Wasm.Proofs.InstrSet.Distinct

/-!
# Code is read back

Representable code has a binary form, and the decoder reads this form back
in every context. The proof follows the tree: an immediate is read by its
shape, a body instruction by instruction, and the byte behind a body is the
first one that no instruction can start with. The fuel of the decoder never
runs out, since every instruction takes a byte or more.
-/

namespace Wasm

open Decoder

/-! ## Opcodes -/

/-- No instruction starts with a byte that closes a body. -/
theorem standard_opcode_ne : ∀ d ∈ InstrSet.standard.defs,
    d.opcode ≠ .single endByte ∧ d.opcode ≠ .single elseByte := by
  decide +kernel

/-- `opcode` begins with a byte that closes no body, and is read as that of `d`. -/
def InstrDef.Opens (d : InstrDef) (opcode : Bytes) : Prop :=
  ∃ b tail, opcode = b :: tail ∧ b ≠ endByte ∧ b ≠ elseByte ∧
    ∀ start, Reads (definition start b) tail d

theorem InstrDef.opens_single {d : InstrDef} {b : UInt8} (member : d ∈ InstrSet.standard.defs)
    (opcode : d.opcode = .single b) : d.Opens [b] := by
  have opener := standard_opcode_ne d member
  rw [opcode] at opener
  refine ⟨b, [], rfl, fun h => opener.1 (h ▸ rfl), fun h => opener.2 (h ▸ rfl), fun start => ?_⟩
  rw [definition, InstrSet.standard_unambiguous.atByte_of_single member opcode]
  exact Reads.pure d

/-- Behind the byte of a space the code may be spelled in any way. -/
theorem InstrDef.opens_extended {d : InstrDef} {space : UInt8} {code : UInt32} {tail : Bytes}
    (member : d ∈ InstrSet.standard.defs) (opcode : d.opcode = .extended space code)
    (number : Reads Codec.u32.decode tail code) : d.Opens (space :: tail) := by
  have regular := InstrSet.standard_isRegular d member
  rw [opcode, InstrSet.isRegular, decide_eq_true_eq] at regular
  refine ⟨space, tail, rfl, ?_, ?_, fun start => ?_⟩
  · rintro rfl
    revert regular
    decide
  · rintro rfl
    revert regular
    decide
  · rw [definition, InstrSet.atByte_of_extended member opcode, ← List.append_nil tail]
    refine Reads.bind number ?_
    rw [InstrSet.standard_unambiguous.atCode_of_extended member opcode]
    exact Reads.pure d

theorem reads_definition {d : InstrDef} (member : d ∈ InstrSet.standard.defs) :
    d.Opens d.opcode.encode := by
  cases opcode : d.opcode with
  | single b => exact InstrDef.opens_single member opcode
  | extended space code => exact InstrDef.opens_extended member opcode (Codec.reads_u32 code)

/-! ## Bodies -/

/-- The byte that closes a body. -/
def Terminator.byte : Terminator → UInt8
  | .endOfBody => endByte
  | .elseArm => elseByte

/-- `bytes` is read as the code `code` inside `depth` structured instructions,
with any closing byte that is allowed there. -/
def ReadsBody (depth : Nat) (bytes : Bytes) (code : List Instr) : Prop :=
  ∀ (fuel : Nat) (inThenArm : Bool) (terminator : Terminator), bytes.length < fuel →
    (terminator = .elseArm → inThenArm = true) →
    Reads (Decoder.body fuel depth inThenArm) (bytes ++ [terminator.byte]) (code, terminator)

/-- `bytes` is read as the immediate `i` of an instruction inside `depth`
structured ones, if its shape is asked for. -/
def ReadsImmediate (depth : Nat) (bytes : Bytes) (i : Immediate) : Prop :=
  ∀ (shape : Shape) (fuel : Nat), shape.fits i = true → bytes.length ≤ fuel →
    Reads (immediate (fun inThenArm => nested depth (Decoder.body fuel (depth + 1) inThenArm))
      shape) bytes i

theorem ReadsBody.nil (depth : Nat) : ReadsBody depth [] [] := by
  intro fuel inThenArm terminator enough allowed
  obtain ⟨fuel, rfl⟩ : ∃ less, fuel = less + 1 := ⟨fuel - 1, by simp at enough; omega⟩
  refine Reads.atOffset fun start => Reads.byteBind ?_
  cases terminator with
  | endOfBody =>
      rw [Terminator.byte, if_pos rfl]
      exact Reads.pure _
  | elseArm =>
      rw [Terminator.byte, if_neg (by decide), if_pos rfl, if_pos (allowed rfl)]
      exact Reads.pure _

theorem ReadsBody.cons {depth : Nat} {d : InstrDef} {i : Immediate} {opcode operand tail : Bytes}
    {rest : List Instr} (opens : d.Opens opcode) (fits : d.shape.fits i = true)
    (first : ReadsImmediate depth operand i) (others : ReadsBody depth tail rest) :
    ReadsBody depth (opcode ++ operand ++ tail) (.mk d.name i :: rest) := by
  intro fuel inThenArm terminator enough allowed
  obtain ⟨b, code, rfl, notEnd, notElse, known⟩ := opens
  simp only [List.length_append, List.length_cons] at enough
  obtain ⟨fuel, rfl⟩ : ∃ less, fuel = less + 1 := ⟨fuel - 1, by omega⟩
  rw [show (b :: code) ++ operand ++ tail ++ [terminator.byte] =
    b :: (code ++ (operand ++ (tail ++ [terminator.byte]))) by simp]
  refine Reads.atOffset fun start => Reads.byteBind ?_
  -- The first byte closes no body, so the reader takes it for an opcode.
  rw [if_neg notEnd, if_neg notElse]
  refine Reads.bind (known start) (Reads.bind (first d.shape fuel fits (by omega)) ?_)
  exact (others fuel inThenArm terminator (by omega) allowed).bindPure

/-- A body behind one more structured instruction. -/
theorem ReadsBody.nested {depth : Nat} {bytes : Bytes} {code : List Instr}
    (h : ReadsBody (depth + 1) bytes code) (room : depth < Bound.nesting.toNat) {fuel : Nat}
    {inThenArm : Bool} (terminator : Terminator) (enough : bytes.length < fuel)
    (allowed : terminator = .elseArm → inThenArm = true) :
    Reads (nested depth (Decoder.body fuel (depth + 1) inThenArm))
      (bytes ++ [terminator.byte]) (code, terminator) := by
  rw [Decoder.nested, if_neg (by omega)]
  exact h fuel inThenArm terminator enough allowed

/-! ## Immediates -/

section Shapes

variable {shape : Shape} {type : BlockType} {code elseCode : List Instr}

theorem Shape.fits_block : shape.fits (.block type code) = true ↔ shape = .block := by
  refine ⟨fun fits => ?_, fun same => same ▸ rfl⟩
  cases shape <;> first | rfl | cases fits

theorem Shape.fits_ifThen : shape.fits (.ifThen type code) = true ↔ shape = .conditional := by
  refine ⟨fun fits => ?_, fun same => same ▸ rfl⟩
  cases shape <;> first | rfl | cases fits

theorem Shape.fits_ifElse :
    shape.fits (.ifElse type code elseCode) = true ↔ shape = .conditional := by
  refine ⟨fun fits => ?_, fun same => same ▸ rfl⟩
  cases shape <;> first | rfl | cases fits

theorem Shape.fits_brTable {labels : List UInt32} {fallback : UInt32} :
    shape.fits (.brTable labels fallback) = true ↔ shape = .brTable := by
  refine ⟨fun fits => ?_, fun same => same ▸ rfl⟩
  cases shape <;> first | rfl | cases fits

end Shapes

/-- The law of an immediate without bodies. -/
theorem ReadsImmediate.leaf {depth : Nat} {bytes : Bytes} {i : Immediate}
    (h : ∀ body shape, shape.fits i = true → Reads (immediate body shape) bytes i) :
    ReadsImmediate depth bytes i :=
  fun shape _ fits _ => h _ shape fits

theorem reads_block {depth : Nat} {type : BlockType} {front bytes : Bytes} {code : List Instr}
    (typed : Reads Codec.blockType.decode front type) (h : ReadsBody (depth + 1) bytes code)
    (room : depth < Bound.nesting.toNat) :
    ReadsImmediate depth (front ++ bytes ++ [endByte])
      (.block type code) := by
  intro shape fuel fits enough
  obtain rfl := Shape.fits_block.mp fits
  simp only [List.length_append, List.length_cons, List.length_nil] at enough
  rw [List.append_assoc]
  refine Reads.bind typed ?_
  exact (h.nested room .endOfBody (by omega) (by simp)).bindPure

theorem reads_ifThen {depth : Nat} {type : BlockType} {front bytes : Bytes} {code : List Instr}
    (typed : Reads Codec.blockType.decode front type) (h : ReadsBody (depth + 1) bytes code)
    (room : depth < Bound.nesting.toNat) :
    ReadsImmediate depth (front ++ bytes ++ [endByte])
      (.ifThen type code) := by
  intro shape fuel fits enough
  obtain rfl := Shape.fits_ifThen.mp fits
  simp only [List.length_append, List.length_cons, List.length_nil] at enough
  -- No second arm is read behind the byte that closes the body.
  rw [List.append_assoc, ← List.append_nil (bytes ++ [endByte])]
  refine Reads.bind typed ?_
  exact Reads.bind (h.nested room .endOfBody (by omega) (by simp)) (Reads.pure _)

theorem reads_ifElse {depth : Nat} {type : BlockType} {front bytes elseBytes : Bytes}
    {code elseCode : List Instr} (typed : Reads Codec.blockType.decode front type)
    (h : ReadsBody (depth + 1) bytes code) (hElse : ReadsBody (depth + 1) elseBytes elseCode)
    (room : depth < Bound.nesting.toNat) :
    ReadsImmediate depth (front ++ bytes ++ [elseByte] ++ elseBytes ++ [endByte])
      (.ifElse type code elseCode) := by
  intro shape fuel fits enough
  obtain rfl := Shape.fits_ifElse.mp fits
  simp only [List.length_append, List.length_cons, List.length_nil] at enough
  rw [show front ++ bytes ++ [elseByte] ++ elseBytes ++ [endByte] =
    front ++ ((bytes ++ [elseByte]) ++ (elseBytes ++ [endByte])) by simp]
  refine Reads.bind typed ?_
  refine Reads.bind (h.nested room .elseArm (by omega) (by simp)) ?_
  exact (hElse.nested room .endOfBody (by omega) (by simp)).bindPure

/-- Immediates without bodies, each in the form that its shape asks for. -/
theorem reads_leaf {depth : Nat} {i : Immediate} (rep : i.Representable depth)
    (plain : ∀ shape : Shape, shape.fits i = true → shape.isStructured = false) :
    ∃ bytes, i.encode = .ok bytes ∧ ReadsImmediate depth bytes i := by
  cases i with
  | block => exact absurd (plain .block rfl) (by decide)
  | ifThen => exact absurd (plain .conditional rfl) (by decide)
  | ifElse => exact absurd (plain .conditional rfl) (by decide)
  | brTable labels fallback =>
      refine ⟨_, rfl, ReadsImmediate.leaf fun body shape fits => ?_⟩
      obtain rfl := Shape.fits_brTable.mp fits
      refine Reads.bind (Codec.reads_counted rep ?_ fun label _ => Codec.reads_u32 label) ?_
      · exact fun label _ => Leb128.unsigned_ne_nil label.toNat
      · exact (Codec.reads_u32 fallback).bindPure
  | valTypes types =>
      refine ⟨_, rfl, ReadsImmediate.leaf fun body shape fits => ?_⟩
      cases shape <;> simp only [Shape.fits, Bool.false_eq_true] at fits
      exact (Codec.reads_valTypes rep).bindPure
  | refType type =>
      refine ⟨_, rfl, ReadsImmediate.leaf fun body shape fits => ?_⟩
      cases shape <;> simp only [Shape.fits, Bool.false_eq_true] at fits
      exact (Codec.reads_refType rep).bindPure
  | _ =>
      -- Every other immediate is one value, or two, with no condition on them.
      refine ⟨_, rfl, ReadsImmediate.leaf fun body shape fits => ?_⟩
      cases shape <;> simp only [Shape.fits, Bool.false_eq_true] at fits
      first
      | exact Reads.pure _
      | exact (Codec.reads_i32 _).bindPure
      | exact (Codec.reads_i64 _).bindPure
      | exact (Codec.reads_f32 _).bindPure
      | exact (Codec.reads_f64 _).bindPure
      | exact (Codec.reads_v128 _).bindPure
      | exact (Codec.reads_u32 _).bindPure
      | exact (Codec.reads_u32 _).bind (Codec.reads_u32 _).bindPure
      | exact (Codec.reads_memArg _).bindPure
      | exact (Reads.byte _).bindPure
      | exact (Reads.expect _).bindPure

/-! ## Trees -/

mutual

/-- A representable immediate has a binary form, which is read back. -/
theorem Immediate.reads_encode : (i : Immediate) → (depth : Nat) → i.Representable depth →
    ∃ bytes, i.encode = .ok bytes ∧ ReadsImmediate depth bytes i
  | .block type code, depth, ⟨room, inner⟩ => by
      obtain ⟨bytes, encoded, reads⟩ := Instr.reads_encodeAll code (depth + 1) inner
      refine ⟨Codec.blockType.encode type ++ bytes ++ [endByte], ?_,
        reads_block (Codec.reads_blockType type) reads room⟩
      rw [Immediate.encode, encoded]
      rfl
  | .ifThen type code, depth, ⟨room, inner⟩ => by
      obtain ⟨bytes, encoded, reads⟩ := Instr.reads_encodeAll code (depth + 1) inner
      refine ⟨Codec.blockType.encode type ++ bytes ++ [endByte], ?_,
        reads_ifThen (Codec.reads_blockType type) reads room⟩
      rw [Immediate.encode, encoded]
      rfl
  | .ifElse type code elseCode, depth, ⟨room, inner, innerElse⟩ => by
      obtain ⟨bytes, encoded, reads⟩ := Instr.reads_encodeAll code (depth + 1) inner
      obtain ⟨elseBytes, encodedElse, readsElse⟩ :=
        Instr.reads_encodeAll elseCode (depth + 1) innerElse
      refine ⟨Codec.blockType.encode type ++ bytes ++ [elseByte] ++ elseBytes ++ [endByte], ?_,
        reads_ifElse (Codec.reads_blockType type) reads readsElse room⟩
      rw [Immediate.encode, encoded, encodedElse]
      rfl
  | .none, _, rep | .i32 _, _, rep | .i64 _, _, rep | .f32 _, _, rep | .f64 _, _, rep
  | .v128 _, _, rep | .index _, _, rep | .indexPair _ _, _, rep | .memArg _, _, rep
  | .lane _, _, rep | .shuffle _, _, rep | .brTable _ _, _, rep | .callIndirect _ _, _, rep
  | .valTypes _, _, rep | .refType _, _, rep | .reserved, _, rep =>
      reads_leaf rep (by rintro ⟨⟩ fits <;> first | rfl | cases fits)

/-- Representable code has a binary form, which is read back up to the byte
that closes it. -/
theorem Instr.reads_encodeAll : (code : List Instr) → (depth : Nat) →
    Instr.AllRepresentable depth code →
    ∃ bytes, Instr.encodeAll code = .ok bytes ∧ ReadsBody depth bytes code
  | [], depth, _ => ⟨[], rfl, ReadsBody.nil depth⟩
  | .mk name i :: rest, depth, ⟨⟨⟨d, found, fits⟩, inner⟩, others⟩ => by
      obtain ⟨operand, encoded, reads⟩ := Immediate.reads_encode i depth inner
      obtain ⟨tail, encodedRest, readsRest⟩ := Instr.reads_encodeAll rest depth others
      obtain ⟨member, rfl⟩ := InstrSet.mem_of_named found
      refine ⟨d.opcode.encode ++ operand ++ tail, ?_,
        ReadsBody.cons (reads_definition member) fits reads readsRest⟩
      simp only [Instr.encodeAll, Instr.encode, found, encoded, encodedRest, Except.ok_bind,
        Except.pure_eq_ok]

end

/-- A body that belongs to no other one, with the byte that closes it. -/
theorem ReadsBody.expr {bytes : Bytes} {code : List Instr} (h : ReadsBody 0 bytes code) :
    Reads Decoder.expr (bytes ++ [endByte]) code := by
  refine Reads.atRemaining fun left enough => ?_
  -- The closing byte is the one byte more that `ReadsBody` asks of the fuel.
  rw [List.length_append] at enough
  exact (h (left + 1) false .endOfBody (by omega) (by simp)).bindPure

/-- Representable expressions are read back in every context. -/
theorem reads_expr {code : List Instr} (rep : RepresentableExpr code) :
    ∃ bytes, encodeExpr code = .ok bytes ∧ Reads expr bytes code := by
  obtain ⟨bytes, encoded, reads⟩ := Instr.reads_encodeAll code 0 rep
  exact ⟨bytes ++ [endByte], by rw [encodeExpr, encoded]; rfl, reads.expr⟩

end Wasm
