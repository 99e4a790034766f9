import Wasm.Proofs.Binary.Items
import Wasm.Proofs.Binary.WellFormed

/-!
# What is too large is refused

The decoder holds numbers against bounds that the encoder knows nothing of, so
what is written for well-formed code need not be read back. But it meets no
other fate: it is read back as what it was, or refused because of a bound.
Which of the two it is does not depend on where it stands and on what follows
it, so the law of a sequence is put together from the laws of its parts. The
laws of what is read back do not have to be proved again for this: a part
counts as settled when one of them applies, or when it is refused.
-/

namespace Wasm

/-- A fault that reports a number beyond a bound of the decoder. -/
inductive DecodeFault.IsLimit : DecodeFault → Prop
  | limitExceeded {what : String} {count : Nat} {limit : UInt32} (beyond : limit.toNat < count) :
      IsLimit (.limitExceeded what count limit)

namespace Decoder

variable {α β : Type} {d : Decoder α} {bytes bytes₁ bytes₂ : Bytes} {a : α} {b : β}

/-- `d` refuses every input that starts with `bytes` because of a bound. -/
def Refuses (d : Decoder α) (bytes : Bytes) : Prop :=
  ∀ (offset : Nat) (rest : Bytes) (id : Option SectionId),
    ∃ e c, d ⟨offset, bytes ++ rest, id⟩ = .error e c ∧ e.fault.IsLimit

/-- `d` reads `bytes` as `a` wherever they stand, or refuses them wherever they stand. -/
def Settles (d : Decoder α) (bytes : Bytes) (a : α) : Prop := Reads d bytes a ∨ Refuses d bytes

theorem Refuses.failAt {what : String} {count : Nat} {limit : UInt32}
    (beyond : limit.toNat < count) (start : Nat) (bytes : Bytes) :
    Refuses (failAt start (.limitExceeded what count limit) : Decoder α) bytes :=
  fun _ _ _ => ⟨_, _, rfl, .limitExceeded beyond⟩

theorem Refuses.fail {what : String} {count : Nat} {limit : UInt32}
    (beyond : limit.toNat < count) (bytes : Bytes) :
    Refuses (fail (.limitExceeded what count limit) : Decoder α) bytes :=
  fun _ _ _ => ⟨_, _, rfl, .limitExceeded beyond⟩

/-! ## Sequencing -/

/-- Nothing that follows makes up for what is too large. -/
theorem Refuses.append (h : Refuses d bytes) (more : Bytes) : Refuses d (bytes ++ more) := by
  intro offset rest id
  rw [List.append_assoc]
  exact h offset (more ++ rest) id

theorem Refuses.bind {f : α → Decoder β} (h : Refuses d bytes) : Refuses (d >>= f) bytes := by
  intro offset rest id
  obtain ⟨e, c, failed, beyond⟩ := h offset rest id
  exact ⟨e, c, EStateM.bind_eq_error.mpr (.inl failed), beyond⟩

/-- What is refused behind something that is read. -/
theorem Reads.refuses {f : α → Decoder β} (first : Reads d bytes₁ a)
    (second : Refuses (f a) bytes₂) : Refuses (d >>= f) (bytes₁ ++ bytes₂) := by
  intro offset rest id
  rw [List.append_assoc, bind_ok (first offset (bytes₂ ++ rest) id)]
  exact second _ rest id

theorem Refuses.byteBind {f : UInt8 → Decoder β} {first : UInt8} (h : Refuses (f first) bytes) :
    Refuses (byte >>= f) (first :: bytes) :=
  Reads.refuses (Reads.byte first) h

theorem Refuses.atOffset {f : Nat → Decoder β} (h : ∀ start, Refuses (f start) bytes) :
    Refuses (offset >>= f) bytes := by
  intro start rest id
  rw [offset_bind]
  exact h start start rest id

theorem Refuses.atRemaining {f : Nat → Decoder β}
    (h : ∀ left, bytes.length ≤ left → Refuses (f left) bytes) :
    Refuses (remaining >>= f) bytes := by
  intro start rest id
  rw [remaining_bind]
  exact h _ (by simp) start rest id

theorem Refuses.atLeast {n : Nat} {f : Bool → Decoder β} (enough : n ≤ bytes.length)
    (h : Refuses (f true) bytes) : Refuses (hasAtLeast n >>= f) bytes := by
  intro start rest id
  have there : Bytes.hasAtLeast n (bytes ++ rest) = true := by
    rw [Bytes.hasAtLeast_iff, List.length_append]
    omega
  rw [hasAtLeast_bind, there]
  exact h start rest id

/-- A section is refused together with its content. -/
theorem Refuses.within {id : SectionId} (h : Refuses d bytes) :
    Refuses (within bytes.length id d) bytes := by
  intro start rest outer
  obtain ⟨e, c, failed, beyond⟩ := h start [] (some id)
  have taken : (bytes ++ rest).take bytes.length = bytes ++ [] := by simp
  refine ⟨e, ⟨start, bytes ++ rest, outer⟩, ?_, beyond⟩
  simp only [Decoder.within, taken, failed]

theorem Reads.settles (h : Reads d bytes a) : Settles d bytes a := .inl h

theorem Settles.bind {f : α → Decoder β} (first : Settles d bytes₁ a)
    (second : Settles (f a) bytes₂ b) : Settles (d >>= f) (bytes₁ ++ bytes₂) b := by
  rcases first with reads | refuses
  · rcases second with reads' | refuses'
    · exact .inl (reads.bind reads')
    · exact .inr (reads.refuses refuses')
  · exact .inr (refuses.append bytes₂).bind

theorem Settles.bindPure {f : α → β} (h : Settles d bytes a) :
    Settles (d >>= fun a => Pure.pure (f a)) bytes (f a) :=
  h.imp Reads.bindPure Refuses.bind

/-- The first item that is refused ends the reading of a list. -/
theorem Settles.list {item : Decoder α} {items : List α} {contents : List Bytes}
    (each : List.Forall₂ (fun a bytes => Settles item bytes a) items contents) :
    Settles (list item items.length) contents.flatten items := by
  induction each with
  | nil => exact .inl (Reads.pure [])
  | cons first _ ih =>
      rw [List.flatten_cons]
      exact first.bind ih.bindPure

end Decoder

open Decoder

/-! ## Vectors -/

namespace Codec

variable {α β : Type}

theorem refuses_count (what : String) {limit : UInt32} {n : Nat} (beyond : limit.toNat < n)
    (small : n < 2 ^ 32) : Refuses (count what limit) (Leb128.unsigned n) := by
  refine Refuses.atOffset fun start => ?_
  rw [← List.append_nil (Leb128.unsigned n)]
  refine Reads.refuses (Leb128.reads_unsigned small (by decide)) ?_
  rw [if_pos beyond]
  exact Refuses.failAt beyond start []

theorem settles_countBind {what : String} {limit : UInt32} {n : Nat} {f : Nat → Decoder β}
    {bytes : Bytes} {b : β} (small : n < 2 ^ 32) (present : n ≤ bytes.length)
    (h : Settles (f n) bytes b) :
    Settles (count what limit >>= f) (Leb128.unsigned n ++ bytes) b := by
  by_cases bounded : n ≤ limit.toNat
  · rcases h with reads | refuses
    · exact .inl (reads_countBind (reads_length bounded) bounded present reads)
    · refine .inr fun start rest id => ?_
      have enough : n ≤ (bytes ++ rest).length := by
        rw [List.length_append]
        omega
      rw [List.append_assoc, bind_ok (count_eq_ok (reads_length bounded) bounded enough start id)]
      exact refuses _ rest id
  · exact .inr ((refuses_count what (Nat.lt_of_not_le bounded) small).append bytes).bind

theorem settles_countedItems {what : String} {limit : UInt32} {item : Decoder α} {items : List α}
    {contents : List Bytes} (small : contents.flatten.length < 2 ^ 32) (nonempty : [] ∉ contents)
    (each : List.Forall₂ (fun a bytes => Settles item bytes a) items contents) :
    Settles (counted what limit item)
      (u32.encode (UInt32.ofNat items.length) ++ contents.flatten) items := by
  have present := length_le_length_flatten nonempty
  rw [← each.length_eq] at present
  rw [encode_length (by omega)]
  exact settles_countBind (by omega) present (Settles.list each)

theorem length_le_length_encodeList {encode : α → Bytes} {items : List α}
    (nonempty : ∀ a ∈ items, encode a ≠ []) : items.length ≤ (encodeList encode items).length := by
  have each : [] ∉ items.map encode := by simpa using nonempty
  have present := length_le_length_flatten each
  rw [List.length_map] at present
  rw [encodeList, List.flatMap_def, List.length_append]
  omega

theorem settles_counted {what : String} {limit : UInt32} {item : Decoder α} {encode : α → Bytes}
    {items : List α} (size : (encodeList encode items).length < 2 ^ 32)
    (nonempty : ∀ a ∈ items, encode a ≠ []) (each : ∀ a ∈ items, Settles item (encode a) a) :
    Settles (counted what limit item) (encodeList encode items) items := by
  rw [encodeList, List.flatMap_def] at size ⊢
  rw [List.length_append] at size
  refine settles_countedItems (by omega) ?_ ?_
  · simpa using nonempty
  · rw [List.forall₂_map_right_iff, List.forall₂_same]
    exact each

theorem settles_funcType {type : FuncType} (size : (funcType.encode type).length < 2 ^ 32) :
    Settles funcType.decode (funcType.encode type) type := by
  have length : (funcType.encode type).length = _ := List.length_append
  rw [List.length_cons] at length
  have settles : ∀ types : List ValType, (encodeList valType.encode types).length < 2 ^ 32 →
      Settles (counted "value types" Bound.valueTypes valType.decode)
        (encodeList valType.encode types) types := by
    intro types small
    exact settles_counted small (by simp [valType]) fun type _ => (reads_valType type).settles
  refine (Reads.expect funcTypeTag).settles.bind ?_
  exact (settles type.params (by omega)).bind (settles type.results (by omega)).bindPure

end Codec

/-! ## Bodies -/

/-- `bytes` are refused as a body inside `depth` structured instructions. -/
def RefusesBody (depth : Nat) (bytes : Bytes) : Prop :=
  ∀ (fuel : Nat) (inThenArm : Bool), bytes.length < fuel →
    Refuses (Decoder.body fuel depth inThenArm) bytes

/-- `bytes` are refused as a body that needs one more structured instruction. -/
def RefusesNested (depth : Nat) (bytes : Bytes) : Prop :=
  ∀ (fuel : Nat) (inThenArm : Bool), bytes.length < fuel →
    Refuses (nested depth (Decoder.body fuel (depth + 1) inThenArm)) bytes

/-- `bytes` are refused as the immediate `i`, if its shape is asked for. -/
def RefusesImmediate (depth : Nat) (bytes : Bytes) (i : Immediate) : Prop :=
  ∀ (shape : Shape) (fuel : Nat), shape.fits i = true → bytes.length ≤ fuel →
    Refuses (immediate (fun inThenArm => nested depth (Decoder.body fuel (depth + 1) inThenArm))
      shape) bytes

def SettlesBody (depth : Nat) (bytes : Bytes) (code : List Instr) : Prop :=
  ReadsBody depth bytes code ∨ RefusesBody depth bytes

def SettlesImmediate (depth : Nat) (bytes : Bytes) (i : Immediate) : Prop :=
  ReadsImmediate depth bytes i ∨ RefusesImmediate depth bytes i

section Bodies

variable {depth : Nat} {bytes : Bytes} {code : List Instr} {type : BlockType}

/-- The opcode of an instruction is read, whatever is refused behind it. -/
theorem RefusesBody.behindOpcode {d : InstrDef} (member : d ∈ InstrSet.standard.defs)
    (h : ∀ (fuel : Nat) (inThenArm : Bool), bytes.length < fuel → Refuses (do
      let operand ← immediate
        (fun inThenArm => nested depth (Decoder.body fuel (depth + 1) inThenArm)) d.shape
      let (rest, terminator) ← Decoder.body fuel depth inThenArm
      return (.mk d.name operand :: rest, terminator)) bytes) :
    RefusesBody depth (d.opcode.encode ++ bytes) := by
  intro fuel inThenArm enough
  obtain ⟨b, opcode, opened, notEnd, notElse, known⟩ := reads_definition member
  rw [opened] at enough ⊢
  simp only [List.length_append, List.length_cons] at enough
  obtain ⟨fuel, rfl⟩ : ∃ less, fuel = less + 1 := ⟨fuel - 1, by omega⟩
  refine Refuses.atOffset fun start => Refuses.byteBind ?_
  rw [if_neg notEnd, if_neg notElse]
  exact (known start).refuses (h fuel inThenArm (by omega))

theorem SettlesBody.cons {d : InstrDef} {i : Immediate} {operand tail : Bytes}
    {rest : List Instr} (member : d ∈ InstrSet.standard.defs) (fits : d.shape.fits i = true)
    (first : SettlesImmediate depth operand i) (others : SettlesBody depth tail rest) :
    SettlesBody depth (d.opcode.encode ++ operand ++ tail) (.mk d.name i :: rest) := by
  rcases first with reads | refuses
  · rcases others with readsRest | refusesRest
    · exact .inl (ReadsBody.cons (reads_definition member) fits reads readsRest)
    · rw [SettlesBody, List.append_assoc]
      refine .inr (RefusesBody.behindOpcode member fun fuel inThenArm enough => ?_)
      rw [List.length_append] at enough
      exact (reads d.shape fuel fits (by omega)).refuses
        (refusesRest fuel inThenArm (by omega)).bind
  · rw [SettlesBody, List.append_assoc]
    refine .inr (RefusesBody.behindOpcode member fun fuel inThenArm enough => ?_)
    rw [List.length_append] at enough
    exact ((refuses d.shape fuel fits (by omega)).append tail).bind

/-- A body behind one more structured instruction is read if there is room for
one more. -/
theorem SettlesBody.nested (h : SettlesBody (depth + 1) bytes code) :
    (depth < Bound.nesting.toNat ∧ ReadsBody (depth + 1) bytes code) ∨
      RefusesNested depth bytes := by
  by_cases room : depth < Bound.nesting.toNat
  · refine h.imp (fun reads => ⟨room, reads⟩) fun refuses fuel inThenArm enough => ?_
    rw [Decoder.nested, if_neg (Nat.not_le.mpr room)]
    exact refuses fuel inThenArm enough
  · refine .inr fun fuel inThenArm _ => ?_
    rw [Decoder.nested, if_pos (Nat.not_lt.mp room)]
    exact Refuses.fail (by omega) bytes

/-! ## Immediates -/

theorem settles_block (h : SettlesBody (depth + 1) bytes code) :
    SettlesImmediate depth (Codec.blockType.encode type ++ bytes ++ [endByte])
      (.block type code) := by
  rcases h.nested with ⟨room, reads⟩ | refuses
  · exact .inl (reads_block (Codec.reads_blockType type) reads room)
  · refine .inr fun shape fuel fits enough => ?_
    obtain rfl := Shape.fits_block.mp fits
    simp only [List.length_append, List.length_cons, List.length_nil] at enough
    rw [List.append_assoc]
    exact (Codec.reads_blockType type).refuses
      ((refuses fuel false (by omega)).append [endByte]).bind

/-- The arms of a conditional are refused with the first one. -/
theorem RefusesNested.firstArm (h : RefusesNested depth bytes) {fuel : Nat}
    (enough : bytes.length < fuel) (type : BlockType) (more : Bytes) :
    Refuses (immediate (fun inThenArm => Decoder.nested depth
      (Decoder.body fuel (depth + 1) inThenArm)) .conditional)
      (Codec.blockType.encode type ++ (bytes ++ more)) :=
  (Codec.reads_blockType type).refuses ((h fuel true enough).append more).bind

theorem settles_ifThen (h : SettlesBody (depth + 1) bytes code) :
    SettlesImmediate depth (Codec.blockType.encode type ++ bytes ++ [endByte])
      (.ifThen type code) := by
  rcases h.nested with ⟨room, reads⟩ | refuses
  · exact .inl (reads_ifThen (Codec.reads_blockType type) reads room)
  · refine .inr fun shape fuel fits enough => ?_
    obtain rfl := Shape.fits_ifThen.mp fits
    simp only [List.length_append, List.length_cons, List.length_nil] at enough
    rw [List.append_assoc]
    exact refuses.firstArm (by omega) type [endByte]

theorem settles_ifElse {elseBytes : Bytes} {elseCode : List Instr}
    (h : SettlesBody (depth + 1) bytes code) (hElse : SettlesBody (depth + 1) elseBytes elseCode) :
    SettlesImmediate depth (Codec.blockType.encode type ++ bytes ++ [elseByte] ++ elseBytes ++
      [endByte]) (.ifElse type code elseCode) := by
  have regroup : Codec.blockType.encode type ++ bytes ++ [elseByte] ++ elseBytes ++ [endByte] =
      Codec.blockType.encode type ++ ((bytes ++ [elseByte]) ++ (elseBytes ++ [endByte])) := by
    simp
  rcases h.nested with ⟨room, reads⟩ | refuses
  · rcases hElse.nested with ⟨-, readsElse⟩ | refusesElse
    · exact .inl (reads_ifElse (Codec.reads_blockType type) reads readsElse room)
    · refine .inr fun shape fuel fits enough => ?_
      obtain rfl := Shape.fits_ifElse.mp fits
      simp only [List.length_append, List.length_cons, List.length_nil] at enough
      rw [regroup]
      refine (Codec.reads_blockType type).refuses ?_
      refine (reads.nested room .elseArm (by omega) (by simp)).refuses ?_
      exact ((refusesElse fuel false (by omega)).append [endByte]).bind
  · refine .inr fun shape fuel fits enough => ?_
    obtain rfl := Shape.fits_ifElse.mp fits
    simp only [List.length_append, List.length_cons, List.length_nil] at enough
    rw [regroup, List.append_assoc bytes]
    exact refuses.firstArm (by omega) type _

/-- Immediates without bodies are read if they are small enough. -/
theorem settles_leaf {i : Immediate} (rep : i.Representable depth)
    (plain : ∀ shape : Shape, shape.fits i = true → shape.isStructured = false)
    (encoded : i.encode = .ok bytes) : SettlesImmediate depth bytes i := by
  obtain ⟨_, same, reads⟩ := reads_leaf rep plain
  cases same.symm.trans encoded
  exact .inl reads

/-- A branch table with more labels than the decoder takes is refused. -/
theorem settles_brTable {labels : List UInt32} {fallback : UInt32}
    (encoded : (Immediate.brTable labels fallback).encode = .ok bytes)
    (size : bytes.length < 2 ^ 32) :
    SettlesImmediate depth bytes (.brTable labels fallback) := by
  by_cases bounded : labels.length ≤ Bound.branchLabels.toNat
  · exact settles_leaf bounded (by rintro ⟨⟩ fits <;> first | rfl | cases fits) encoded
  · cases encoded
    have present : labels.length ≤ (Codec.encodeList Codec.u32.encode labels).length :=
      Codec.length_le_length_encodeList fun label _ => Leb128.unsigned_ne_nil label.toNat
    rw [List.length_append] at size
    have beyond := Codec.refuses_count "br_table labels" (Nat.lt_of_not_le bounded) (by omega)
    refine .inr fun shape fuel fits _ => ?_
    obtain rfl := Shape.fits_brTable.mp fits
    rw [Codec.encodeList, Codec.encode_length (by omega), List.append_assoc]
    exact (beyond.append _).bind.bind

end Bodies

/-! ## Trees -/

mutual

/-- A well-formed immediate is read back from its binary form, or refused. -/
theorem Immediate.settles_encode : (i : Immediate) → (depth : Nat) → i.WellFormed →
    (bytes : Bytes) → i.encode = .ok bytes → bytes.length < 2 ^ 32 →
    SettlesImmediate depth bytes i
  | .block type code, depth, formed, bytes, encoded, size => by
      obtain ⟨inner, made, same⟩ := Except.bind_eq_ok.mp encoded
      cases same
      simp only [List.length_append] at size
      exact settles_block (Instr.settles_encodeAll code (depth + 1) formed inner made (by omega))
  | .ifThen type code, depth, formed, bytes, encoded, size => by
      obtain ⟨inner, made, same⟩ := Except.bind_eq_ok.mp encoded
      cases same
      simp only [List.length_append] at size
      exact settles_ifThen (Instr.settles_encodeAll code (depth + 1) formed inner made (by omega))
  | .ifElse type code elseCode, depth, ⟨formed, formedElse⟩, bytes, encoded, size => by
      obtain ⟨inner, made, later⟩ := Except.bind_eq_ok.mp encoded
      obtain ⟨innerElse, madeElse, same⟩ := Except.bind_eq_ok.mp later
      cases same
      simp only [List.length_append] at size
      exact settles_ifElse
        (Instr.settles_encodeAll code (depth + 1) formed inner made (by omega))
        (Instr.settles_encodeAll elseCode (depth + 1) formedElse innerElse madeElse (by omega))
  | .brTable _ _, _, _, _, encoded, size => settles_brTable encoded size
  | .valTypes _, _, formed, _, encoded, _ | .refType _, _, formed, _, encoded, _ =>
      settles_leaf formed (by rintro ⟨⟩ fits <;> first | rfl | cases fits) encoded
  | .none, _, _, _, encoded, _ | .i32 _, _, _, _, encoded, _ | .i64 _, _, _, _, encoded, _
  | .f32 _, _, _, _, encoded, _ | .f64 _, _, _, _, encoded, _ | .v128 _, _, _, _, encoded, _
  | .index _, _, _, _, encoded, _ | .indexPair _ _, _, _, _, encoded, _
  | .memArg _, _, _, _, encoded, _ | .lane _, _, _, _, encoded, _
  | .shuffle _, _, _, _, encoded, _ | .callIndirect _ _, _, _, _, encoded, _
  | .reserved, _, _, _, encoded, _ =>
      settles_leaf trivial (by rintro ⟨⟩ fits <;> first | rfl | cases fits) encoded

/-- Well-formed code is read back from its binary form, or refused. -/
theorem Instr.settles_encodeAll : (code : List Instr) → (depth : Nat) → Instr.AllWellFormed code →
    (bytes : Bytes) → Instr.encodeAll code = .ok bytes → bytes.length < 2 ^ 32 →
    SettlesBody depth bytes code
  | [], depth, _, _, encoded, _ => by
      cases encoded
      exact .inl (ReadsBody.nil depth)
  | .mk name i :: rest, depth, ⟨⟨⟨d, found, fits⟩, formed⟩, others⟩, bytes, encoded, size => by
      obtain ⟨member, rfl⟩ := InstrSet.mem_of_named found
      simp only [Instr.encodeAll, Instr.encode, found, Except.ok_bind] at encoded
      obtain ⟨head, madeHead, later⟩ := Except.bind_eq_ok.mp encoded
      obtain ⟨operand, made, same⟩ := Except.bind_eq_ok.mp madeHead
      obtain ⟨tail, madeTail, same'⟩ := Except.bind_eq_ok.mp later
      cases same
      cases same'
      simp only [List.length_append] at size
      exact SettlesBody.cons member fits
        (Immediate.settles_encode i depth formed operand made (by omega))
        (Instr.settles_encodeAll rest depth others tail madeTail (by omega))

end

/-- Well-formed expressions are read back in every context, or refused in every
context. -/
theorem settles_expr {code : List Instr} {bytes : Bytes} (formed : Instr.AllWellFormed code)
    (encoded : encodeExpr code = .ok bytes) (size : bytes.length < 2 ^ 32) :
    Settles expr bytes code := by
  obtain ⟨inner, made, same⟩ := Except.bind_eq_ok.mp encoded
  cases same
  rw [List.length_append] at size
  rcases Instr.settles_encodeAll code 0 formed inner made (by omega) with reads | refuses
  · exact .inl reads.expr
  · refine .inr (Refuses.atRemaining fun left enough => ?_)
    rw [List.length_append] at enough
    exact ((refuses (left + 1) false (by omega)).append [endByte]).bind

end Wasm
