import Wasm.Proofs.Binary.Code
import Wasm.Proofs.Binary.Exactly

/-!
# Parse trees of code

The grammar of code stands here by itself. A parse tree says how each opcode,
number and type of an expression is spelt and where its bodies end. It has the
bytes that it derives and the code that it stands for.

The decoder accepts exactly this grammar. Every tree is read back as its code,
whatever follows its bytes, and whatever is read has a tree. No input starts
with the bytes of two trees, so the tree of what was read is the only one. The
first byte of what follows tells which rule to use: no opcode starts with a
byte that closes a body.
-/

namespace Wasm

open Decoder

/-! ## Spellings -/

/-- The spellings of an opcode: a code in a space may be spelt in any way. -/
inductive Opcode.Spells : Bytes → Opcode → Prop
  | single (byte : UInt8) : Spells [byte] (.single byte)
  | extended {space : UInt8} {code : UInt32} {bytes : Bytes}
      (number : Leb128.IsUnsigned 32 bytes code.toNat) :
      Spells (space :: bytes) (.extended space code)

/-- The spellings of an immediate without bodies. -/
inductive Immediate.Spells : Bytes → Immediate → Prop
  | none : Spells [] .none
  | i32 {bytes : Bytes} {value : Int32} (number : Leb128.IsSigned 32 bytes value.toInt) :
      Spells bytes (.i32 value)
  | i64 {bytes : Bytes} {value : Int64} (number : Leb128.IsSigned 64 bytes value.toInt) :
      Spells bytes (.i64 value)
  | f32 (value : Binary32) : Spells (Bytes.littleEndian 4 value.bits.toNat) (.f32 value)
  | f64 (value : Binary64) : Spells (Bytes.littleEndian 8 value.bits.toNat) (.f64 value)
  | v128 (value : V128) : Spells value.toList (.v128 value)
  | shuffle (lanes : V128) : Spells lanes.toList (.shuffle lanes)
  | index {bytes : Bytes} {i : UInt32} (number : Leb128.IsUnsigned 32 bytes i.toNat) :
      Spells bytes (.index i)
  | indexPair {front back : Bytes} {i j : UInt32} (first : Leb128.IsUnsigned 32 front i.toNat)
      (second : Leb128.IsUnsigned 32 back j.toNat) : Spells (front ++ back) (.indexPair i j)
  | memArg {front back : Bytes} {arg : MemArg} (align : Leb128.IsUnsigned 32 front arg.align.toNat)
      (offset : Leb128.IsUnsigned 32 back arg.offset.toNat) : Spells (front ++ back) (.memArg arg)
  | lane (l : UInt8) : Spells [l] (.lane l)
  | brTable {front back : Bytes} {labels : List UInt32} {fallback : UInt32}
      (counted : Codec.IsCounted Bound.branchLabels
        (fun bytes label => Leb128.IsUnsigned 32 bytes label.toNat) front labels)
      (last : Leb128.IsUnsigned 32 back fallback.toNat) :
      Spells (front ++ back) (.brTable labels fallback)
  | callIndirect {front back : Bytes} {type table : UInt32}
      (first : Leb128.IsUnsigned 32 front type.toNat)
      (second : Leb128.IsUnsigned 32 back table.toNat) :
      Spells (front ++ back) (.callIndirect type table)
  | valTypes {bytes : Bytes} {types : List ValType}
      (counted : Codec.IsCounted Bound.selectTypes
        (fun bytes type => bytes = [type.toByte]) bytes types) : Spells bytes (.valTypes types)
  | refType {type : ValType} (isRef : type.isRef = true) : Spells [type.toByte] (.refType type)
  | reserved : Spells [0x00] .reserved

/-! ## Trees -/

mutual

/-- The derivations of an immediate of a shape inside `depth` structured
instructions. -/
inductive OperandTree : (depth : Nat) → Shape → Type
  | plain {depth : Nat} {shape : Shape} (bytes : Bytes) (i : Immediate)
      (fits : shape.fits i = true) (spells : Immediate.Spells bytes i) : OperandTree depth shape
  | block {depth : Nat} (front : Bytes) (type : BlockType) (spells : BlockType.Spells front type)
      (room : depth < Bound.nesting.toNat) (body : CodeTree (depth + 1)) :
      OperandTree depth .block
  | ifThen {depth : Nat} (front : Bytes) (type : BlockType) (spells : BlockType.Spells front type)
      (room : depth < Bound.nesting.toNat) (thenBody : CodeTree (depth + 1)) :
      OperandTree depth .conditional
  | ifElse {depth : Nat} (front : Bytes) (type : BlockType) (spells : BlockType.Spells front type)
      (room : depth < Bound.nesting.toNat) (thenBody elseBody : CodeTree (depth + 1)) :
      OperandTree depth .conditional

/-- The derivations of a sequence of instructions inside `depth` structured
ones. -/
inductive CodeTree : (depth : Nat) → Type
  | nil {depth : Nat} : CodeTree depth
  | cons {depth : Nat} (d : InstrDef) (known : d ∈ InstrSet.standard.defs) (opcode : Bytes)
      (spells : Opcode.Spells opcode d.opcode) (operand : OperandTree depth d.shape)
      (rest : CodeTree depth) : CodeTree depth

end

variable {depth : Nat} {shape : Shape}

mutual

/-- The bytes that a tree derives. -/
def OperandTree.bytes {depth : Nat} {shape : Shape} : OperandTree depth shape → Bytes
  | .plain bytes _ _ _ => bytes
  | .block front _ _ _ body => front ++ body.bytes ++ [endByte]
  | .ifThen front _ _ _ thenBody => front ++ thenBody.bytes ++ [endByte]
  | .ifElse front _ _ _ thenBody elseBody =>
      front ++ thenBody.bytes ++ [elseByte] ++ elseBody.bytes ++ [endByte]

/-- The bytes that a tree derives, without the one that closes them. -/
def CodeTree.bytes {depth : Nat} : CodeTree depth → Bytes
  | .nil => []
  | .cons _ _ opcode _ operand rest => opcode ++ operand.bytes ++ rest.bytes

end

mutual

/-- The immediate that a tree stands for. -/
def OperandTree.immediate {depth : Nat} {shape : Shape} : OperandTree depth shape → Immediate
  | .plain _ i _ _ => i
  | .block _ type _ _ body => .block type body.code
  | .ifThen _ type _ _ thenBody => .ifThen type thenBody.code
  | .ifElse _ type _ _ thenBody elseBody => .ifElse type thenBody.code elseBody.code

/-- The code that a tree stands for. -/
def CodeTree.code {depth : Nat} : CodeTree depth → List Instr
  | .nil => []
  | .cons d _ _ _ operand rest => .mk d.name operand.immediate :: rest.code

end

/-! ## Every tree is read -/

theorem InstrDef.opens_of_spells {d : InstrDef} {bytes : Bytes}
    (known : d ∈ InstrSet.standard.defs) (spells : Opcode.Spells bytes d.opcode) :
    d.Opens bytes := by
  generalize opcode : d.opcode = o at spells
  cases spells with
  | single byte => exact opens_single known opcode
  | extended number => exact opens_extended known opcode (Codec.exactly_u32.reads number)

theorem exactly_labels : ReadsExactly
    (Codec.counted "br_table labels" Bound.branchLabels Codec.u32.decode)
    (Codec.IsCounted Bound.branchLabels fun bytes label =>
      Leb128.IsUnsigned 32 bytes label.toNat) :=
  Codec.exactly_counted Codec.exactly_u32
    (fun number => List.length_pos_iff.mp number.spells.length_pos) _ _

theorem exactly_selectTypes : ReadsExactly
    (Codec.counted "select types" Bound.selectTypes Codec.valType.decode)
    (Codec.IsCounted Bound.selectTypes fun bytes type => bytes = [type.toByte]) :=
  Codec.exactly_counted Codec.exactly_valType (fun spelt => by simp [spelt]) _ _

/-- An immediate without bodies is read by any shape that it fits. -/
theorem Immediate.Spells.reads {bytes : Bytes} {i : Immediate} (h : Spells bytes i)
    (body : Bool → Decoder (List Instr × Terminator)) (shape : Shape)
    (fits : shape.fits i = true) : Reads (Decoder.immediate body shape) bytes i := by
  have u32 : ∀ {bytes : Bytes} {i : UInt32}, Leb128.IsUnsigned 32 bytes i.toNat →
      Reads Codec.u32.decode bytes i := Codec.exactly_u32.reads
  cases h <;> cases shape <;> simp only [Shape.fits, Bool.false_eq_true] at fits
  case none => exact Reads.pure _
  case i32 number => exact (Codec.exactly_i32.reads number).bindPure
  case i64 number => exact (Codec.exactly_i64.reads number).bindPure
  case f32 value => exact (Codec.reads_f32 value).bindPure
  case f64 value => exact (Codec.reads_f64 value).bindPure
  case v128 value => exact (Codec.reads_v128 value).bindPure
  case shuffle lanes => exact (Codec.reads_v128 lanes).bindPure
  case index number => exact (u32 number).bindPure
  case indexPair first second => exact (u32 first).bind (u32 second).bindPure
  case memArg align offset _ =>
    exact Reads.bindPure ((u32 align).bind (u32 offset).bindPure)
  case lane l _ => exact (Reads.byte l).bindPure
  case brTable counted last => exact (exactly_labels.reads counted).bind (u32 last).bindPure
  case callIndirect first second => exact (u32 first).bind (u32 second).bindPure
  case valTypes counted => exact (exactly_selectTypes.reads counted).bindPure
  case refType isRef => exact (Codec.reads_refType isRef).bindPure
  case reserved => exact (Reads.expect 0x00).bindPure

theorem OperandTree.fits (D : OperandTree depth shape) : shape.fits D.immediate = true := by
  cases D with
  | plain _ _ fits _ => exact fits
  | block => rfl
  | ifThen => rfl
  | ifElse => rfl

mutual

theorem OperandTree.reads {depth : Nat} {shape : Shape} : (D : OperandTree depth shape) →
    ReadsImmediate depth D.bytes D.immediate
  | .plain _ _ _ spells => ReadsImmediate.leaf spells.reads
  | .block _ _ spells room body =>
      reads_block (Codec.exactly_blockType.reads spells) body.reads room
  | .ifThen _ _ spells room thenBody =>
      reads_ifThen (Codec.exactly_blockType.reads spells) thenBody.reads room
  | .ifElse _ _ spells room thenBody elseBody =>
      reads_ifElse (Codec.exactly_blockType.reads spells) thenBody.reads elseBody.reads room

/-- A tree is read as its code, up to the byte that closes it. -/
theorem CodeTree.reads {depth : Nat} : (D : CodeTree depth) → ReadsBody depth D.bytes D.code
  | .nil => ReadsBody.nil depth
  | .cons _ known _ spells operand rest =>
      ReadsBody.cons (InstrDef.opens_of_spells known spells) operand.fits operand.reads rest.reads

end

/-! ## What is read has a tree -/

theorem readsOnly_definition (start : Nat) (b : UInt8) :
    ReadsOnly (definition start b) fun tail d =>
      d ∈ InstrSet.standard.defs ∧ Opcode.Spells (b :: tail) d.opcode := by
  rw [definition]
  split
  · exact ReadsOnly.failAt _ _
  · rename_i d found
    obtain ⟨known, opcode⟩ := InstrSet.mem_of_atByte found
    exact ReadsOnly.pure ⟨known, opcode ▸ .single b⟩
  · rename_i space opens
    obtain rfl := InstrSet.eq_of_atByte opens
    refine Codec.exactly_u32.only.bind fun bytes code number => ?_
    split
    · exact ReadsOnly.failAt _ _
    · rename_i d found
      obtain ⟨known, opcode⟩ := InstrSet.mem_of_atCode found
      refine ReadsOnly.pure ⟨known, ?_⟩
      rw [opcode, List.append_nil]
      exact .extended number

theorem readsOnly_nested {α : Type} {inner : Decoder α} {P : Bytes → α → Prop}
    (h : ReadsOnly inner P) :
    ReadsOnly (nested depth inner) fun bytes a => depth < Bound.nesting.toNat ∧ P bytes a :=
  ReadsOnly.ite (fun _ => .of_fails nofun) fun room =>
    h.mono fun _ _ spells => ⟨Nat.not_le.mp room, spells⟩

/-- An immediate without bodies is spelt as its shape asks for. -/
theorem readsOnly_plain (body : Bool → Decoder (List Instr × Terminator))
    (plain : shape.isStructured = false) : ReadsOnly (Decoder.immediate body shape) fun bytes i =>
      shape.fits i = true ∧ Immediate.Spells bytes i := by
  have u32 := Codec.exactly_u32.only
  cases shape with
  | none => exact ReadsOnly.pure ⟨rfl, .none⟩
  | i32 => exact Codec.exactly_i32.only.bindPure fun _ _ number => ⟨rfl, .i32 number⟩
  | i64 => exact Codec.exactly_i64.only.bindPure fun _ _ number => ⟨rfl, .i64 number⟩
  | f32 => exact Codec.exactly_f32.only.bindPure fun _ value spelt => ⟨rfl, spelt ▸ .f32 value⟩
  | f64 => exact Codec.exactly_f64.only.bindPure fun _ value spelt => ⟨rfl, spelt ▸ .f64 value⟩
  | v128 => exact Codec.exactly_v128.only.bindPure fun _ value spelt => ⟨rfl, spelt ▸ .v128 value⟩
  | shuffle =>
      exact Codec.exactly_v128.only.bindPure fun _ lanes spelt => ⟨rfl, spelt ▸ .shuffle lanes⟩
  | index => exact u32.bindPure fun _ _ number => ⟨rfl, .index number⟩
  | indexPair =>
      exact u32.bind fun _ _ first => u32.bindPure fun _ _ second => ⟨rfl, .indexPair first second⟩
  | callIndirect =>
      exact u32.bind fun _ _ first => u32.bindPure fun _ _ second =>
        ⟨rfl, .callIndirect first second⟩
  | memArg natural =>
      have access : ReadsOnly Codec.memArg.decode fun bytes arg =>
          Immediate.Spells bytes (.memArg arg) :=
        u32.bind fun _ _ align => u32.bindPure fun _ _ offset => .memArg align offset
      exact access.bindPure fun _ _ spells => ⟨rfl, spells⟩
  | lane lanes => exact readsOnly_byte.bindPure fun _ l spelt => ⟨rfl, spelt ▸ .lane l⟩
  | brTable =>
      exact exactly_labels.only.bind fun _ _ counted => u32.bindPure fun _ _ last =>
        ⟨rfl, .brTable counted last⟩
  | selectTypes =>
      exact exactly_selectTypes.only.bindPure fun _ _ counted => ⟨rfl, .valTypes counted⟩
  | refType =>
      exact Codec.exactly_refType.only.bindPure fun _ _ spelt =>
        ⟨rfl, spelt.1 ▸ .refType spelt.2⟩
  | reserved => exact (readsOnly_expect 0x00).bindPure fun _ _ spelt => ⟨rfl, spelt ▸ .reserved⟩
  | block => cases plain
  | conditional => cases plain

/-- `bytes` are those of a tree with the byte that closes it, which is an `else`
only where one is allowed. -/
def CodeTree.Closed (depth : Nat) (inThenArm : Bool) (bytes : Bytes)
    (r : List Instr × Terminator) : Prop :=
  (r.2 = .elseArm → inThenArm = true) ∧
    ∃ D : CodeTree depth, bytes = D.bytes ++ [r.2.byte] ∧ D.code = r.1

/-- Where no `else` is allowed, an `end` closes the body. -/
theorem Terminator.eq_endOfBody {terminator : Terminator}
    (closes : terminator = .elseArm → false = true) : terminator = .endOfBody := by
  cases terminator with
  | endOfBody => rfl
  | elseArm => cases closes rfl

theorem readsOnly_immediate {body : Bool → Decoder (List Instr × Terminator)}
    (h : ∀ inThenArm, ReadsOnly (body inThenArm) fun bytes r =>
      depth < Bound.nesting.toNat ∧ CodeTree.Closed (depth + 1) inThenArm bytes r) (shape : Shape) :
    ReadsOnly (Decoder.immediate body shape) fun bytes i =>
      ∃ D : OperandTree depth shape, bytes = D.bytes ∧ D.immediate = i := by
  cases shape with
  | block =>
      refine Codec.exactly_blockType.only.bind fun front type spells => ?_
      refine (h false).bind fun _ r inner => ReadsOnly.pure ?_
      obtain ⟨code, terminator⟩ := r
      obtain ⟨room, allowed, D, rfl, rfl⟩ := inner
      obtain rfl : terminator = .endOfBody := Terminator.eq_endOfBody allowed
      exact ⟨.block front type spells room D, by simp [OperandTree.bytes, Terminator.byte], rfl⟩
  | conditional =>
      refine Codec.exactly_blockType.only.bind fun front type spells => ?_
      refine (h true).bind fun _ r inner => ?_
      obtain ⟨code, terminator⟩ := r
      obtain ⟨room, -, D, rfl, rfl⟩ := inner
      cases terminator with
      | endOfBody =>
          refine ReadsOnly.pure ⟨.ifThen front type spells room D, ?_, rfl⟩
          simp [OperandTree.bytes, Terminator.byte]
      | elseArm =>
          refine (h false).bind fun _ r inner => ReadsOnly.pure ?_
          obtain ⟨elseCode, terminator⟩ := r
          obtain ⟨-, allowed, E, rfl, rfl⟩ := inner
          obtain rfl : terminator = .endOfBody := Terminator.eq_endOfBody allowed
          refine ⟨.ifElse front type spells room D E, ?_, rfl⟩
          simp [OperandTree.bytes, Terminator.byte]
  | _ =>
      refine (readsOnly_plain body rfl).mono fun bytes i found => ?_
      exact ⟨.plain bytes i found.1 found.2, rfl, rfl⟩

/-- The induction is on the fuel, which is the same for the bodies inside an
instruction as for the instructions behind it. -/
theorem readsOnly_body (fuel depth : Nat) (inThenArm : Bool) :
    ReadsOnly (Decoder.body fuel depth inThenArm) (CodeTree.Closed depth inThenArm) := by
  induction fuel generalizing depth inThenArm with
  | zero => exact ReadsOnly.failAtEnd
  | succ fuel ih =>
      refine ReadsOnly.atOffset fun start => readsOnly_byte.bind fun front b taken => ?_
      subst taken
      refine ReadsOnly.ite (fun closes => ?_) fun _ => ReadsOnly.ite (fun closes => ?_) fun _ => ?_
      · exact ReadsOnly.pure ⟨nofun, .nil, by rw [closes]; rfl, rfl⟩
      · refine ReadsOnly.ite (fun allowed => ?_) fun _ => ReadsOnly.failAt _ _
        exact ReadsOnly.pure ⟨fun _ => allowed, .nil, by rw [closes]; rfl, rfl⟩
      · -- Any other byte opens an instruction, and the rest of the body is behind that.
        refine (readsOnly_definition start b).bind fun tail d opens => ?_
        refine (readsOnly_immediate (fun inner => readsOnly_nested (ih (depth + 1) inner))
          d.shape).bind fun _ i operand => ?_
        obtain ⟨operand, rfl, rfl⟩ := operand
        refine (ih depth inThenArm).bind fun _ r others => ReadsOnly.pure ?_
        obtain ⟨rest, terminator⟩ := r
        obtain ⟨allowed, D, rfl, rfl⟩ := others
        exact ⟨allowed, .cons d opens.1 (b :: tail) opens.2 operand D,
          by simp [CodeTree.bytes], rfl⟩

/-! ## One tree for an input -/

theorem Terminator.byte_inj {t t' : Terminator} (same : t.byte = t'.byte) : t = t' := by
  revert same
  cases t <;> cases t' <;> decide

theorem InstrDef.Opens.unique {d d' : InstrDef} {opcode opcode' rest rest' : Bytes}
    (h : d.Opens opcode) (h' : d'.Opens opcode') (same : opcode ++ rest = opcode' ++ rest') :
    d = d' ∧ opcode = opcode' ∧ rest = rest' := by
  obtain ⟨b, tail, rfl, -, -, reads⟩ := h
  obtain ⟨b', tail', rfl, -, -, reads'⟩ := h'
  obtain ⟨rfl, behind⟩ := List.cons.inj same
  obtain ⟨rfl, rfl, rfl⟩ := (reads 0).unique (reads' 0) behind
  exact ⟨rfl, rfl, rfl⟩

/-- No opcode starts with the byte that closes a body. -/
theorem InstrDef.Opens.ne_close {d : InstrDef} {opcode rest rest' : Bytes} {t : Terminator}
    (h : d.Opens opcode) : opcode ++ rest ≠ t.byte :: rest' := by
  obtain ⟨b, tail, rfl, notEnd, notElse, -⟩ := h
  intro same
  cases t with
  | endOfBody => exact notEnd (List.cons.inj same).1
  | elseArm => exact notElse (List.cons.inj same).1

/-- A structured instruction has bodies. -/
theorem Immediate.Spells.not_isStructured {bytes : Bytes} {i : Immediate} (h : Spells bytes i)
    (fits : shape.fits i = true) : shape.isStructured = false := by
  cases h <;> cases shape <;> first | rfl | cases fits

theorem BlockType.Spells.unique {type type' : BlockType} {bytes bytes' rest rest' : Bytes}
    (h : Spells bytes type) (h' : Spells bytes' type') (same : bytes ++ rest = bytes' ++ rest') :
    type = type' ∧ bytes = bytes' ∧ rest = rest' :=
  (Codec.exactly_blockType.reads h).unique (Codec.exactly_blockType.reads h') same

mutual

/-- The induction is on the first tree. What is left of both inputs is part of
the statement, since a body is followed by other bytes in each of them. -/
theorem OperandTree.unique {depth : Nat} {shape : Shape} : (D D' : OperandTree depth shape) →
    {rest rest' : Bytes} → D.bytes ++ rest = D'.bytes ++ rest' → D = D' ∧ rest = rest'
  | .plain bytes i fits spells, D', rest, rest', same => by
      cases D' with
      | plain bytes' i' fits' spells' =>
          have reads := spells.reads (fun _ => failAtEnd) shape fits
          have reads' := spells'.reads (fun _ => failAtEnd) shape fits'
          obtain ⟨rfl, rfl, rfl⟩ := reads.unique reads' same
          exact ⟨rfl, rfl⟩
      | block => cases spells.not_isStructured fits
      | ifThen => cases spells.not_isStructured fits
      | ifElse => cases spells.not_isStructured fits
  | .block front type spells room body, D', rest, rest', same => by
      cases D' with
      | plain _ _ fits' spells' => cases spells'.not_isStructured fits'
      | block front' type' spells' room' body' =>
          simp only [OperandTree.bytes, List.append_assoc] at same
          obtain ⟨rfl, rfl, inner⟩ := spells.unique spells' same
          obtain ⟨rfl, -, rfl⟩ := body.unique body' .endOfBody .endOfBody inner
          exact ⟨rfl, rfl⟩
  | .ifThen front type spells room thenBody, D', rest, rest', same => by
      cases D' with
      | plain _ _ fits' spells' => cases spells'.not_isStructured fits'
      | ifThen front' type' spells' room' thenBody' =>
          simp only [OperandTree.bytes, List.append_assoc] at same
          obtain ⟨rfl, rfl, inner⟩ := spells.unique spells' same
          obtain ⟨rfl, -, rfl⟩ := thenBody.unique thenBody' .endOfBody .endOfBody inner
          exact ⟨rfl, rfl⟩
      | ifElse front' type' spells' room' thenBody' elseBody' =>
          simp only [OperandTree.bytes, List.append_assoc] at same
          obtain ⟨rfl, rfl, inner⟩ := spells.unique spells' same
          -- One body is closed by `end` and the other one by `else`.
          obtain ⟨-, closes, -⟩ := thenBody.unique thenBody' .endOfBody .elseArm inner
          cases closes
  | .ifElse front type spells room thenBody elseBody, D', rest, rest', same => by
      cases D' with
      | plain _ _ fits' spells' => cases spells'.not_isStructured fits'
      | ifThen front' type' spells' room' thenBody' =>
          simp only [OperandTree.bytes, List.append_assoc] at same
          obtain ⟨rfl, rfl, inner⟩ := spells.unique spells' same
          obtain ⟨-, closes, -⟩ := thenBody.unique thenBody' .elseArm .endOfBody inner
          cases closes
      | ifElse front' type' spells' room' thenBody' elseBody' =>
          simp only [OperandTree.bytes, List.append_assoc] at same
          obtain ⟨rfl, rfl, inner⟩ := spells.unique spells' same
          obtain ⟨rfl, -, second⟩ := thenBody.unique thenBody' .elseArm .elseArm inner
          obtain ⟨rfl, -, rfl⟩ := elseBody.unique elseBody' .endOfBody .endOfBody second
          exact ⟨rfl, rfl⟩

/-- One input does not start with the bytes of two trees, each of them closed. -/
theorem CodeTree.unique {depth : Nat} : (D D' : CodeTree depth) → (t t' : Terminator) →
    {rest rest' : Bytes} → D.bytes ++ t.byte :: rest = D'.bytes ++ t'.byte :: rest' →
    D = D' ∧ t = t' ∧ rest = rest'
  | .nil, D', t, t', rest, rest', same => by
      cases D' with
      | nil =>
          obtain ⟨closes, rfl⟩ := List.cons.inj same
          exact ⟨rfl, Terminator.byte_inj closes, rfl⟩
      | cons d known opcode spells operand others =>
          simp only [CodeTree.bytes, List.append_assoc, List.nil_append] at same
          exact absurd same.symm (InstrDef.opens_of_spells known spells).ne_close
  | .cons d known opcode spells operand others, D', t, t', rest, rest', same => by
      have opens := InstrDef.opens_of_spells known spells
      cases D' with
      | nil =>
          simp only [CodeTree.bytes, List.append_assoc, List.nil_append] at same
          exact absurd same opens.ne_close
      | cons d' known' opcode' spells' operand' others' =>
          simp only [CodeTree.bytes, List.append_assoc] at same
          have opens' := InstrDef.opens_of_spells known' spells'
          obtain ⟨rfl, rfl, behind⟩ := opens.unique opens' same
          obtain ⟨rfl, later⟩ := operand.unique operand' behind
          obtain ⟨rfl, rfl, rfl⟩ := others.unique others' t t' later
          exact ⟨rfl, rfl, rfl⟩

end

/-! ## Expressions -/

/-- The first `n` bytes of the input are those of the tree and an `end`. -/
def CodeTree.Derives (D : CodeTree 0) (input : Bytes) (n : Nat) : Prop :=
  n ≤ input.length ∧ input.take n = D.bytes ++ [endByte]

/-- At most one tree derives a front of the input. -/
theorem CodeTree.Derives.unique {D D' : CodeTree 0} {input : Bytes} {n n' : Nat}
    (h : D.Derives input n) (h' : D'.Derives input n') : D' = D ∧ n' = n := by
  have split := (List.take_append_drop n input).symm
  have split' := (List.take_append_drop n' input).symm
  rw [h.2, List.append_assoc] at split
  rw [h'.2, List.append_assoc] at split'
  obtain ⟨rfl, -, -⟩ := D.unique D' .endOfBody .endOfBody (split.symm.trans split')
  have length := congrArg List.length (h.2.trans h'.2.symm)
  rw [List.length_take_of_le h.1, List.length_take_of_le h'.1] at length
  exact ⟨rfl, length.symm⟩

theorem exactly_expr : ReadsExactly Decoder.expr fun bytes code =>
    ∃ D : CodeTree 0, bytes = D.bytes ++ [endByte] ∧ D.code = code where
  reads := by
    rintro - - ⟨D, rfl, rfl⟩
    exact D.reads.expr
  only := by
    refine ReadsOnly.atRemaining fun left => (readsOnly_body _ 0 false).bindPure ?_
    rintro bytes ⟨code, terminator⟩ ⟨allowed, D, rfl, rfl⟩
    obtain rfl := Terminator.eq_endOfBody allowed
    exact ⟨D, rfl, rfl⟩

/-- The decoder accepts exactly the grammar: it returns `code` after `n` bytes
when these are derived by a tree that stands for `code`, and then no other
tree derives any front of what is left. -/
theorem Decoder.expr_ok_iff_derives (c : Cursor) (code : List Instr) (n : Nat) :
    (∃ c', expr c = .ok code c' ∧ c'.offset = c.offset + n) ↔
      ∃ D : CodeTree 0, D.Derives c.rest n ∧ D.code = code ∧
        ∀ (other : CodeTree 0) (m : Nat), other.Derives c.rest m → other = D ∧ m = n := by
  rw [exactly_expr.ok_iff]
  constructor
  · rintro ⟨enough, D, derived, same⟩
    have derives : D.Derives c.rest n := ⟨enough, derived⟩
    exact ⟨D, derives, same, fun other m derives' => derives.unique derives'⟩
  · rintro ⟨D, ⟨enough, derived⟩, same, -⟩
    exact ⟨enough, D, derived, same⟩

/-- The code of an opcode may be longer than it need be, and what follows the
`end` is left alone. -/
example : ∃ c, Decoder.expr (Cursor.ofInput [0xFC, 0x80, 0x00, 0x0B, 0x01]) =
    .ok [.mk "i32.trunc_sat_f32_s" .none] c ∧ c.offset = 4 := ⟨_, rfl, rfl⟩

end Wasm
