import Wasm.Proofs.Binary.Local
import Wasm.Proofs.Binary.Spelling
import Wasm.Proofs.Lists

/-!
# What exactly a decoder reads

`Spells bytes a` says in which ways a value can be spelt, without a word about
the decoder. `ReadsExactly d Spells` says that the decoder takes all of these
spellings, in every context, and no others. A count that is held against the
bytes that are left refuses none of them, since every item that is counted has
a byte of its own.
-/

namespace Wasm

namespace Decoder

variable {α β : Type} {P : Bytes → α → Prop} {Q : Bytes → β → Prop}

/-- What `d` takes off the front of its input is a spelling of what it returns. -/
def ReadsOnly (d : Decoder α) (Spells : Bytes → α → Prop) : Prop :=
  ∀ (c : Cursor) (a : α) (c' : Cursor), d c = .ok a c' →
    ∃ bytes, c.rest = bytes ++ c'.rest ∧ Spells bytes a

/-- `d` reads the spellings of a value and nothing else. -/
structure ReadsExactly (d : Decoder α) (Spells : Bytes → α → Prop) : Prop where
  reads : ∀ {bytes a}, Spells bytes a → Reads d bytes a
  only : ReadsOnly d Spells

/-- One input does not start with two different things that a decoder reads. -/
theorem Reads.unique {d : Decoder α} {bytes bytes' rest rest' : Bytes} {a a' : α}
    (h : Reads d bytes a) (h' : Reads d bytes' a') (same : bytes ++ rest = bytes' ++ rest') :
    a = a' ∧ bytes = bytes' ∧ rest = rest' := by
  have first := h 0 rest none
  rw [same, h' 0 rest' none] at first
  injection first with value moved
  obtain rfl : rest = rest' := (congrArg Cursor.rest moved).symm
  exact ⟨value.symm, List.append_cancel_right same, rfl⟩

/-- What is taken is a spelling, and the cursor stands behind it. -/
theorem ReadsExactly.takes {d : Decoder α} (h : ReadsExactly d P) {c c' : Cursor} {a : α}
    (result : d c = .ok a c') : ∃ bytes, c.Takes bytes c' ∧ P bytes a := by
  obtain ⟨bytes, split, spells⟩ := h.only c a c' result
  obtain ⟨-, -, takes⟩ := takes_of_reads split (h.reads spells) result
  exact ⟨bytes, takes, spells⟩

/-- A decoder returns `a` where it is spelt, and stops behind the spelling. -/
theorem ReadsExactly.takes_iff {d : Decoder α} (h : ReadsExactly d P) {c c' : Cursor} {a : α} :
    d c = .ok a c' ↔ ∃ bytes, c.Takes bytes c' ∧ P bytes a := by
  constructor
  · exact h.takes
  · rintro ⟨bytes, takes, spells⟩
    have result := h.reads spells c.offset c'.rest c.sectionId
    rw [← takes.rest, ← takes.offset] at result
    rw [result, ← takes.sectionId]

/-- A decoder returns `a` after `n` bytes exactly when these spell it. -/
theorem ReadsExactly.ok_iff {d : Decoder α} (h : ReadsExactly d P) {c : Cursor} {a : α} {n : Nat} :
    (∃ c', d c = .ok a c' ∧ c'.offset = c.offset + n) ↔
      n ≤ c.rest.length ∧ P (c.rest.take n) a := by
  constructor
  · rintro ⟨c', result, moved⟩
    obtain ⟨bytes, takes, spells⟩ := h.takes result
    obtain rfl : n = bytes.length := Nat.add_left_cancel (moved.symm.trans takes.offset)
    rw [takes.rest, List.length_append, List.take_left]
    exact ⟨Nat.le_add_right _ _, spells⟩
  · rintro ⟨enough, spells⟩
    have result := h.reads spells c.offset (c.rest.drop n) c.sectionId
    rw [List.take_append_drop, List.length_take_of_le enough] at result
    exact ⟨_, result, rfl⟩

/-! ## Sequencing -/

theorem ReadsOnly.pure {a : α} (h : P [] a) : ReadsOnly (Pure.pure a) P := by
  rintro c b c' ⟨⟩
  exact ⟨[], rfl, h⟩

theorem ReadsOnly.mono {P' : Bytes → α → Prop} {d : Decoder α} (h : ReadsOnly d P)
    (weaker : ∀ bytes a, P bytes a → P' bytes a) : ReadsOnly d P' := by
  intro c a c' result
  obtain ⟨bytes, split, spells⟩ := h c a c' result
  exact ⟨bytes, split, weaker bytes a spells⟩

theorem ReadsOnly.bind {d : Decoder α} {f : α → Decoder β} (first : ReadsOnly d P)
    (second : ∀ front a, P front a → ReadsOnly (f a) fun back b => Q (front ++ back) b) :
    ReadsOnly (d >>= f) Q := by
  intro c b c' result
  obtain ⟨a, c₁, read, result⟩ := EStateM.bind_eq_ok.mp result
  obtain ⟨front, split, spells⟩ := first c a c₁ read
  obtain ⟨back, split', spells'⟩ := second front a spells c₁ b c' result
  exact ⟨front ++ back, by rw [split, split', List.append_assoc], spells'⟩

/-- The last part of a record. -/
theorem ReadsOnly.bindPure {d : Decoder α} {f : α → β} (first : ReadsOnly d P)
    (last : ∀ bytes a, P bytes a → Q bytes (f a)) :
    ReadsOnly (d >>= fun a => Pure.pure (f a)) Q :=
  first.bind fun front a spells => ReadsOnly.pure (by
    rw [List.append_nil]
    exact last front a spells)

theorem ReadsOnly.map {d : Decoder α} {f : α → β} (first : ReadsOnly d P)
    (last : ∀ bytes a, P bytes a → Q bytes (f a)) : ReadsOnly (f <$> d) Q := by
  rw [map_eq_pure_bind]
  exact first.bindPure last

theorem ReadsOnly.atOffset {f : Nat → Decoder β} (h : ∀ start, ReadsOnly (f start) Q) :
    ReadsOnly (offset >>= f) Q := by
  intro c b c' result
  rw [offset_bind] at result
  exact h c.offset c b c' result

theorem ReadsOnly.atRemaining {f : Nat → Decoder β} (h : ∀ left, ReadsOnly (f left) Q) :
    ReadsOnly (remaining >>= f) Q := by
  intro c b c' result
  rw [remaining_bind] at result
  exact h _ c b c' result

theorem ReadsOnly.atLeast {n : Nat} {f : Bool → Decoder β} (h : ∀ there, ReadsOnly (f there) Q) :
    ReadsOnly (hasAtLeast n >>= f) Q := by
  intro c b c' result
  rw [hasAtLeast_bind] at result
  exact h _ c b c' result

/-! ## Failing and choosing -/

theorem ReadsOnly.of_fails {d : Decoder α} (fails : ∀ c a c', d c ≠ .ok a c') : ReadsOnly d P :=
  fun c a c' result => absurd result (fails c a c')

theorem ReadsOnly.failAt (offset : Nat) (fault : DecodeFault) : ReadsOnly (failAt offset fault) P :=
  .of_fails nofun

theorem ReadsOnly.failAtEnd : ReadsOnly failAtEnd P := .of_fails nofun

theorem ReadsOnly.ite {p : Prop} [Decidable p] {d d' : Decoder α} (pos : p → ReadsOnly d P)
    (neg : ¬p → ReadsOnly d' P) : ReadsOnly (if p then d else d') P := by
  by_cases h : p
  · rw [if_pos h]
    exact pos h
  · rw [if_neg h]
    exact neg h

/-! ## Bytes and lists -/

theorem readsOnly_byte : ReadsOnly byte fun bytes b => bytes = [b] :=
  fun _ b _ read => ⟨[b], (byte_eq_ok read).1, rfl⟩

theorem readsOnly_bytes (n : Nat) :
    ReadsOnly (bytes n) fun bytes value => bytes = value ∧ value.length = n := by
  intro c value c' read
  obtain ⟨length, split, -⟩ := bytes_eq_ok read
  exact ⟨value, split, rfl, length⟩

theorem readsOnly_expect (b : UInt8) : ReadsOnly (expect b) fun bytes _ => bytes = [b] := by
  refine ReadsOnly.atOffset fun start => readsOnly_byte.bind ?_
  rintro - found rfl
  by_cases h : found = b
  · rw [if_pos h]
    exact ReadsOnly.pure (by rw [h, List.append_nil])
  · rw [if_neg h]
    exact ReadsOnly.failAt _ _

/-- A byte that is looked at is the first one of those that are taken. -/
theorem ReadsOnly.peekBind {f : UInt8 → Decoder β}
    (h : ∀ b, ReadsOnly (f b) fun bytes r => bytes ≠ [] ∧ (bytes.head? = some b → Q bytes r)) :
    ReadsOnly (peek >>= f) Q := by
  intro c r c' result
  obtain ⟨b, c₁, peeked, result⟩ := EStateM.bind_eq_ok.mp result
  obtain ⟨offset, rest, id⟩ := c
  cases rest with
  | nil => cases peeked
  | cons head tail =>
      cases peeked
      obtain ⟨bytes, split, nonempty, spells⟩ := h b _ r c' result
      refine ⟨bytes, split, spells ?_⟩
      rw [← List.head?_append_of_ne_nil bytes nonempty, ← split, List.head?_cons]

theorem ReadsOnly.takePeeked {b : UInt8} {r : β} (h : Q [b] r) :
    ReadsOnly (byte >>= fun _ => Pure.pure r) fun bytes r =>
      bytes ≠ [] ∧ (bytes.head? = some b → Q bytes r) := by
  refine readsOnly_byte.bindPure fun bytes found taken => ⟨by simp [taken], fun first => ?_⟩
  cases taken
  cases first
  exact h

/-- Items one after the other, each with a spelling of its own. -/
theorem ReadsOnly.list {item : Decoder α} (each : ReadsOnly item P) (n : Nat) :
    ReadsOnly (list item n) fun bytes items => items.length = n ∧
      ∃ contents, bytes = contents.flatten ∧
        List.Forall₂ (fun a bytes => P bytes a) items contents := by
  induction n with
  | zero => exact ReadsOnly.pure ⟨rfl, [], rfl, .nil⟩
  | succ n ih =>
      refine each.bind fun front head first => ih.bindPure ?_
      rintro - tail ⟨length, contents, rfl, others⟩
      refine ⟨by rw [List.length_cons, length], front :: contents, ?_, .cons first others⟩
      rw [List.flatten_cons]

end Decoder

/-- The spellings of a block type. The number of a signature has 33 bits, one
of them its sign. -/
inductive BlockType.Spells : Bytes → BlockType → Prop
  | empty : Spells [Codec.emptyBlockTag] .empty
  | value (type : ValType) : Spells [type.toByte] (.value type)
  | funcType {bytes : Bytes} {index : UInt32} (number : Leb128.IsSigned 33 bytes index.toNat) :
      Spells bytes (.funcType index)

namespace Codec

open Decoder

variable {α : Type}

/-! ## Numbers -/

theorem readsOnly_readUnsigned {width : Nat} :
    ReadsOnly (Leb128.readUnsigned width) (Leb128.IsUnsigned width) :=
  fun _ _ _ read => Leb128.isUnsigned_of_readUnsigned read

theorem readsOnly_readSigned {width : Nat} (positive : 0 < width) :
    ReadsOnly (Leb128.readSigned width) (Leb128.IsSigned width) :=
  fun _ _ _ read => Leb128.isSigned_of_readSigned positive read

theorem exactly_readSigned {width : Nat} (positive : 0 < width) :
    ReadsExactly (Leb128.readSigned width) (Leb128.IsSigned width) where
  reads spelling := spelling.reads positive
  only := readsOnly_readSigned positive

theorem exactly_u32 :
    ReadsExactly u32.decode fun bytes value => Leb128.IsUnsigned 32 bytes value.toNat where
  reads := by
    intro bytes value spelling
    have h := spelling.reads.map UInt32.ofNat
    rwa [UInt32.ofNat_toNat] at h
  only := by
    refine readsOnly_readUnsigned.map fun bytes n spelling => ?_
    rwa [UInt32.toNat_ofNat_of_lt' spelling.fits]

theorem exactly_u64 :
    ReadsExactly u64.decode fun bytes value => Leb128.IsUnsigned 64 bytes value.toNat where
  reads := by
    intro bytes value spelling
    have h := spelling.reads.map UInt64.ofNat
    rwa [UInt64.ofNat_toNat] at h
  only := by
    refine readsOnly_readUnsigned.map fun bytes n spelling => ?_
    rwa [UInt64.toNat_ofNat_of_lt' spelling.fits]

theorem exactly_i32 :
    ReadsExactly i32.decode fun bytes value => Leb128.IsSigned 32 bytes value.toInt where
  reads := by
    intro bytes value spelling
    have h := (spelling.reads (by decide)).map Int32.ofInt
    rwa [Int32.ofInt_toInt] at h
  only := by
    refine (readsOnly_readSigned (by decide)).map fun bytes n spelling => ?_
    rwa [Int32.toInt_ofInt_of_le spelling.low spelling.high]

theorem exactly_i64 :
    ReadsExactly i64.decode fun bytes value => Leb128.IsSigned 64 bytes value.toInt where
  reads := by
    intro bytes value spelling
    have h := (spelling.reads (by decide)).map Int64.ofInt
    rwa [Int64.ofInt_toInt] at h
  only := by
    refine (readsOnly_readSigned (by decide)).map fun bytes n spelling => ?_
    rwa [Int64.toInt_ofInt_of_le spelling.low spelling.high]

theorem exactly_f32 :
    ReadsExactly f32.decode fun bytes value => bytes = Bytes.littleEndian 4 value.bits.toNat where
  reads := by
    rintro - value rfl
    exact reads_f32 value
  only := by
    refine (readsOnly_bytes 4).map fun bytes value spelling => ?_
    obtain ⟨rfl, length⟩ := spelling
    have small := Bytes.toNatLE_lt bytes
    have same := Bytes.littleEndian_toNatLE bytes
    rw [length] at small same
    rw [UInt32.toNat_ofNat_of_lt' small, same]

theorem exactly_f64 :
    ReadsExactly f64.decode fun bytes value => bytes = Bytes.littleEndian 8 value.bits.toNat where
  reads := by
    rintro - value rfl
    exact reads_f64 value
  only := by
    refine (readsOnly_bytes 8).map fun bytes value spelling => ?_
    obtain ⟨rfl, length⟩ := spelling
    have small := Bytes.toNatLE_lt bytes
    have same := Bytes.littleEndian_toNatLE bytes
    rw [length] at small same
    rw [UInt64.toNat_ofNat_of_lt' small, same]

theorem exactly_v128 : ReadsExactly v128.decode fun bytes value => bytes = value.toList where
  reads := by
    rintro - value rfl
    exact reads_v128 value
  only := by
    refine (readsOnly_bytes 16).bind fun bytes value spelling => ?_
    obtain ⟨rfl, length⟩ := spelling
    rw [dif_pos length]
    exact ReadsOnly.pure (by simp [Vector.toList])

/-! ## Vectors -/

/-- Items one after the other, behind a spelling of their number. -/
structure IsCounted (limit : UInt32) (Spells : Bytes → α → Prop) (bytes : Bytes)
    (items : List α) : Prop where
  bounded : items.length ≤ limit.toNat
  spells : ∃ front contents, bytes = front ++ contents.flatten ∧
    Leb128.IsUnsigned 32 front items.length ∧
    List.Forall₂ (fun a bytes => Spells bytes a) items contents

theorem readsOnly_count (what : String) (limit : UInt32) :
    ReadsOnly (count what limit) fun bytes n => Leb128.IsUnsigned 32 bytes n ∧ n ≤ limit.toNat := by
  refine ReadsOnly.atOffset fun start => readsOnly_readUnsigned.bind fun front n number => ?_
  refine ReadsOnly.ite (fun _ => ReadsOnly.failAt _ _) fun bounded => ?_
  refine ReadsOnly.atLeast fun enough => ReadsOnly.ite (fun _ => ?_) fun _ => ReadsOnly.failAtEnd
  exact ReadsOnly.pure ⟨by rwa [List.append_nil], Nat.not_lt.mp bounded⟩

/-- No vector is refused for what is left of the input: its items are there,
with a byte or more each. -/
theorem exactly_counted {item : Decoder α} {Spells : Bytes → α → Prop}
    (each : ReadsExactly item Spells) (nonempty : ∀ {bytes a}, Spells bytes a → bytes ≠ [])
    (what : String) (limit : UInt32) :
    ReadsExactly (counted what limit item) (IsCounted limit Spells) where
  reads := by
    rintro - items ⟨bounded, front, contents, rfl, number, spelt⟩
    have present : items.length ≤ contents.flatten.length := by
      rw [spelt.length_eq]
      refine length_le_length_flatten fun empty => ?_
      obtain ⟨a, -, spells⟩ := spelt.exists_of_mem_right empty
      exact nonempty spells rfl
    refine reads_countBind number.reads bounded present (Reads.list ?_)
    exact spelt.imp fun _ _ spells => each.reads spells
  only := by
    refine (readsOnly_count what limit).bind fun front n counted => ?_
    refine (each.only.list n).mono fun back items listed => ?_
    obtain ⟨rfl, contents, rfl, spelt⟩ := listed
    exact ⟨counted.2, front, contents, rfl, counted.1, spelt⟩

/-! ## Types -/

/-- A byte that stands for a type is the byte of that type. -/
theorem toByte_of_ofByte? {b : UInt8} {type : ValType} (known : ValType.ofByte? b = some type) :
    type.toByte = b := by
  unfold ValType.ofByte? at known
  split at known <;> cases known <;> exact UInt8.toNat_inj.mp (Eq.symm ‹_›)

theorem exactly_valType :
    ReadsExactly valType.decode fun bytes type => bytes = [type.toByte] where
  reads := by
    rintro - type rfl
    exact reads_valType type
  only := by
    refine ReadsOnly.atOffset fun start => readsOnly_byte.bind ?_
    rintro - b rfl
    cases known : ValType.ofByte? b with
    | none => exact ReadsOnly.failAt _ _
    | some type => exact ReadsOnly.pure (by rw [toByte_of_ofByte? known]; rfl)

theorem exactly_refType :
    ReadsExactly refType fun bytes type => bytes = [type.toByte] ∧ type.isRef = true where
  reads := by
    rintro - type ⟨rfl, isRef⟩
    exact reads_refType isRef
  only := by
    refine ReadsOnly.atOffset fun start => exactly_valType.only.bind ?_
    rintro - type rfl
    refine ReadsOnly.ite (fun isRef => ?_) fun _ => ReadsOnly.failAt _ _
    exact ReadsOnly.pure ⟨rfl, isRef⟩

theorem exactly_blockType : ReadsExactly blockType.decode BlockType.Spells where
  reads := by
    rintro bytes type (_ | type | number)
    · exact reads_blockType .empty
    · exact reads_blockType (.value type)
    · obtain ⟨b, tail, rfl, outside⟩ := number.spells.head (Int.natCast_nonneg _)
      exact reads_signature (number.reads (by decide)) outside
  only := by
    refine ReadsOnly.atOffset fun start => ReadsOnly.peekBind fun b => ?_
    refine ReadsOnly.ite (fun tagged => ?_) fun _ => ?_
    · exact ReadsOnly.takePeeked (tagged ▸ .empty)
    · cases known : ValType.ofByte? b with
      | some type => exact ReadsOnly.takePeeked (toByte_of_ofByte? known ▸ .value type)
      | none =>
          refine (readsOnly_readSigned (by decide)).bind fun bytes index number => ?_
          refine ReadsOnly.ite (fun _ => ReadsOnly.failAt _ _) fun nonneg => ReadsOnly.pure ?_
          rw [List.append_nil]
          refine ⟨List.length_pos_iff.mp number.spells.length_pos, fun _ => .funcType ?_⟩
          obtain ⟨index, rfl⟩ := Int.eq_ofNat_of_zero_le (Int.not_lt.mp nonneg)
          have small := number.high
          rw [Int.toNat_natCast, UInt32.toNat_ofNat_of_lt' (show index < 2 ^ 32 by omega)]
          exact number

end Codec

end Wasm
