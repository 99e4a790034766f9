import Mathlib.Data.Nat.Bitwise
import Wasm.Proofs.Binary.Integers
import Wasm.Proofs.Binary.Exactly

/-!
# Integers are written in the fewest groups

Of all spellings of an integer the one that is written is the shortest, and no
other one is as short. A machine writes it a byte at a time: it splits seven
bits off a register until what is left is told by the last byte. This loop ends,
and with the same bytes, whatever the register holds at the start.
-/

namespace Wasm

open Decoder

namespace Leb128

/-! ## Writing byte by byte -/

/-- The loop ends, and `bytes` are what it has written. A `round` takes the
register and yields a byte and, unless it is the last one, the next register. -/
inductive Writes {α : Type} (round : α → UInt8 × Option α) : α → Bytes → Prop
  | last {value : α} {b : UInt8} (stop : round value = (b, none)) : Writes round value [b]
  | more {value rest : α} {b : UInt8} {bytes : Bytes} (next : round value = (b, some rest))
      (tail : Writes round rest bytes) : Writes round value (b :: bytes)

/-- A number ends when nothing is left of it. -/
def unsignedRound (value : UInt64) : UInt8 × Option UInt64 :=
  let byte := (value &&& 0x7F).toUInt8
  let rest := value >>> 7
  if rest = 0 then (byte, none) else (byte ||| 0x80, some rest)

/-- An integer ends when all that is left of it is the sign, and the byte shows
this sign in its seventh bit. -/
def signedRound (value : Int64) : UInt8 × Option Int64 :=
  let byte := (value &&& 0x7F).toUInt64.toUInt8
  let rest := value >>> 7
  if rest = 0 ∧ byte &&& 0x40 = 0 ∨ rest = -1 ∧ byte &&& 0x40 ≠ 0 then (byte, none)
  else (byte ||| 0x80, some rest)

theorem toNat_lowSeven (value : UInt64) : (value &&& 0x7F).toUInt8.toNat = value.toNat % 128 := by
  rw [UInt64.toNat_toUInt8, UInt64.toNat_and]
  change (value.toNat &&& 2 ^ 7 - 1) % 2 ^ 8 = _
  rw [Nat.and_two_pow_sub_one_eq_mod]
  omega

theorem toNat_shiftSeven (value : UInt64) : (value >>> 7).toNat = value.toNat / 128 := by
  rw [UInt64.toNat_shiftRight]
  exact Nat.shiftRight_eq_div_pow value.toNat 7

/-- The top bit is not yet set. -/
theorem or_top_eq {b : UInt8} (clear : b.toNat < 128) :
    b ||| 0x80 = UInt8.ofNat (b.toNat + 128) := by
  rw [← UInt8.toNat_inj, UInt8.toNat_or, UInt8.toNat_ofNat', Nat.or_comm, Nat.add_comm,
    Nat.mod_eq_of_lt (by omega)]
  exact (Nat.two_pow_add_eq_or_of_lt (i := 7) clear 1).symm

/-- What a round does, in terms of the number that the register holds. -/
theorem unsignedRound_eq (value : UInt64) : unsignedRound value =
    if value.toNat < 128 then (UInt8.ofNat value.toNat, none)
    else (UInt8.ofNat (value.toNat % 128 + 128), some (value >>> 7)) := by
  have low := toNat_lowSeven value
  have ended : value >>> 7 = 0 ↔ value.toNat < 128 := by
    rw [← UInt64.toNat_inj, toNat_shiftSeven, UInt64.toNat_zero]
    omega
  rw [unsignedRound]
  simp only [ended]
  split
  · rename_i small
    rw [← UInt8.ofNat_toNat (x := UInt64.toUInt8 _), low, Nat.mod_eq_of_lt small]
  · rw [or_top_eq (by omega), low]

theorem writes_unsigned (value : UInt64) : Writes unsignedRound value (unsigned value.toNat) := by
  generalize same : value.toNat = n
  have round := unsignedRound_eq value
  rw [same] at round
  fun_induction unsigned n generalizing value with
  | case1 n small => exact .last (by rw [round, if_pos small])
  | case2 n large ih =>
      have next : (value >>> 7).toNat = n / 128 := by rw [toNat_shiftSeven, same]
      refine .more (by rw [round, if_neg large]) (ih (value >>> 7) next ?_)
      rw [unsignedRound_eq, next]

theorem toInt_shiftSeven (value : Int64) : (value >>> 7).toInt = value.toInt / 128 := by
  rw [← Int64.toInt_toBitVec, Int64.toBitVec_shiftRight]
  change (value.toBitVec.sshiftRight 7).toInt = _
  rw [BitVec.toInt_sshiftRight, Int.shiftRight_eq_div_pow]
  rfl

theorem toNat_lowSeven_signed (value : Int64) :
    (value &&& 0x7F).toUInt64.toUInt8.toNat = (value.toInt % 128).toNat := by
  rw [Int64.toUInt64_and]
  change (value.toUInt64 &&& 0x7F).toUInt8.toNat = _
  rw [toNat_lowSeven, ← Int64.toInt_toBitVec, BitVec.toInt_eq_toNat_cond]
  change value.toBitVec.toNat % 128 = _
  split <;> omega

theorem and_seventh_eq_zero_iff {b : UInt8} (clear : b.toNat < 128) :
    b &&& 0x40 = 0 ↔ b.toNat < 64 := by
  rw [← UInt8.toNat_inj, UInt8.toNat_and]
  change b.toNat &&& 2 ^ 6 = 0 ↔ _
  rw [Nat.and_two_pow, Nat.testBit_eq_decide_div_mod_eq]
  rw [Nat.mul_eq_zero, or_iff_left (by decide), Bool.toNat_eq_zero, decide_eq_false_iff_not]
  omega

/-- What a round does, in terms of the integer that the register holds. -/
theorem signedRound_eq (value : Int64) : signedRound value =
    if -64 ≤ value.toInt ∧ value.toInt < 64 then (UInt8.ofNat (value.toInt % 128).toNat, none)
    else (UInt8.ofNat ((value.toInt % 128).toNat + 128), some (value >>> 7)) := by
  have low := toNat_lowSeven_signed value
  have ended : (value >>> 7 = 0 ∧ (value &&& 0x7F).toUInt64.toUInt8 &&& 0x40 = 0 ∨
      value >>> 7 = -1 ∧ (value &&& 0x7F).toUInt64.toUInt8 &&& 0x40 ≠ 0) ↔
      -64 ≤ value.toInt ∧ value.toInt < 64 := by
    rw [Ne, and_seventh_eq_zero_iff (by omega), low, ← Int64.toInt_inj, ← Int64.toInt_inj,
      toInt_shiftSeven, Int64.toInt_zero, show (-1 : Int64).toInt = -1 from rfl]
    omega
  rw [signedRound]
  simp only [ended]
  split
  · rw [← UInt8.ofNat_toNat (x := UInt64.toUInt8 _), low]
  · rw [or_top_eq (by omega), low]

theorem writes_signed (value : Int64) : Writes signedRound value (signed value.toInt) := by
  generalize same : value.toInt = n
  have round := signedRound_eq value
  rw [same] at round
  fun_induction signed n generalizing value with
  | case1 n small => exact .last (by rw [round, if_pos small])
  | case2 n large ih =>
      have next : (value >>> 7).toInt = n / 128 := by rw [toInt_shiftSeven, same]
      refine .more (by rw [round, if_neg large]) (ih (value >>> 7) next ?_)
      rw [signedRound_eq, next]

/-! ## Other spellings are longer -/

/-- A last group that could be left out makes a spelling longer, so the
induction is on the spelling: each of its bytes is determined by the number. -/
theorem Spells.eq_unsigned {bytes : Bytes} {n : Nat} (h : Spells bytes n)
    (short : bytes.length ≤ (unsigned n).length) : bytes = unsigned n := by
  induction h with
  | @last b clear => rw [unsigned, if_pos clear, UInt8.ofNat_toNat]
  | @more b rest high set tail ih =>
      have nonempty := tail.length_pos
      rw [unsigned] at short ⊢
      split at short
      · simp only [List.length_cons, List.length_nil] at short
        omega
      · rename_i large
        rw [if_neg large]
        have above : (b.toNat % 128 + 128 * high) / 128 = high := by omega
        have below : (b.toNat % 128 + 128 * high) % 128 + 128 = b.toNat := by
          have := b.toNat_lt
          omega
        rw [above] at short ⊢
        rw [below, UInt8.ofNat_toNat, ← ih (Nat.le_of_succ_le_succ short)]

theorem SpellsSigned.eq_signed {bytes : Bytes} {n : Int} (h : SpellsSigned bytes n)
    (short : bytes.length ≤ (signed n).length) : bytes = signed n := by
  induction h with
  | @last b clear =>
      rw [signed, if_pos (by split <;> omega)]
      have byte : ((if b.toNat < 64 then (b.toNat : Int) else b.toNat - 128) % 128).toNat =
          b.toNat := by split <;> omega
      rw [byte, UInt8.ofNat_toNat]
  | @more b rest high set tail ih =>
      have nonempty := tail.length_pos
      rw [signed] at short ⊢
      split at short
      · simp only [List.length_cons, List.length_nil] at short
        omega
      · rename_i large
        rw [if_neg large]
        have above : (((b.toNat % 128 : Nat) : Int) + 128 * high) / 128 = high := by omega
        have below :
            ((((b.toNat % 128 : Nat) : Int) + 128 * high) % 128).toNat + 128 = b.toNat := by
          have := b.toNat_lt
          omega
        rw [above] at short ⊢
        rw [below, UInt8.ofNat_toNat, ← ih (Nat.le_of_succ_le_succ short)]

end Leb128

namespace Codec

variable {α β : Type}

/-- Values are written by a loop that ends, are read back from what it has
written, whatever follows it, and from no other bytes that are as few. A value
enters the loop in a register that may be wider. -/
structure Shortest (codec : Codec α) (round : β → UInt8 × Option β) (register : α → β) :
    Prop where
  writes : ∀ a, Leb128.Writes round (register a) (codec.encode a)
  reads : ∀ a, Reads codec.decode (codec.encode a) a
  unique : ∀ {a bytes}, bytes.length ≤ (codec.encode a).length → ∀ {offset id c'},
    codec.decode ⟨offset, bytes, id⟩ = .ok a c' → bytes = codec.encode a

/-- It is enough to look at the spellings of a value. A decoder may leave some
of the bytes, but there are none besides the spelling. -/
theorem shortest_of_exactly {codec : Codec α} {round : β → UInt8 × Option β} {register : α → β}
    {Spells : Bytes → α → Prop} (exactly : ReadsExactly codec.decode Spells)
    (writes : ∀ a, Leb128.Writes round (register a) (codec.encode a))
    (reads : ∀ a, Reads codec.decode (codec.encode a) a)
    (least : ∀ {bytes a}, Spells bytes a → bytes.length ≤ (codec.encode a).length →
      bytes = codec.encode a) : Shortest codec round register where
  writes := writes
  reads := reads
  unique := by
    intro a bytes short offset id c' read
    obtain ⟨front, takes, spells⟩ := exactly.takes read
    have split : bytes = front ++ c'.rest := takes.rest
    rw [split, List.length_append] at short
    obtain rfl := least spells (by omega)
    rw [split, List.length_eq_zero_iff.mp (by omega : c'.rest.length = 0), List.append_nil]

/-- Integers of 32 and of 64 bits, with and without a sign. -/
theorem shortest_u32_u64_i32_i64 : Shortest u32 Leb128.unsignedRound UInt32.toUInt64 ∧
    Shortest u64 Leb128.unsignedRound id ∧
    Shortest i32 Leb128.signedRound Int32.toInt64 ∧
    Shortest i64 Leb128.signedRound id := by
  refine ⟨?_, ?_, ?_, ?_⟩
  · refine shortest_of_exactly exactly_u32 (fun value => ?_) reads_u32 fun spelling =>
      spelling.spells.eq_unsigned
    have written := Leb128.writes_unsigned value.toUInt64
    rwa [UInt32.toNat_toUInt64] at written
  · exact shortest_of_exactly exactly_u64 Leb128.writes_unsigned reads_u64 fun spelling =>
      spelling.spells.eq_unsigned
  · refine shortest_of_exactly exactly_i32 (fun value => ?_) reads_i32 fun spelling =>
      spelling.spells.eq_signed
    have written := Leb128.writes_signed value.toInt64
    rwa [Int32.toInt_toInt64] at written
  · exact shortest_of_exactly exactly_i64 Leb128.writes_signed reads_i64 fun spelling =>
      spelling.spells.eq_signed

/-- The sign needs a bit of its own, so the least integer of 32 bits takes as
many bytes as any. -/
example : i32.decode ⟨0, [0x80, 0x80, 0x80, 0x80, 0x78], none⟩ =
    .ok Int32.minValue ⟨5, [], none⟩ := rfl

end Codec

end Wasm
