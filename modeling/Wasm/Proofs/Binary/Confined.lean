import Wasm.Proofs.Binary.Local
import Wasm.Proofs.Binary.Persistent
import Wasm.Proofs.Binary.Wire

/-!
# Reading stays inside the input

A value is read at some offset of an input, and the number of its bytes comes
back with it. Whatever is read this way lies inside the input, is not empty,
and is read as the same value wherever it stands. When the input is cut off
in it or in front of it, the missing end is reported at the cut, and nothing
else ever is. Both hold of every wire type and of code, and both follow from
two laws that are closed under sequencing: what a decoder takes is all that
counts for it, and more input changes nothing but a missing end.
-/

namespace Wasm

open Decoder

namespace Decoder

variable {α : Type}

/-- Reads a value at an offset of the input; the second part of the result is
the number of bytes read. -/
def readAt (d : Decoder α) (input : Bytes) (offset : Nat) : Except DecodeError (α × Nat) :=
  match d (Cursor.ofInput input offset) with
  | .ok value c => .ok (value, c.offset - offset)
  | .error e _ => .error e

/-- What is read at an offset lies in the input, and only its own bytes matter. -/
structure Confined (d : Decoder α) (readAt : Bytes → Nat → Except DecodeError (α × Nat)) :
    Prop where
  /-- The cursor stands behind the offset, by the number that is returned. -/
  counts : ∀ input offset a n, readAt input offset = .ok (a, n) ↔
    ∃ c, d (Cursor.ofInput input offset) = .ok a c ∧ c.offset = offset + n
  inside : ∀ input offset a n, readAt input offset = .ok (a, n) →
    1 ≤ n ∧ offset + n ≤ input.length
  anywhere : ∀ input offset a n, readAt input offset = .ok (a, n) → ∀ front back : Bytes,
    readAt (front ++ (input.drop offset).take n ++ back) front.length = .ok (a, n)
  beyond : ∀ input offset, input.length ≤ offset →
    readAt input offset = .error ⟨input.length, none, .unexpectedEnd⟩

/-- An input that is cut off before the end of a value is reported to end
there, and nothing else is. -/
def ReportsCut (readAt : Bytes → Nat → Except DecodeError (α × Nat)) : Prop :=
  ∀ input offset a n, readAt input offset = .ok (a, n) → ∀ k < offset + n,
    readAt (input.take k) offset = .error ⟨k, none, .unexpectedEnd⟩

/-- The bytes that were taken, where they stand in the input. -/
theorem taken_at {d : Decoder α} (isLocal : ∀ room, Local 1 room d d) {input : Bytes}
    {offset : Nat} {a : α} {c : Cursor} (result : d (Cursor.ofInput input offset) = .ok a c) :
    ∃ used, Reads d used a ∧ (input.drop offset).take used.length = used ∧ 1 ≤ used.length ∧
      offset + used.length ≤ input.length ∧ c.offset = offset + used.length := by
  obtain ⟨used, takes, many, reads⟩ := Local.takes isLocal result
  have split : input.drop offset = used ++ c.rest := takes.rest
  have moved : c.offset = min offset input.length + used.length := takes.offset
  have length := congrArg List.length split
  rw [List.length_drop, List.length_append] at length
  refine ⟨used, reads, ?_, many, by omega, by omega⟩
  rw [split, List.take_left]

theorem readAt_eq_ok {d : Decoder α} {input : Bytes} {offset : Nat} {a : α} {n : Nat}
    (read : d.readAt input offset = .ok (a, n)) :
    ∃ c, d (Cursor.ofInput input offset) = .ok a c ∧ n = c.offset - offset := by
  rw [readAt] at read
  cases result : d (Cursor.ofInput input offset) with
  | ok value c =>
      rw [result] at read
      cases read
      exact ⟨c, rfl, rfl⟩
  | error e c =>
      rw [result] at read
      cases read

theorem readAt_of_error {d : Decoder α} {input : Bytes} {offset : Nat} {e : DecodeError}
    (failed : ∃ c, d (Cursor.ofInput input offset) = .error e c) :
    d.readAt input offset = .error e := by
  obtain ⟨c, failed⟩ := failed
  rw [readAt, failed]

/-- Where something can be read, an empty input is a cut of it. -/
theorem readAt_beyond {d : Decoder α} (persistent : Persistent d d) {used : Bytes} {a : α}
    (reads : Reads d used a) (nonempty : used ≠ []) {input : Bytes} {offset : Nat}
    (past : input.length ≤ offset) :
    d.readAt input offset = .error ⟨input.length, none, .unexpectedEnd⟩ := by
  have place : Cursor.ofInput input offset = ⟨input.length, [], none⟩ := by
    rw [Cursor.ofInput, Nat.min_eq_right past, List.drop_eq_nil_of_le past]
  apply readAt_of_error
  rw [place]
  have length := List.length_pos_iff.mpr nonempty
  exact persistent.truncated (reads input.length [] none) (List.nil_append _).symm
    (show input.length + 0 < input.length + used.length by omega)

theorem confined_readAt {d : Decoder α} (isLocal : ∀ room, Local 1 room d d)
    (persistent : Persistent d d) {used : Bytes} {a : α} (reads : Reads d used a)
    (nonempty : used ≠ []) : Confined d d.readAt where
  counts := by
    intro input offset a n
    constructor
    · intro read
      obtain ⟨c, result, rfl⟩ := readAt_eq_ok read
      obtain ⟨used, -, -, -, -, moved⟩ := taken_at isLocal result
      exact ⟨c, result, by omega⟩
    · rintro ⟨c, result, moved⟩
      rw [readAt, result]
      show Except.ok (a, c.offset - offset) = _
      rw [moved, Nat.add_sub_cancel_left]
  inside := by
    intro input offset a n read
    obtain ⟨c, result, rfl⟩ := readAt_eq_ok read
    obtain ⟨used, -, -, many, inside, moved⟩ := taken_at isLocal result
    omega
  anywhere := by
    intro input offset a n read front back
    obtain ⟨c, result, rfl⟩ := readAt_eq_ok read
    obtain ⟨used, reads, taken, -, -, moved⟩ := taken_at isLocal result
    rw [moved, Nat.add_sub_cancel_left, taken, readAt, reads.inPlace front back]
    show Except.ok (a, front.length + used.length - front.length) = _
    rw [Nat.add_sub_cancel_left]
  beyond := by
    intro input offset past
    exact readAt_beyond persistent reads nonempty past

theorem reportsCut_readAt {d : Decoder α} (isLocal : ∀ room, Local 1 room d d)
    (persistent : Persistent d d) : ReportsCut d.readAt := by
  intro input offset a n read k cut
  obtain ⟨c, result, rfl⟩ := readAt_eq_ok read
  obtain ⟨used, reads, taken, many, inside, moved⟩ := taken_at isLocal result
  have length : (input.take k).length = k := List.length_take_of_le (by omega)
  by_cases front : k ≤ offset
  · -- The cut lies in front of the value, so nothing is left of it.
    have past := readAt_beyond persistent reads (List.length_pos_iff.mp many)
      (length.le.trans front)
    rwa [length] at past
  · apply readAt_of_error
    have start : Cursor.ofInput (input.take k) offset =
        ⟨offset, (input.drop offset).take (k - offset), none⟩ := by
      rw [Cursor.ofInput, length, Nat.min_eq_left (by omega), List.drop_take]
    have whole : Cursor.ofInput input offset = ⟨offset, input.drop offset, none⟩ := by
      rw [Cursor.ofInput, Nat.min_eq_left (by omega)]
    have finish : offset + ((input.drop offset).take (k - offset)).length = k := by
      rw [List.length_take, List.length_drop]
      omega
    rw [whole] at result
    obtain ⟨c', failed⟩ := persistent.truncated result
      (List.take_append_drop (k - offset) (input.drop offset)).symm (by simp only; omega)
    simp only [finish] at failed
    exact ⟨c', start ▸ failed⟩

end Decoder

/-! ## Wire types and code -/

namespace WireType

theorem decodeAt_eq_readAt (type : WireType) : type.decodeAt = type.codec.decode.readAt := by
  funext input offset
  rw [decodeAt, readAt]
  cases type.codec.decode (Cursor.ofInput input offset) with
  | ok value c => rfl
  | error e c => rfl

/-- Of every type there is a value that can be read. -/
theorem exists_representable (type : WireType) : ∃ value, type.Representable value := by
  cases type with
  | string => exact ⟨"", by decide⟩
  | funcType => exact ⟨{}, by decide⟩
  | tableType => exact ⟨⟨.funcRef, ⟨0, none⟩⟩, rfl⟩
  | memoryType => exact ⟨⟨⟨0, none⟩, false⟩, nofun⟩
  | vector item => exact ⟨[], Nat.zero_le _, nofun⟩
  | u32 | i32 | i64 | f32 | f64 | v128 | bool | valType | limits | globalType | memArg
  | blockType => exact ⟨default, trivial⟩

end WireType

/-- A value of a wire type and the code of an expression are read inside the
input, from their own bytes alone, and never from behind its end. -/
theorem Decoder.confined_in_input :
    (∀ type : WireType, Confined type.codec.decode type.decodeAt) ∧ Confined expr expr.readAt := by
  constructor
  · intro type
    obtain ⟨value, rep⟩ := type.exists_representable
    rw [type.decodeAt_eq_readAt]
    exact confined_readAt (fun room => (Local.compositional room).wireType type)
      (Persistent.compositional.wireType type) (WireType.reads_encode rep)
      (type.encode_ne_nil value)
  · exact confined_readAt (fun _ => local_expr) persistent_expr (ReadsBody.nil 0).expr
      (List.cons_ne_nil endByte [])

/-- Input that ends too early is told from any other fault, whatever is being
read and wherever the input is cut off. -/
theorem Decoder.reportsCut_everywhere :
    (∀ type : WireType, ReportsCut type.decodeAt) ∧ ReportsCut expr.readAt := by
  constructor
  · intro type
    rw [type.decodeAt_eq_readAt]
    exact reportsCut_readAt (fun room => (Local.compositional room).wireType type)
      (Persistent.compositional.wireType type)
  · exact reportsCut_readAt (fun _ => local_expr) persistent_expr

end Wasm
