import Mathlib.Data.List.Forall2
import Wasm.Binary.Codec

/-!
# What a decoder reads

`Reads d bytes a` says that the decoder `d` takes exactly `bytes` from the
front of any input that starts with them, whatever follows, wherever they
stand and whichever section is open, and returns `a`. The relation is closed
under sequencing, so that the law of a record is put together from the laws
of its fields. `ReadsAll` is the weaker law of a decoder that may look at the
end of its input, as the content of a section may.
-/

namespace Wasm.Decoder

variable {α β : Type}

/-- `d` takes `bytes` off the front of every input that starts with them. -/
def Reads (d : Decoder α) (bytes : Bytes) (a : α) : Prop :=
  ∀ (offset : Nat) (rest : Bytes) (id : Option SectionId),
    d ⟨offset, bytes ++ rest, id⟩ = .ok a ⟨offset + bytes.length, rest, id⟩

/-- `d` reads `bytes` where nothing follows them. -/
def ReadsAll (d : Decoder α) (bytes : Bytes) (a : α) : Prop :=
  ∀ (offset : Nat) (id : Option SectionId),
    d ⟨offset, bytes, id⟩ = .ok a ⟨offset + bytes.length, [], id⟩

/-- An input in which `bytes` stand between a front and a back is read from where they start. -/
theorem Reads.inPlace {d : Decoder α} {bytes : Bytes} {a : α} (h : Reads d bytes a)
    (front back : Bytes) :
    d (Cursor.ofInput (front ++ bytes ++ back) front.length) =
      .ok a ⟨front.length + bytes.length, back, none⟩ := by
  have start : Cursor.ofInput (front ++ bytes ++ back) front.length =
      ⟨front.length, bytes ++ back, none⟩ := by
    simp [Cursor.ofInput]
  rw [start]
  exact h front.length back none

/-- A decoder whose first part succeeds goes on with the second one. -/
theorem bind_ok {d : Decoder α} {f : α → Decoder β} {c c' : Cursor} {a : α}
    (h : d c = .ok a c') : (d >>= f) c = f a c' := by
  simp only [bind, EStateM.bind, h]

theorem offset_bind (f : Nat → Decoder β) (c : Cursor) :
    (offset >>= f) c = f c.offset c := rfl

theorem remaining_bind (f : Nat → Decoder β) (c : Cursor) :
    (remaining >>= f) c = f c.rest.length c := rfl

theorem hasAtLeast_bind (n : Nat) (f : Bool → Decoder β) (c : Cursor) :
    (hasAtLeast n >>= f) c = f (Bytes.hasAtLeast n c.rest) c := rfl

/-! ## Sequencing -/

theorem Reads.pure (a : α) : Reads (pure a) [] a := fun _ _ _ => rfl

theorem Reads.bind {d : Decoder α} {f : α → Decoder β} {bytes₁ bytes₂ : Bytes} {a : α} {b : β}
    (first : Reads d bytes₁ a) (second : Reads (f a) bytes₂ b) :
    Reads (d >>= f) (bytes₁ ++ bytes₂) b := by
  intro offset rest id
  rw [List.append_assoc, bind_ok (first offset (bytes₂ ++ rest) id), second, List.length_append,
    Nat.add_assoc]

/-- The last part of a record. -/
theorem Reads.bindPure {d : Decoder α} {f : α → β} {bytes : Bytes} {a : α}
    (h : Reads d bytes a) : Reads (d >>= fun a => Pure.pure (f a)) bytes (f a) := by
  intro offset rest id
  rw [bind_ok (h offset rest id)]
  rfl

theorem Reads.map {d : Decoder α} {bytes : Bytes} {a : α} (h : Reads d bytes a) (f : α → β) :
    Reads (f <$> d) bytes (f a) := by
  intro offset rest id
  simp only [Functor.map, EStateM.map, h offset rest id]

theorem Reads.all {d : Decoder α} {bytes : Bytes} {a : α} (h : Reads d bytes a) :
    ReadsAll d bytes a := by
  intro offset id
  simpa using h offset [] id

theorem ReadsAll.bind {d : Decoder α} {f : α → Decoder β} {bytes₁ bytes₂ : Bytes} {a : α} {b : β}
    (first : Reads d bytes₁ a) (second : ReadsAll (f a) bytes₂ b) :
    ReadsAll (d >>= f) (bytes₁ ++ bytes₂) b := by
  intro offset id
  rw [bind_ok (first offset bytes₂ id), second, List.length_append, Nat.add_assoc]

theorem ReadsAll.bindPure {d : Decoder α} {f : α → β} {bytes : Bytes} {a : α}
    (h : ReadsAll d bytes a) : ReadsAll (d >>= fun a => Pure.pure (f a)) bytes (f a) := by
  intro offset id
  rw [bind_ok (h offset id)]
  rfl

/-! ## Steps that read nothing

What such a step finds depends on the place or on what follows, so each law
is about the step together with what comes after it.
-/

theorem Reads.atOffset {f : Nat → Decoder β} {bytes : Bytes} {b : β}
    (h : ∀ start, Reads (f start) bytes b) : Reads (offset >>= f) bytes b := by
  intro start rest id
  rw [offset_bind]
  exact h start start rest id

/-- Asking how much is left finds at least what will be read. -/
theorem Reads.atRemaining {f : Nat → Decoder β} {bytes : Bytes} {b : β}
    (h : ∀ left, bytes.length ≤ left → Reads (f left) bytes b) :
    Reads (remaining >>= f) bytes b := by
  intro start rest id
  rw [remaining_bind]
  exact h _ (by simp) start rest id

theorem Reads.atLeast {n : Nat} {f : Bool → Decoder β} {bytes : Bytes} {b : β}
    (enough : n ≤ bytes.length) (h : Reads (f true) bytes b) :
    Reads (hasAtLeast n >>= f) bytes b := by
  intro start rest id
  have there : Bytes.hasAtLeast n (bytes ++ rest) = true := by
    rw [Bytes.hasAtLeast_iff, List.length_append]
    omega
  rw [hasAtLeast_bind, there]
  exact h start rest id

/-! ## Bytes -/

theorem Reads.byte (b : UInt8) : Reads byte [b] b := fun _ _ _ => rfl

theorem Reads.byteBind {f : UInt8 → Decoder β} {b : UInt8} {bytes : Bytes} {result : β}
    (h : Reads (f b) bytes result) : Reads (Decoder.byte >>= f) (b :: bytes) result :=
  Reads.bind (Reads.byte b) h

theorem Reads.peekBind {f : UInt8 → Decoder β} {b : UInt8} {bytes : Bytes} {result : β}
    (h : Reads (f b) (b :: bytes) result) : Reads (peek >>= f) (b :: bytes) result := by
  intro start rest id
  show f b ⟨start, b :: bytes ++ rest, id⟩ = _
  exact h start rest id

theorem Reads.bytes (value : Bytes) : Reads (bytes value.length) value value := by
  intro start rest id
  have there : Bytes.hasAtLeast value.length (value ++ rest) = true := by simp
  simp [Decoder.bytes, there, Cursor.skip]

theorem Reads.expect (b : UInt8) : Reads (expect b) [b] () := by
  refine Reads.atOffset fun start => Reads.byteBind ?_
  simpa using Reads.pure ()

theorem ReadsAll.allBytes (value : Bytes) : ReadsAll allBytes value value := by
  intro start id
  simp [Decoder.allBytes, Cursor.skip]

/-- A byte that was read stood at the front of the input. -/
theorem byte_eq_ok {b : UInt8} {c c' : Cursor} (read : Decoder.byte c = .ok b c') :
    c.rest = b :: c'.rest ∧ c' = ⟨c.offset + 1, c'.rest, c.sectionId⟩ := by
  obtain ⟨offset, rest, id⟩ := c
  cases rest with
  | nil => cases read
  | cons head tail =>
      cases read
      exact ⟨rfl, rfl⟩

theorem bytes_eq_ok {n : Nat} {value : Bytes} {c c' : Cursor}
    (read : Decoder.bytes n c = .ok value c') : value.length = n ∧ c.rest = value ++ c'.rest ∧
      c' = ⟨c.offset + n, c'.rest, c.sectionId⟩ := by
  rw [Decoder.bytes] at read
  split at read
  · rename_i enough
    cases read
    refine ⟨List.length_take_of_le ((Bytes.hasAtLeast_iff n c.rest).mp enough), ?_, rfl⟩
    exact (List.take_append_drop n c.rest).symm
  · cases read

/-! ## Lists -/

/-- Items written one after the other are read one after the other. -/
theorem Reads.list {item : Decoder α} {items : List α} {contents : List Bytes}
    (each : List.Forall₂ (fun a bytes => Reads item bytes a) items contents) :
    Reads (list item items.length) contents.flatten items := by
  induction each with
  | nil => exact Reads.pure []
  | cons first _ ih =>
      rw [List.flatten_cons]
      exact Reads.bind first (Reads.bindPure ih)

/-! ## Sections -/

/-- Content that is read to its end in a section of its size. -/
theorem Reads.within {content : Decoder α} {id : SectionId} {bytes : Bytes} {a : α}
    (h : ReadsAll content bytes a) : Reads (within bytes.length id content) bytes a := by
  intro start rest outer
  have taken : (bytes ++ rest).take bytes.length = bytes := by simp
  simp [Decoder.within, taken, h start (some id), Cursor.skip]

end Wasm.Decoder
