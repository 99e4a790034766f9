import Wasm.Proofs.Binary.Compositional

/-!
# Decoders are local

What a decoder returns depends on the bytes that it takes and on nothing
else: not on where they stand, nor on the open section, nor on what follows
them. `Local least room d d'` compares two decoders, since the offsets in
error reports and the fuel of a loop differ from place to place. The fuel is
what `room` is for: the second decoder is held only to fewer bytes than that.
It is the only thing in a body that depends on the input as a whole, and the
bytes that a body takes bound the fuel that it needs. The content of a custom
section is all that is left, so its law holds only where nothing follows.
-/

namespace Wasm

/-- The cursor `c'` is `c` after `used` was taken off its input. -/
structure Cursor.Takes (c : Cursor) (used : Bytes) (c' : Cursor) : Prop where
  rest : c.rest = used ++ c'.rest
  offset : c'.offset = c.offset + used.length
  sectionId : c'.sectionId = c.sectionId

theorem Cursor.Takes.nil (c : Cursor) : c.Takes [] c := ⟨rfl, rfl, rfl⟩

theorem Cursor.Takes.append {c c₁ c₂ : Cursor} {used₁ used₂ : Bytes} (first : c.Takes used₁ c₁)
    (second : c₁.Takes used₂ c₂) : c.Takes (used₁ ++ used₂) c₂ where
  rest := by rw [first.rest, second.rest, List.append_assoc]
  offset := by rw [second.offset, first.offset, List.length_append, Nat.add_assoc]
  sectionId := by rw [second.sectionId, first.sectionId]

namespace Decoder

variable {α β : Type} {least room : Nat}

/-- Where `d` succeeds, it takes at least `least` bytes. If these are fewer
than `room`, then `d'` reads them as the same value in every input. -/
def Local (least room : Nat) (d d' : Decoder α) : Prop :=
  ∀ (c : Cursor) (a : α) (c' : Cursor), d c = .ok a c' →
    ∃ used, c.Takes used c' ∧ least ≤ used.length ∧ (used.length < room → Reads d' used a)

/-- With room for all of the input, what was taken is read wherever it stands. -/
theorem Local.takes {d : Decoder α} (h : ∀ room, Local least room d d) {c c' : Cursor} {a : α}
    (result : d c = .ok a c') : ∃ used, c.Takes used c' ∧ least ≤ used.length ∧ Reads d used a := by
  obtain ⟨used, takes, many, reads⟩ := h (c.rest.length + 1) c a c' result
  refine ⟨used, takes, many, reads ?_⟩
  rw [takes.rest, List.length_append]
  omega

/-- A decoder that reads known bytes is found to take those. -/
theorem takes_of_reads {d : Decoder α} {used : Bytes} {a b : α} {c c' : Cursor} {left : Bytes}
    (split : c.rest = used ++ left) (reads : Reads d used b) (result : d c = .ok a c') :
    a = b ∧ c'.rest = left ∧ c.Takes used c' := by
  obtain ⟨offset, rest, id⟩ := c
  cases split
  cases (reads offset left id).symm.trans result
  exact ⟨rfl, rfl, rfl, rfl, rfl⟩

/-! ## Sequencing -/

theorem Local.pure (a : α) : Local 0 room (pure a) (pure a) := by
  rintro c b c' ⟨⟩
  exact ⟨[], .nil c, Nat.le_refl 0, fun _ => Reads.pure a⟩

theorem Local.fewer {less : Nat} {d d' : Decoder α} (h : Local least room d d')
    (fewer : less ≤ least) : Local less room d d' := by
  intro c a c' result
  obtain ⟨used, takes, many, reads⟩ := h c a c' result
  exact ⟨used, takes, fewer.trans many, reads⟩

theorem Local.seq {more : Nat} {d d' : Decoder α} {f f' : α → Decoder β}
    (first : Local least room d d') (second : ∀ a, Local more room (f a) (f' a)) :
    Local (least + more) room (d >>= f) (d' >>= f') := by
  intro c b c' result
  obtain ⟨a, c₁, read, result⟩ := EStateM.bind_eq_ok.mp result
  obtain ⟨used₁, takes₁, many₁, reads₁⟩ := first c a c₁ read
  obtain ⟨used₂, takes₂, many₂, reads₂⟩ := second a c₁ b c' result
  refine ⟨used₁ ++ used₂, takes₁.append takes₂, ?_, fun fits => ?_⟩
  · rw [List.length_append]
    omega
  · rw [List.length_append] at fits
    exact Reads.bind (reads₁ (by omega)) (reads₂ (by omega))

/-- The first part takes the bytes that are asked for. -/
theorem Local.bind {d d' : Decoder α} {f f' : α → Decoder β} (first : Local least room d d')
    (second : ∀ a, Local 0 room (f a) (f' a)) : Local least room (d >>= f) (d' >>= f') :=
  first.seq second

/-- Without any room only the bytes that are taken count. -/
theorem Local.noRoom {d d' d'' : Decoder α} (h : Local least room d d') : Local least 0 d d'' := by
  intro c a c' result
  obtain ⟨used, takes, many, -⟩ := h c a c' result
  exact ⟨used, takes, many, nofun⟩

/-! ## Failing -/

/-- A decoder that never succeeds is local. -/
theorem Local.of_fails {d d' : Decoder α} (fails : ∀ c a c', d c ≠ .ok a c') :
    Local least room d d' :=
  fun c a c' result => absurd result (fails c a c')

theorem Local.failAtEnd {d' : Decoder α} : Local least room failAtEnd d' :=
  .of_fails nofun

/-! ## Steps that read nothing -/

theorem Local.atOffset {f f' : Nat → Decoder β}
    (h : ∀ start start', Local least room (f start) (f' start')) :
    Local least room (offset >>= f) (offset >>= f') := by
  intro c b c' result
  rw [offset_bind] at result
  obtain ⟨used, takes, many, -⟩ := h c.offset 0 c b c' result
  refine ⟨used, takes, many, fun fits => Reads.atOffset fun start => ?_⟩
  obtain ⟨used', takes', -, reads'⟩ := h c.offset start c b c' result
  obtain rfl : used = used' := List.append_cancel_right (takes.rest.symm.trans takes'.rest)
  exact reads' fits

/-- A test for bytes that will be taken anyway. -/
theorem Local.atLeast {d d' : Decoder β} (h : Local least room d d') :
    Local least room (hasAtLeast least >>= fun there => if there then d else Decoder.failAtEnd)
      (hasAtLeast least >>= fun there => if there then d' else Decoder.failAtEnd) := by
  intro c b c' result
  rw [hasAtLeast_bind] at result
  cases there : Bytes.hasAtLeast least c.rest with
  | false =>
      rw [there] at result
      cases result
  | true =>
      rw [there] at result
      obtain ⟨used, takes, many, reads⟩ := h c b c' result
      exact ⟨used, takes, many, fun fits => Reads.atLeast many (reads fits)⟩

/-! ## Bytes -/

theorem local_byte : Local 1 room byte byte := by
  intro c b c' read
  obtain ⟨split, moved⟩ := byte_eq_ok read
  have takes : c.Takes [b] c' := ⟨split, by rw [moved]; rfl, by rw [moved]⟩
  exact ⟨[b], takes, Nat.le_refl 1, fun _ => Reads.byte b⟩

/-- A first byte takes up some of the room. -/
theorem Local.byteBind {f f' : UInt8 → Decoder β} (h : ∀ b, Local 0 room (f b) (f' b)) :
    Local 1 (room + 1) (byte >>= f) (byte >>= f') := by
  intro c result c' read
  obtain ⟨b, c₁, first, read⟩ := EStateM.bind_eq_ok.mp read
  obtain ⟨split, moved⟩ := byte_eq_ok first
  obtain ⟨used, takes, -, reads⟩ := h b c₁ result c' read
  have head : c.Takes [b] c₁ := ⟨split, by rw [moved]; rfl, by rw [moved]⟩
  refine ⟨b :: used, head.append takes, Nat.succ_pos _, fun fits => ?_⟩
  exact Reads.byteBind (reads (Nat.lt_of_succ_lt_succ fits))

/-- A byte that is looked at and then read. -/
theorem Local.peekBind {f f' : UInt8 → Decoder β} (h : ∀ b, Local 1 room (f b) (f' b)) :
    Local 1 room (peek >>= f) (peek >>= f') := by
  intro c result c' read
  obtain ⟨b, c₁, peeked, read⟩ := EStateM.bind_eq_ok.mp read
  obtain ⟨offset, rest, id⟩ := c
  cases rest with
  | nil => cases peeked
  | cons head tail =>
      cases peeked
      obtain ⟨used, takes, many, reads⟩ := h b _ _ _ read
      refine ⟨used, takes, many, fun fits => ?_⟩
      cases used with
      | nil => cases many
      | cons first others =>
          cases (List.cons.inj takes.rest).1
          exact Reads.peekBind (reads fits)

theorem local_bytes (n : Nat) : Local n room (bytes n) (bytes n) := by
  intro c value c' read
  obtain ⟨rfl, split, moved⟩ := bytes_eq_ok read
  have takes : c.Takes value c' := ⟨split, by rw [moved], by rw [moved]⟩
  exact ⟨value, takes, Nat.le_refl _, fun _ => Reads.bytes value⟩

/-- The offsets that two decoders remember have nothing to do with each other. -/
theorem Local.compositional (room : Nat) :
    Compositional (fun _ _ => True) fun _ least d d' => Local least room d d' where
  pure := Local.pure
  seq := Local.seq
  fewer := Local.fewer
  failAt _ _ := .of_fails nofun
  fail _ := .of_fails nofun
  failAtEnd := Local.failAtEnd
  atOffset h := Local.atOffset fun _ _ => h trivial
  atLeast := Local.atLeast
  peekBind := Local.peekBind
  byte := local_byte
  bytes := local_bytes

/-! ## Code -/

/-- The induction is on the fuel of the first reader. The second one has
enough of it for all bodies that are shorter than its fuel. -/
theorem local_body (fuel fuel' depth : Nat) (inThenArm : Bool) :
    Local 1 fuel' (body fuel depth inThenArm) (body fuel' depth inThenArm) := by
  induction fuel generalizing fuel' depth inThenArm with
  | zero => exact Local.failAtEnd
  | succ fuel ih =>
      have step : ∀ fuel', Local 1 (fuel' + 1) (body (fuel + 1) depth inThenArm)
          (body (fuel' + 1) depth inThenArm) := by
        intro fuel'
        have law := Local.compositional fuel'
        rw [body_succ, body_succ]
        refine Local.atOffset fun start start' => Local.byteBind fun b => ?_
        refine law.bodyBehind (fun arm => ?_) (law.forget (ih fuel' depth inThenArm)) inThenArm
          trivial b
        exact law.nested depth (law.forget (ih fuel' (depth + 1) arm))
      cases fuel' with
      | zero => exact (step 0).noRoom
      | succ fuel' => exact step fuel'

/-- An expression has as much fuel as there are bytes left, and so enough for
those that it takes. -/
theorem local_expr : Local 1 room expr expr := by
  intro c code c' result
  rw [expr, remaining_bind] at result
  have law : ∀ left, Local 1 (left + 1)
      (body (c.rest.length + 1) 0 false >>= fun result => Pure.pure result.1)
      (body (left + 1) 0 false >>= fun result => Pure.pure result.1) :=
    fun left => (local_body _ (left + 1) 0 false).bind fun _ => Local.pure _
  obtain ⟨used, takes, many, -⟩ := law 0 c code c' result
  refine ⟨used, takes, many, fun _ => Reads.atRemaining fun left enough => ?_⟩
  obtain ⟨used', takes', -, reads⟩ := law left c code c' result
  obtain rfl : used = used' := List.append_cancel_right (takes.rest.symm.trans takes'.rest)
  exact reads (Nat.lt_succ_of_le enough)

/-! ## Function bodies -/

/-- The size in front of a body is a distance between two offsets, so it is
the same wherever the body stands. -/
theorem local_functionBody : Local 1 room functionBody functionBody := by
  have law := Local.compositional room
  rw [functionBody_eq]
  refine law.bind law.u32 fun size => ?_
  intro c body c' result
  rw [offset_bind, hasAtLeast_bind] at result
  cases there : Bytes.hasAtLeast size.toNat c.rest with
  | false =>
      rw [there] at result
      cases result
  | true =>
      rw [there, if_pos rfl] at result
      obtain ⟨found, c₁, read, result⟩ := EStateM.bind_eq_ok.mp result
      obtain ⟨used, takes, -, reads⟩ := law.localsAndCode local_expr c found c₁ read
      rw [offset_bind] at result
      split at result
      · rename_i filled
        cases result
        rw [takes.offset, Nat.add_sub_cancel_left] at filled
        refine ⟨used, takes, Nat.zero_le _, fun fits => ?_⟩
        intro start rest id
        have enough : Bytes.hasAtLeast size.toNat (used ++ rest) = true := by simp [← filled]
        rw [offset_bind, hasAtLeast_bind, enough, if_pos rfl, bind_ok (reads fits start rest id),
          offset_bind, if_pos (by rw [Nat.add_sub_cancel_left, filled])]
        rfl
      · cases result

/-! ## The content of sections -/

/-- The weaker law of the content of a section: what `d` takes is read where
nothing follows it. -/
def LocalAll (d : Decoder α) : Prop :=
  ∀ (c : Cursor) (a : α) (c' : Cursor), d c = .ok a c' →
    ∃ used, c.Takes used c' ∧ (c'.rest = [] → ReadsAll d used a)

theorem LocalAll.of_local {least : Nat} {d : Decoder α} (h : ∀ room, Local least room d d) :
    LocalAll d := by
  intro c a c' result
  obtain ⟨used, takes, -, reads⟩ := Local.takes h result
  exact ⟨used, takes, fun _ => reads.all⟩

theorem localAll_customSection : LocalAll customSection := by
  intro c custom c' result
  obtain ⟨name, c₁, first, result⟩ := EStateM.bind_eq_ok.mp result
  obtain ⟨used, takes, -, reads⟩ :=
    Local.takes (fun room => (Local.compositional room).string) first
  cases result
  have rest : c₁.Takes c₁.rest (c₁.skip c₁.rest.length) := ⟨by simp [Cursor.skip], rfl, rfl⟩
  exact ⟨used ++ c₁.rest, takes.append rest, fun _ =>
    ReadsAll.bind reads (ReadsAll.allBytes c₁.rest).bindPure⟩

end Decoder

end Wasm
