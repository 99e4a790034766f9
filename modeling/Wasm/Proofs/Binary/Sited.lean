import Wasm.Proofs.Binary.Compositional

/-!
# Where decoders fail

A fault is reported at an offset that was remembered before the faulty bytes
were read, or where reading stopped, or at the end of the input. `Sited least d`
puts all of these into one interval: from `least`, which is no further than
the cursor that `d` starts at, to the end of what `d` may read. It also says
that the open section does not change. The law composes because a decoder that
succeeds moves its cursor forwards and leaves the end where it is. With the end
fixed, as `SitedIn` has it, both sides of an offset are known once it has been
remembered.
-/

namespace Wasm

/-- The cursor `c'` is further on than `c`, in the same input and section. -/
structure Cursor.Onward (c c' : Cursor) : Prop where
  offset : c.offset ≤ c'.offset
  endOffset : c'.endOffset = c.endOffset
  sectionId : c'.sectionId = c.sectionId

theorem Cursor.Onward.refl (c : Cursor) : c.Onward c := ⟨Nat.le_refl _, rfl, rfl⟩

theorem Cursor.Onward.trans {c c₁ c₂ : Cursor} (first : c.Onward c₁) (second : c₁.Onward c₂) :
    c.Onward c₂ where
  offset := Nat.le_trans first.offset second.offset
  endOffset := second.endOffset.trans first.endOffset
  sectionId := second.sectionId.trans first.sectionId

theorem Cursor.offset_le_endOffset (c : Cursor) : c.offset ≤ c.endOffset := Nat.le_add_right _ _

theorem Cursor.onward_skip {c : Cursor} {n : Nat} (there : n ≤ c.rest.length) :
    c.Onward (c.skip n) where
  offset := Nat.le_add_right _ _
  endOffset := by
    simp only [Cursor.endOffset, Cursor.skip, List.length_drop]
    omega
  sectionId := rfl

namespace Decoder

variable {α β : Type} {least finish : Nat}

/-- Started at `least` or behind it, `d` moves on, or it fails between `least`
and the end of its input, in the section that is open. -/
structure Sited (least : Nat) (d : Decoder α) : Prop where
  moves : ∀ c a c', least ≤ c.offset → d c = .ok a c' → c.Onward c'
  fails : ∀ c e c', least ≤ c.offset → d c = .error e c' →
    least ≤ e.offset ∧ e.offset ≤ c.endOffset ∧ e.sectionId = c.sectionId

/-- The same in all inputs that end at `finish`. -/
structure SitedIn (least finish : Nat) (d : Decoder α) : Prop where
  moves : ∀ c a c', least ≤ c.offset → c.endOffset = finish → d c = .ok a c' → c.Onward c'
  fails : ∀ c e c', least ≤ c.offset → c.endOffset = finish → d c = .error e c' →
    least ≤ e.offset ∧ e.offset ≤ finish ∧ e.sectionId = c.sectionId

theorem Sited.of_in {d : Decoder α} (h : ∀ finish, SitedIn least finish d) : Sited least d where
  moves c a c' behind result := (h c.endOffset).moves c a c' behind rfl result
  fails c e c' behind result := (h c.endOffset).fails c e c' behind rfl result

/-! ## Steps -/

theorem SitedIn.pure (a : α) : SitedIn least finish (pure a) where
  moves := by
    rintro c b c' - - ⟨⟩
    exact .refl c
  fails := by
    rintro c e c' - - ⟨⟩

theorem SitedIn.bind {d : Decoder α} {f : α → Decoder β} (first : SitedIn least finish d)
    (second : ∀ a, SitedIn least finish (f a)) : SitedIn least finish (d >>= f) where
  moves := by
    intro c b c' behind ends result
    obtain ⟨a, c₁, read, result⟩ := EStateM.bind_eq_ok.mp result
    have onward := first.moves c a c₁ behind ends read
    exact onward.trans ((second a).moves c₁ b c' (Nat.le_trans behind onward.offset)
      (onward.endOffset.trans ends) result)
  fails := by
    intro c e c' behind ends result
    rcases EStateM.bind_eq_error.mp result with failed | ⟨a, c₁, read, failed⟩
    · exact first.fails c e c' behind ends failed
    · have onward := first.moves c a c₁ behind ends read
      obtain ⟨after, before, same⟩ := (second a).fails c₁ e c'
        (Nat.le_trans behind onward.offset) (onward.endOffset.trans ends) failed
      exact ⟨after, before, same.trans onward.sectionId⟩

/-- A step that looks at the cursor and leaves it where it is. -/
theorem SitedIn.looking {d : Decoder α} (still : ∀ c, ∃ a, d c = .ok a c) :
    SitedIn least finish d where
  moves := by
    intro c a c' _ _ result
    obtain ⟨b, read⟩ := still c
    cases read.symm.trans result
    exact .refl c
  fails := by
    intro c e c' _ _ result
    obtain ⟨b, read⟩ := still c
    cases read.symm.trans result

/-- An offset that a fault may be reported at. -/
def Mark (least finish start : Nat) : Prop := least ≤ start ∧ start ≤ finish

theorem Mark.offset {c : Cursor} (behind : least ≤ c.offset) (ends : c.endOffset = finish) :
    Mark least finish c.offset :=
  ⟨behind, Nat.le_trans c.offset_le_endOffset (Nat.le_of_eq ends)⟩

theorem SitedIn.failAt {start : Nat} (mark : Mark least finish start) (fault : DecodeFault) :
    SitedIn least finish (failAt (α := α) start fault) where
  moves := by
    rintro c a c' - - ⟨⟩
  fails := by
    rintro c e c' - - ⟨⟩
    exact ⟨mark.1, mark.2, rfl⟩

theorem SitedIn.atOffset {f : Nat → Decoder β}
    (h : ∀ {start}, Mark least finish start → SitedIn least finish (f start)) :
    SitedIn least finish (offset >>= f) where
  moves c b c' behind ends result := (h (.offset behind ends)).moves c b c' behind ends result
  fails c e c' behind ends result := (h (.offset behind ends)).fails c e c' behind ends result

theorem SitedIn.fail (fault : DecodeFault) : SitedIn least finish (fail (α := α) fault) :=
  SitedIn.atOffset fun mark => SitedIn.failAt mark fault

theorem SitedIn.failAtEnd : SitedIn least finish (failAtEnd (α := α)) where
  moves := by
    rintro c a c' - - ⟨⟩
  fails := by
    rintro c e c' behind ends ⟨⟩
    exact ⟨Nat.le_trans behind c.offset_le_endOffset, Nat.le_of_eq ends, rfl⟩

theorem SitedIn.atLeast {n : Nat} {d : Decoder β} (h : SitedIn least finish d) :
    SitedIn least finish
      (hasAtLeast n >>= fun there => if there then d else Decoder.failAtEnd) := by
  refine (SitedIn.looking fun c => ⟨Bytes.hasAtLeast n c.rest, rfl⟩).bind fun there => ?_
  cases there with
  | false => exact SitedIn.failAtEnd
  | true => exact h

theorem sitedIn_byte : SitedIn least finish byte where
  moves := by
    rintro ⟨offset, rest, id⟩ b c' - - read
    cases rest with
    | nil => cases read
    | cons head tail =>
        cases read
        exact Cursor.onward_skip (n := 1) (c := ⟨offset, b :: tail, id⟩) (Nat.succ_pos _)
  fails := by
    rintro ⟨offset, rest, id⟩ e c' behind ends read
    cases rest with
    | nil => exact (SitedIn.fail _).fails _ e c' behind ends read
    | cons head tail => cases read

theorem sitedIn_peek : SitedIn least finish peek where
  moves := by
    rintro ⟨offset, rest, id⟩ b c' - - read
    cases rest with
    | nil => cases read
    | cons head tail =>
        cases read
        exact .refl _
  fails := by
    rintro ⟨offset, rest, id⟩ e c' behind ends read
    cases rest with
    | nil => exact (SitedIn.fail _).fails _ e c' behind ends read
    | cons head tail => cases read

theorem sitedIn_bytes (n : Nat) : SitedIn least finish (bytes n) where
  moves := by
    intro c value c' _ _ read
    rw [bytes] at read
    split at read
    · rename_i there
      cases read
      exact Cursor.onward_skip ((Bytes.hasAtLeast_iff n c.rest).mp there)
    · cases read
  fails := by
    intro c e c' behind ends read
    rw [bytes] at read
    split at read
    · cases read
    · exact SitedIn.failAtEnd.fails c e c' behind ends read

theorem sitedIn_allBytes : SitedIn least finish allBytes where
  moves := by
    rintro c value c' - - ⟨⟩
    exact Cursor.onward_skip (Nat.le_refl _)
  fails := by
    rintro c e c' - - ⟨⟩

/-- The law is about one decoder, and so holds of both decoders of a pair. -/
theorem SitedIn.compositional (least finish : Nat) :
    Compositional (fun start start' => Mark least finish start ∧ Mark least finish start')
      fun _ _ d d' => SitedIn least finish d ∧ SitedIn least finish d' where
  pure a := ⟨.pure a, .pure a⟩
  seq first second := ⟨first.1.bind fun a => (second a).1, first.2.bind fun a => (second a).2⟩
  fewer h _ := h
  failAt marks fault := ⟨.failAt marks.1 fault, .failAt marks.2 fault⟩
  fail fault := ⟨.fail fault, .fail fault⟩
  failAtEnd := ⟨.failAtEnd, .failAtEnd⟩
  atOffset h := ⟨.atOffset fun mark => (h ⟨mark, mark⟩).1, .atOffset fun mark => (h ⟨mark, mark⟩).2⟩
  atLeast h := ⟨h.1.atLeast, h.2.atLeast⟩
  peekBind h := ⟨sitedIn_peek.bind fun b => (h b).1, sitedIn_peek.bind fun b => (h b).2⟩
  byte := ⟨sitedIn_byte, sitedIn_byte⟩
  bytes n := ⟨sitedIn_bytes n, sitedIn_bytes n⟩

/-! ## Code -/

/-- The induction is on the fuel, and the interval is as wide for the bodies
inside an instruction as for what follows it. -/
theorem sitedIn_body (fuel depth : Nat) (inThenArm : Bool) :
    SitedIn least finish (body fuel depth inThenArm) := by
  induction fuel generalizing depth inThenArm with
  | zero => exact SitedIn.failAtEnd
  | succ fuel ih =>
      have law := SitedIn.compositional least finish
      have inner : ∀ arm, SitedIn least finish (nested depth (body fuel (depth + 1) arm)) := by
        intro arm
        have inside := ih (depth + 1) arm
        exact (law.nested depth ⟨inside, inside⟩).1
      have rest := ih depth inThenArm
      rw [body_succ]
      refine SitedIn.atOffset fun mark => sitedIn_byte.bind fun b => ?_
      exact (law.bodyBehind (fun arm => ⟨inner arm, inner arm⟩) ⟨rest, rest⟩ inThenArm
        ⟨mark, mark⟩ b).1

theorem sitedIn_expr : SitedIn least finish expr :=
  (SitedIn.looking fun c => ⟨c.rest.length, rfl⟩).bind fun fuel =>
    (sitedIn_body (fuel + 1) 0 false).bind fun _ => SitedIn.pure _

/-! ## The content of sections -/

theorem sitedIn_functionBody : SitedIn least finish functionBody := by
  have law := SitedIn.compositional least finish
  rw [functionBody_eq]
  refine law.u32.1.bind fun size => SitedIn.atOffset fun _ => ?_
  refine (SitedIn.looking fun c => ⟨Bytes.hasAtLeast size.toNat c.rest, rfl⟩).bind fun there => ?_
  cases there with
  | false => exact SitedIn.fail _
  | true =>
      refine (law.localsAndCode ⟨sitedIn_expr, sitedIn_expr⟩).1.bind fun result => ?_
      refine SitedIn.atOffset fun _ => ?_
      split
      · exact SitedIn.pure _
      · exact SitedIn.fail _

theorem sitedIn_customSection : SitedIn least finish customSection := by
  have law := SitedIn.compositional least finish
  exact law.string.1.bind fun _ => sitedIn_allBytes.bind fun _ => SitedIn.pure _

theorem sited_sectionContent (s : SectionContents) (kind : SectionKind) :
    Sited least (sectionContent s kind) := by
  refine Sited.of_in fun finish => ?_
  have law := SitedIn.compositional least finish
  have code : SitedIn least finish expr ∧ SitedIn least finish expr := ⟨sitedIn_expr, sitedIn_expr⟩
  have body := @sitedIn_functionBody least finish
  cases kind with
  | custom => exact sitedIn_customSection.bind fun _ => .pure _
  | types => exact (law.counted law.funcType _ _).1.bind fun _ => .pure _
  | imports => exact (law.counted law.importItem _ _).1.bind fun _ => .pure _
  | functions => exact (law.counted law.u32 _ _).1.bind fun _ => .pure _
  | tables => exact (law.counted law.tableType _ _).1.bind fun _ => .pure _
  | memories => exact (law.counted law.memoryType _ _).1.bind fun _ => .pure _
  | globals => exact (law.counted (law.global code) _ _).1.bind fun _ => .pure _
  | exports => exact (law.counted law.exportItem _ _).1.bind fun _ => .pure _
  | start | dataCount => exact law.u32.1.bind fun _ => .pure _
  | elements => exact (law.counted (law.elementSegment code) _ _).1.bind fun _ => .pure _
  | code => exact (law.counted ⟨body, body⟩ _ _).1.bind fun _ => .pure _
  | data => exact (law.counted (law.dataSegment code) _ _).1.bind fun _ => .pure _

/-- What fails in a section fails inside its payload, and the section is named. -/
theorem within_eq_error {α : Type} {content : Decoder α} {size : Nat} {id : SectionId}
    {c c' : Cursor} {e : DecodeError} (h : Sited c.offset content)
    (failed : within size id content c = .error e c') :
    c.offset ≤ e.offset ∧ e.offset ≤ c.offset + (c.rest.take size).length ∧
      e.sectionId = some id := by
  -- The content is read from a cursor that ends where the section ends.
  let start : Cursor := { c with rest := c.rest.take size, sectionId := some id }
  rw [within] at failed
  split at failed
  · rename_i e' inner read
    cases failed
    exact h.fails start e inner (Nat.le_refl _) read
  · rename_i a inner read
    split at failed
    · cases failed
    · have onward := h.moves start a inner (Nat.le_refl _) read
      cases failed
      refine ⟨onward.offset, ?_, onward.sectionId⟩
      exact Nat.le_trans c'.offset_le_endOffset (Nat.le_of_eq onward.endOffset)

end Decoder

end Wasm
