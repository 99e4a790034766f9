import Wasm.Proofs.Binary.Sited

/-!
# More input changes nothing but a missing end

What a decoder does on some input, it does on every longer one as well: it
returns the same value, or it fails with the same error. There is only one way
in which the longer input makes a difference, and this is that the shorter one
ended too early, which is reported where it ended. `Persistent d d'` compares
two decoders because the fuel of a loop grows with the input. No law of this
kind holds for the content of a section, which may take all that is left.
-/

namespace Wasm

/-- The same place in a longer input. -/
def Cursor.extend (c : Cursor) (more : Bytes) : Cursor := { c with rest := c.rest ++ more }

theorem Cursor.le_extend (c : Cursor) {more : Bytes} {n : Nat} (there : n ≤ c.rest.length) :
    n ≤ (c.extend more).rest.length := by
  rw [Cursor.extend, List.length_append]
  omega

namespace Decoder

variable {α β : Type}

/-- Three ways in which `d` can end, each with what `d'` does if `more` follows
the input. -/
inductive Persists (d d' : Decoder α) (c : Cursor) (more : Bytes) : Prop
  | read {a : α} {c' : Cursor} (result : d c = .ok a c')
      (longer : d' (c.extend more) = .ok a (c'.extend more)) (onward : c.Onward c')
  | failed {e : DecodeError} {c' c'' : Cursor} (result : d c = .error e c')
      (longer : d' (c.extend more) = .error e c'')
  | ended {c' : Cursor} (result : d c = .error ⟨c.endOffset, c.sectionId, .unexpectedEnd⟩ c')

/-- Unless its input ends too early, `d` does what `d'` does on all longer inputs. -/
def Persistent (d d' : Decoder α) : Prop := ∀ c more, Persists d d' c more

/-- The input of a decoder that succeeds, cut off before the place that it
comes to: the end is missed, and reported where it is. -/
theorem Persistent.truncated {d : Decoder α} (h : Persistent d d) {c c' : Cursor} {a : α}
    (result : d c = .ok a c') {front back : Bytes} (split : c.rest = front ++ back)
    (short : c.offset + front.length < c'.offset) :
    ∃ c'', d ⟨c.offset, front, c.sectionId⟩ =
      .error ⟨c.offset + front.length, c.sectionId, .unexpectedEnd⟩ c'' := by
  have whole : Cursor.extend ⟨c.offset, front, c.sectionId⟩ back = c := by
    rw [Cursor.extend, ← split]
  cases h ⟨c.offset, front, c.sectionId⟩ back with
  | @read b c₁ read longer onward =>
      rw [whole, result] at longer
      cases longer
      have inside : c₁.offset ≤ c.offset + front.length := by
        have finish : c₁.endOffset = c.offset + front.length := onward.endOffset
        have behind := c₁.offset_le_endOffset
        omega
      exact absurd inside (Nat.not_le.mpr short)
  | failed read longer =>
      rw [whole, result] at longer
      cases longer
  | ended read => exact ⟨_, read⟩

/-! ## Sequencing -/

theorem Persistent.pure (a : α) : Persistent (pure a) (pure a) :=
  fun c _ => .read rfl rfl (.refl c)

theorem Persistent.bind {d d' : Decoder α} {f f' : α → Decoder β} (first : Persistent d d')
    (second : ∀ a, Persistent (f a) (f' a)) : Persistent (d >>= f) (d' >>= f') := by
  intro c more
  cases first c more with
  | @read a c₁ read longer onward =>
      cases second a c₁ more with
      | read read' longer' onward' =>
          exact .read (EStateM.bind_eq_ok.mpr ⟨a, c₁, read, read'⟩)
            (EStateM.bind_eq_ok.mpr ⟨a, _, longer, longer'⟩) (onward.trans onward')
      | failed read' longer' =>
          exact .failed (EStateM.bind_eq_error.mpr (.inr ⟨a, c₁, read, read'⟩))
            (EStateM.bind_eq_error.mpr (.inr ⟨a, _, longer, longer'⟩))
      | ended read' =>
          rw [onward.endOffset, onward.sectionId] at read'
          exact .ended (EStateM.bind_eq_error.mpr (.inr ⟨a, c₁, read, read'⟩))
  | failed read longer =>
      exact .failed (EStateM.bind_eq_error.mpr (.inl read))
        (EStateM.bind_eq_error.mpr (.inl longer))
  | ended read => exact .ended (EStateM.bind_eq_error.mpr (.inl read))

/-! ## Failing -/

theorem Persistent.failAt (offset : Nat) (fault : DecodeFault) :
    Persistent (failAt offset fault : Decoder α) (failAt offset fault) :=
  fun _ _ => .failed rfl rfl

theorem Persistent.fail (fault : DecodeFault) :
    Persistent (fail fault : Decoder α) (fail fault) :=
  fun _ _ => .failed rfl rfl

theorem Persistent.failAtEnd (d' : Decoder α) : Persistent failAtEnd d' :=
  fun _ _ => .ended rfl

/-! ## Bytes -/

theorem Persistent.atOffset {f f' : Nat → Decoder β}
    (h : ∀ start, Persistent (f start) (f' start)) :
    Persistent (offset >>= f) (offset >>= f') := by
  refine Persistent.bind (fun c more => ?_) h
  exact .read rfl rfl (.refl c)

/-- A test whose failure means that the input ended too early. -/
theorem Persistent.atLeast {n : Nat} {d d' : Decoder β} (h : Persistent d d') :
    Persistent (hasAtLeast n >>= fun there => if there then d else Decoder.failAtEnd)
      (hasAtLeast n >>= fun there => if there then d' else Decoder.failAtEnd) := by
  intro c more
  have passed : ∀ (d : Decoder β) (c : Cursor), n ≤ c.rest.length →
      (hasAtLeast n >>= fun there => if there then d else Decoder.failAtEnd) c = d c := by
    intro d c there
    rw [hasAtLeast_bind, (Bytes.hasAtLeast_iff n c.rest).mpr there]
    rfl
  by_cases there : n ≤ c.rest.length
  · have longer := passed d' (c.extend more) (c.le_extend there)
    cases h c more with
    | read read read' onward =>
        exact .read ((passed d c there).trans read) (longer.trans read') onward
    | failed read read' => exact .failed ((passed d c there).trans read) (longer.trans read')
    | ended read => exact .ended ((passed d c there).trans read)
  · refine .ended (?_ : _ = EStateM.Result.error _ c)
    rw [hasAtLeast_bind, Bool.eq_false_iff.mpr (mt (Bytes.hasAtLeast_iff n c.rest).mp there)]
    rfl

/-- Fuel that grows with the input. -/
theorem Persistent.atRemaining {f f' : Nat → Decoder β}
    (h : ∀ left left', left ≤ left' → Persistent (f left) (f' left')) :
    Persistent (remaining >>= f) (remaining >>= f') := by
  intro c more
  have longer : c.rest.length ≤ (c.extend more).rest.length := c.le_extend (Nat.le_refl _)
  cases h _ _ longer c more with
  | read read read' onward => exact .read read read' onward
  | failed read read' => exact .failed read read'
  | ended read => exact .ended read

theorem persistent_byte : Persistent byte byte := by
  rintro ⟨offset, bytes, id⟩ more
  cases bytes with
  | nil => exact .ended rfl
  | cons b rest =>
      refine .read rfl rfl ⟨Nat.le_succ offset, ?_, rfl⟩
      simp only [Cursor.endOffset, List.length_cons]
      omega

theorem persistent_peek : Persistent peek peek := by
  rintro ⟨offset, bytes, id⟩ more
  cases bytes with
  | nil => exact .ended rfl
  | cons b rest => exact .read rfl rfl (.refl _)

theorem persistent_bytes (n : Nat) : Persistent (bytes n) (bytes n) := by
  intro c more
  by_cases there : n ≤ c.rest.length
  · have onward : c.Onward (c.skip n) := Cursor.onward_skip there
    refine .read (a := c.rest.take n) ?_ ?_ onward
    · rw [bytes, if_pos ((Bytes.hasAtLeast_iff n c.rest).mpr there)]
    · rw [bytes, if_pos ((Bytes.hasAtLeast_iff n (c.extend more).rest).mpr (c.le_extend there))]
      simp only [Cursor.extend, Cursor.skip, List.take_append_of_le_length there,
        List.drop_append_of_le_length there]
  · refine .ended (?_ : _ = EStateM.Result.error _ c)
    rw [bytes, if_neg (mt (Bytes.hasAtLeast_iff n c.rest).mp there)]
    rfl

theorem Persistent.compositional : Compositional Eq fun _ _ d d' => Persistent d d' where
  pure := Persistent.pure
  seq := Persistent.bind
  fewer h _ := h
  failAt marks fault := marks ▸ Persistent.failAt _ fault
  fail := Persistent.fail
  failAtEnd := Persistent.failAtEnd _
  atOffset h := Persistent.atOffset fun _ => h rfl
  atLeast := Persistent.atLeast
  peekBind := persistent_peek.bind
  byte := persistent_byte
  bytes := persistent_bytes

/-! ## Code -/

/-- The induction is on the fuel of the first reader. When it has none left, it
fails as if the input had ended, so that the second one may have more. -/
theorem persistent_body {fuel fuel' : Nat} (more : fuel ≤ fuel') (depth : Nat)
    (inThenArm : Bool) :
    Persistent (body fuel depth inThenArm) (body fuel' depth inThenArm) := by
  induction fuel generalizing fuel' depth inThenArm with
  | zero => exact Persistent.failAtEnd _
  | succ fuel ih =>
      obtain ⟨fuel', rfl⟩ : ∃ less, fuel' = less + 1 := ⟨fuel' - 1, by omega⟩
      have law := Persistent.compositional
      rw [body_succ, body_succ]
      refine Persistent.atOffset fun start => persistent_byte.bind fun b => ?_
      refine law.bodyBehind (fun arm => ?_) (ih (by omega) depth inThenArm) inThenArm rfl b
      exact law.nested depth (ih (by omega) (depth + 1) arm)

theorem persistent_expr : Persistent expr expr := by
  refine Persistent.atRemaining fun left left' more => ?_
  exact (persistent_body (by omega) 0 false).bind fun _ => Persistent.pure _

end Decoder

end Wasm
