import Wasm.Proofs.Binary.Representable

/-!
# What a decoder returns

`Yields d P` says that whatever `d` returns, on any input, satisfies `P`. It
says nothing about the bytes: a decoder may take several spellings of a value,
and none of them changes which values there are.
-/

namespace Wasm.Decoder

variable {α β : Type} {P : α → Prop} {Q : β → Prop}

def Yields (d : Decoder α) (P : α → Prop) : Prop :=
  ∀ (c : Cursor) (a : α) (c' : Cursor), d c = .ok a c' → P a

/-! ## Sequencing -/

theorem Yields.pure {a : α} (h : P a) : Yields (Pure.pure a) P := by
  rintro c b c' ⟨⟩
  exact h

theorem Yields.mono {P' : α → Prop} {d : Decoder α} (h : Yields d P) (weaker : ∀ a, P a → P' a) :
    Yields d P' :=
  fun c a c' result => weaker a (h c a c' result)

theorem Yields.bind {d : Decoder α} {f : α → Decoder β} (first : Yields d P)
    (second : ∀ a, P a → Yields (f a) Q) : Yields (d >>= f) Q := by
  intro c b c' result
  cases h : d c with
  | ok a inner =>
      rw [show (d >>= f) c = f a inner by simp only [Bind.bind, EStateM.bind, h]] at result
      exact second a (first c a inner h) inner b c' result
  | error e inner =>
      rw [show (d >>= f) c = .error e inner by simp only [Bind.bind, EStateM.bind, h]] at result
      cases result

/-- A first part that returns anything. -/
theorem Yields.after {d : Decoder α} {f : α → Decoder β} (h : ∀ a, Yields (f a) Q) :
    Yields (d >>= f) Q :=
  Yields.bind (fun _ _ _ _ => trivial) fun a (_ : True) => h a

/-! ## Failing -/

theorem Yields.failAt (offset : Nat) (fault : DecodeFault) : Yields (failAt offset fault) P := by
  rintro c a c' ⟨⟩

theorem Yields.fail (fault : DecodeFault) : Yields (fail fault) P := by
  rintro c a c' ⟨⟩

theorem Yields.failAtEnd : Yields failAtEnd P := by
  rintro c a c' ⟨⟩

theorem Yields.ite {p : Prop} [Decidable p] {d d' : Decoder α} (pos : p → Yields d P)
    (neg : ¬p → Yields d' P) : Yields (if p then d else d') P := by
  by_cases h : p
  · rw [if_pos h]
    exact pos h
  · rw [if_neg h]
    exact neg h

/-! ## Lists and sections -/

theorem Yields.list {item : Decoder α} (h : Yields item P) (n : Nat) :
    Yields (list item n) fun items => items.length = n ∧ ∀ a ∈ items, P a := by
  induction n with
  | zero => exact Yields.pure ⟨rfl, by simp⟩
  | succ n ih =>
      refine h.bind fun head first => ih.bind fun tail others => Yields.pure ⟨?_, ?_⟩
      · rw [List.length_cons, others.1]
      · exact List.forall_mem_cons.mpr ⟨first, others.2⟩

theorem Yields.within {content : Decoder α} (h : Yields content P) (size : Nat) (id : SectionId) :
    Yields (within size id content) P := by
  intro c a c' result
  rw [Decoder.within] at result
  split at result
  · cases result
  · rename_i b inner read
    split at result
    · cases result
      exact h _ _ _ read
    · cases result

end Wasm.Decoder

namespace Wasm.Codec

open Decoder

variable {α : Type} {P : α → Prop}

/-! ## Vectors -/

theorem yields_count (what : String) (limit : UInt32) :
    Yields (count what limit) fun n => n ≤ limit.toNat := by
  refine Yields.after fun start => Yields.after fun n => ?_
  refine Yields.ite (fun _ => Yields.failAt _ _) fun within => Yields.after fun there => ?_
  exact Yields.ite (fun _ => Yields.pure (Nat.not_lt.mp within)) fun _ => Yields.failAtEnd

/-- A vector is within its bound, and its items are what the items can be. -/
theorem yields_counted {item : Decoder α} (h : Yields item P) (what : String) (limit : UInt32) :
    Yields (counted what limit item) fun items =>
      items.length ≤ limit.toNat ∧ ∀ a ∈ items, P a := by
  refine (yields_count what limit).bind fun n bounded => (h.list n).mono ?_
  rintro items ⟨rfl, each⟩
  exact ⟨bounded, each⟩

theorem yields_length (item : Decoder α) (what : String) (limit : UInt32) :
    Yields (counted what limit item) fun items => items.length ≤ limit.toNat :=
  (yields_counted (P := fun _ => True) (fun _ _ _ _ => trivial) what limit).mono fun _ h => h.1

/-! ## Types -/

theorem yields_refType : Yields refType fun type => type.isRef = true := by
  refine Yields.after fun start => Yields.after fun type => ?_
  exact Yields.ite (fun isRef => Yields.pure isRef) fun _ => Yields.failAt _ _

theorem yields_funcType : Yields funcType.decode FuncType.Representable := by
  refine Yields.after fun _ => (yields_length _ _ _).bind fun params few => ?_
  exact (yields_length _ _ _).bind fun results few' => Yields.pure ⟨few, few'⟩

theorem yields_tableType : Yields tableType.decode TableType.Representable :=
  yields_refType.bind fun _ isRef => Yields.after fun _ => Yields.pure isRef

theorem yields_memoryType : Yields memoryType.decode MemoryType.Representable := by
  refine Yields.after fun flag => Yields.ite (fun _ => ?_) fun _ => ?_
  · exact Yields.after fun _ => Yields.after fun min => Yields.after fun max =>
      Yields.pure fun _ => rfl
  · exact Yields.after fun limits => Yields.pure nofun

end Wasm.Codec
