import Wasm.Proofs.Binary.Bounded

/-!
# Instruction streams in place

Code that makes sense and is small enough has one binary form, and this form
is found wherever it stands: behind any bytes and in front of any others, the
decoder takes all of it and nothing else. What makes sense is said of each
instruction alone, and what is small enough of the code as a whole. The two
together are what the decoder asks for on the way down, so representable code
is described without a depth that grows from body to body.
-/

namespace Wasm

open Decoder

/-! ## Representable code -/

mutual

theorem Immediate.representable_of_shaped : (depth : Nat) → (immediate : Immediate) →
    immediate.Bounded → (∀ instr ∈ immediate.everywhere, instr.Shaped) →
    depth + immediate.nesting ≤ Bound.nesting.toNat → immediate.Representable depth
  | depth, .block _ body, _, shaped, shallow => by
      rw [Immediate.everywhere] at shaped
      rw [Immediate.nesting] at shallow
      constructor
      · omega
      · exact Instr.allRepresentable_of_shaped (depth + 1) body shaped (by omega)
  | depth, .ifThen _ thenBody, _, shaped, shallow => by
      rw [Immediate.everywhere] at shaped
      rw [Immediate.nesting] at shallow
      constructor
      · omega
      · exact Instr.allRepresentable_of_shaped (depth + 1) thenBody shaped (by omega)
  | depth, .ifElse _ thenBody elseBody, _, shaped, shallow => by
      rw [Immediate.everywhere, List.forall_mem_append] at shaped
      rw [Immediate.nesting] at shallow
      refine ⟨by omega, ?_, ?_⟩
      · exact Instr.allRepresentable_of_shaped (depth + 1) thenBody shaped.1 (by omega)
      · exact Instr.allRepresentable_of_shaped (depth + 1) elseBody shaped.2 (by omega)
  | _, .brTable _ _, bounded, _, _ | _, .valTypes _, bounded, _, _
  | _, .refType _, bounded, _, _ => bounded
  | _, .none, _, _, _ | _, .i32 _, _, _, _ | _, .i64 _, _, _, _ | _, .f32 _, _, _, _
  | _, .f64 _, _, _, _ | _, .v128 _, _, _, _ | _, .index _, _, _, _ | _, .indexPair _ _, _, _, _
  | _, .memArg _, _, _, _ | _, .lane _, _, _, _ | _, .shuffle _, _, _, _
  | _, .callIndirect _ _, _, _, _ | _, .reserved, _, _, _ => trivial

/-- The conditions on single instructions and on the nesting of the whole are
all that there is to representable code. -/
theorem Instr.allRepresentable_of_shaped : (depth : Nat) → (code : List Instr) →
    (∀ instr ∈ Instr.everywhere code, instr.Shaped) →
    depth + Instr.nesting code ≤ Bound.nesting.toNat → Instr.AllRepresentable depth code
  | _, [], _, _ => trivial
  | depth, .mk name immediate :: rest, shaped, shallow => by
      rw [Instr.everywhere, List.forall_mem_cons, List.forall_mem_append] at shaped
      rw [Instr.nesting] at shallow
      obtain ⟨first, inside, others⟩ := shaped
      refine ⟨⟨first.known, ?_⟩, ?_⟩
      · exact Immediate.representable_of_shaped depth immediate first.bounded inside (by omega)
      · exact Instr.allRepresentable_of_shaped depth rest others (by omega)

end

theorem representableExpr_iff {code : List Instr} : RepresentableExpr code ↔
    (∀ instr ∈ Instr.everywhere code, instr.Shaped) ∧
      Instr.nesting code ≤ Bound.nesting.toNat := by
  constructor
  · intro rep
    refine ⟨Instr.shaped_everywhere 0 code rep, ?_⟩
    have shallow := Instr.nesting_le 0 code (Nat.zero_le _) rep
    rwa [Nat.zero_add] at shallow
  · rintro ⟨shaped, shallow⟩
    exact Instr.allRepresentable_of_shaped 0 code shaped (by rwa [Nat.zero_add])

/-! ## Streams -/

/-- Representable code has a binary form, and where an input holds this form,
the decoder returns the code and stops behind it. No other representable code
has a form that an input could begin with as well. -/
theorem Instr.expr_encodeExpr {code : List Instr}
    (shaped : ∀ instr ∈ Instr.everywhere code, instr.Shaped)
    (shallow : Instr.nesting code ≤ Bound.nesting.toNat) :
    ∃ bytes, encodeExpr code = .ok bytes ∧
      (∀ front back : Bytes, expr (Cursor.ofInput (front ++ bytes ++ back) front.length) =
        .ok code ⟨front.length + bytes.length, back, none⟩) ∧
      ∀ (other : List Instr) (otherBytes rest rest' : Bytes), RepresentableExpr other →
        encodeExpr other = .ok otherBytes → bytes ++ rest = otherBytes ++ rest' →
        other = code ∧ rest' = rest := by
  have rep : RepresentableExpr code := representableExpr_iff.mpr ⟨shaped, shallow⟩
  obtain ⟨bytes, encoded, reads⟩ := reads_expr rep
  refine ⟨bytes, encoded, reads.inPlace, ?_⟩
  intro other otherBytes rest rest' repOther encodedOther same
  obtain ⟨_, encoded', readsOther⟩ := reads_expr repOther
  cases encodedOther.symm.trans encoded'
  obtain ⟨rfl, -, rfl⟩ := reads.unique readsOther same
  exact ⟨rfl, rfl⟩

/-- An empty `else` is kept apart from none, a block type with the seven bits of
a value type is not taken for it, and an operand may be the byte of an `end`. -/
theorem Instr.expr_encodeExpr_emptyElse :
    let code : List Instr := [.mk "block" (.block (.funcType 0x7F)
      [.mk "i32.const" (.i32 0x0B), .mk "if" (.ifElse .empty [] []),
        .mk "if" (.ifThen .empty [.mk "br_table" (.brTable [0, 5] 1)]),
        .mk "ref.null" (.refType .externRef)])]
    let bytes : Bytes := [0x02, 0xFF, 0x00, 0x41, 0x0B, 0x04, 0x40, 0x05, 0x0B, 0x04, 0x40,
      0x0E, 0x02, 0x00, 0x05, 0x01, 0x0B, 0xD0, 0x6F, 0x0B, 0x0B]
    (∀ instr ∈ Instr.everywhere code, instr.Shaped) ∧
      Instr.nesting code ≤ Bound.nesting.toNat ∧ encodeExpr code = .ok bytes ∧
      expr (Cursor.ofInput ([0x0B] ++ bytes ++ [0x05, 0x0B]) 1) =
        .ok code ⟨22, [0x05, 0x0B], none⟩ := by
  intro code bytes
  have rep : RepresentableExpr code := by decide +kernel
  obtain ⟨shaped, shallow⟩ := representableExpr_iff.mp rep
  have encoded : encodeExpr code = .ok bytes := by decide +kernel
  obtain ⟨bytes', encoded', read, -⟩ := Instr.expr_encodeExpr shaped shallow
  cases encoded.symm.trans encoded'
  exact ⟨shaped, shallow, encoded, read [0x0B] [0x05, 0x0B]⟩

end Wasm
