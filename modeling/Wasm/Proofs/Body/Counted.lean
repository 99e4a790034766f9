import Wasm.Proofs.Body.Linkable

/-!
# One number for each reference

An instruction is written in two steps: its typing rule says what it refers
to, and once these references have numbers its linking rule makes the
immediate. For every definition of the standard set a list of numbers is
enough exactly if it has one for each reference. A list of any other length
is refused as a list of numbers that does not fit, also where the numbers are
divided among the bodies of a conditional.
-/

namespace Wasm

/-- Refused because the numbers do not fit. -/
def Unresolved {α : Type} (x : Except BuildError α) : Prop :=
  ∃ fault, x = .error (.unresolved fault)

section Sequences

variable {α β : Type} {x : Except BuildError α} {f : α → Except BuildError β}

theorem Unresolved.bind (refused : Unresolved x) : Unresolved (x >>= f) := by
  obtain ⟨fault, rfl⟩ := refused
  exact ⟨fault, rfl⟩

/-- A later part is refused. -/
theorem Unresolved.behind {a : α} (first : x = .ok a) (refused : Unresolved (f a)) :
    Unresolved (x >>= f) := by
  subst first
  exact refused

end Sequences

/-! ## Single instructions -/

section Single

variable {d : InstrDef} {effect : Effect} {indices : List UInt32}

theorem unresolved_linkFault {α : Type} (fault : LinkFault) :
    Unresolved (linkFault fault : Except BuildError α) :=
  ⟨fault, rfl⟩

theorem unresolved_wantCount {expected : Nat} (count : indices.length ≠ expected) :
    Unresolved (d.wantCount expected indices) := by
  rw [InstrDef.wantCount, if_neg count]
  exact unresolved_linkFault _

/-- A rule that wants one number takes no other list. -/
theorem unresolved_one {α : Type} {f : UInt32 → Except BuildError α} {fault : LinkFault}
    (count : indices.length ≠ 1) :
    Unresolved (match indices with
      | [n] => f n
      | _ => linkFault fault) := by
  match indices with
  | [] => exact unresolved_linkFault _
  | [n] => exact absurd rfl count
  | _ :: _ :: _ => exact unresolved_linkFault _

theorem unresolved_two {α : Type} {f : UInt32 → UInt32 → Except BuildError α} {fault : LinkFault}
    (count : indices.length ≠ 2) :
    Unresolved (match indices with
      | [n, m] => f n m
      | _ => linkFault fault) := by
  match indices with
  | [] => exact unresolved_linkFault _
  | [_] => exact unresolved_linkFault _
  | [n, m] => exact absurd rfl count
  | _ :: _ :: _ :: _ => exact unresolved_linkFault _

/-- Another list of numbers is refused, whatever was captured. -/
theorem InstrDef.Suits.unresolved (suits : d.Suits effect)
    (count : indices.length ≠ effect.references.length) :
    Unresolved (effect.capture.link d indices) := by
  rw [InstrDef.Suits] at suits
  unfold Capture.link
  cases rule : d.linking with
  | literal | memoryAccess =>
      rw [rule] at suits
      rw [suits.1] at count
      exact (unresolved_wantCount count).bind
  | index =>
      rw [rule] at suits
      have one : effect.references.length = 1 := by
        rcases suits.2 with refers | ⟨_, refers⟩ <;> rw [refers] <;> rfl
      exact unresolved_one (one ▸ count)
  | memoryCopy =>
      rw [rule] at suits
      rw [suits.2] at count
      exact unresolved_one count
  | refFunc =>
      rw [rule] at suits
      obtain ⟨-, id, refers⟩ := suits
      rw [refers] at count
      exact unresolved_two count
  | callIndirect | tableCopy =>
      rw [rule] at suits
      obtain ⟨-, _, _, refers⟩ := suits
      rw [refers] at count
      exact unresolved_two count
  | block | conditional =>
      rw [rule] at suits
      exact suits.elim

end Single

/-! ## Bodies -/

section Bodies

variable {d : InstrDef} {drafts elseDrafts : List Draft} {type : FuncType} {indices : List UInt32}

/-- Each draft takes as many numbers as it needs, so that some are missing or
left over in the end. -/
theorem Draft.unresolved_linkAll (each : ∀ draft ∈ drafts, draft.Linkable)
    (count : indices.length ≠ (allReferences drafts).length) :
    Unresolved (linkAll indices drafts) := by
  induction drafts generalizing indices with
  | nil =>
      cases indices with
      | nil => exact absurd rfl count
      | cons n rest =>
          rw [linkAll]
          exact (unresolved_linkFault _).bind
  | cons draft rest ih =>
      obtain ⟨first, others⟩ := List.forall_mem_cons.mp each
      rw [allReferences, List.flatMap_cons, List.length_append] at count
      rw [linkAll]
      by_cases enough : draft.references.length ≤ indices.length
      · obtain ⟨i, linked, -⟩ :=
          first (indices.take draft.references.length) (by rw [List.length_take]; omega)
        have left :
            (indices.drop draft.references.length).length ≠ (allReferences rest).length := by
          rw [List.length_drop, allReferences]
          omega
        have behind := ih others left
        rw [(Bytes.hasAtLeast_iff _ _).mpr enough]
        exact .behind linked behind.bind
      · have missing := mt (Bytes.hasAtLeast_iff _ _).mp enough
        simp only [missing]
        exact (unresolved_linkFault _).bind

/-- Either the number of the type is missing, or the numbers for the bodies do
not fit. -/
theorem blockType_of_length_ne
    (count : indices.length ≠ (InstrDef.structuredReferences type drafts).length) :
    Unresolved (d.blockType type indices) ∨ ∃ blockType rest,
      d.blockType type indices = .ok (blockType, rest) ∧
      rest.length ≠ (Draft.allReferences drafts).length := by
  by_cases enough : type.needsIndex = true → indices ≠ []
  · obtain ⟨blockType, rest, typed, takes⟩ := blockType_takes (d := d) enough drafts
    exact .inr ⟨blockType, rest, typed, mt takes.mp count⟩
  · obtain ⟨needed, missing⟩ := Classical.not_imp.mp enough
    obtain rfl := not_not.mp missing
    rw [InstrDef.blockType, if_pos needed]
    exact .inl (unresolved_linkFault _)

/-- The first of two bodies is linked, unless there are too few numbers for it. -/
theorem splitBodies_of_linkable (each : ∀ draft ∈ drafts, draft.Linkable) :
    Unresolved (d.splitBodies drafts indices) ∨ ∃ own others code,
      d.splitBodies drafts indices = .ok (own, others) ∧
      Draft.linkAll own drafts = .ok code ∧
      indices.length = (Draft.allReferences drafts).length + others.length := by
  by_cases enough : (Draft.allReferences drafts).length ≤ indices.length
  · have own : (indices.take (Draft.allReferences drafts).length).length =
        (Draft.allReferences drafts).length := by
      rw [List.length_take]
      omega
    obtain ⟨code, linked, -⟩ := Draft.linkAll_of_length each own
    refine .inr ⟨_, _, code, splitBodies_eq_ok.mpr ⟨enough, rfl, rfl⟩, linked, ?_⟩
    rw [List.length_drop]
    omega
  · have missing := mt (Bytes.hasAtLeast_iff _ _).mp enough
    rw [InstrDef.splitBodies, if_neg missing]
    exact .inl (unresolved_linkFault _)

theorem unresolved_block (rule : d.linking = .block) (each : ∀ draft ∈ drafts, draft.Linkable)
    (count : indices.length ≠ (InstrDef.structuredReferences type drafts).length) :
    Unresolved ((Capture.block type drafts).link d indices) := by
  unfold Capture.link
  rw [rule]
  rcases blockType_of_length_ne count with missing | ⟨blockType, rest, typed, others⟩
  · exact missing.bind
  · exact .behind typed (Draft.unresolved_linkAll each others).bind

/-- Numbers behind those of the only body are left over. -/
theorem unresolved_ifThen (rule : d.linking = .conditional)
    (each : ∀ draft ∈ drafts, draft.Linkable)
    (count : indices.length ≠ (InstrDef.structuredReferences type drafts).length) :
    Unresolved ((Capture.ifThen type drafts).link d indices) := by
  unfold Capture.link
  rw [rule]
  rcases blockType_of_length_ne count with missing | ⟨blockType, rest, typed, others⟩
  · exact missing.bind
  · refine .behind typed ?_
    rcases splitBodies_of_linkable each with few | ⟨own, left, code, split, linked, total⟩
    · exact few.bind
    · exact .behind split (.behind linked (unresolved_wantCount (by omega)).bind)

/-- Numbers behind those of the first body do not fit the second one. -/
theorem unresolved_ifElse (rule : d.linking = .conditional)
    (each : ∀ draft ∈ drafts, draft.Linkable) (eachElse : ∀ draft ∈ elseDrafts, draft.Linkable)
    (count : indices.length ≠ (InstrDef.structuredReferences type (drafts ++ elseDrafts)).length) :
    Unresolved ((Capture.ifElse type drafts elseDrafts).link d indices) := by
  unfold Capture.link
  rw [rule]
  rcases blockType_of_length_ne count with missing | ⟨blockType, rest, typed, others⟩
  · exact missing.bind
  · refine .behind typed ?_
    rw [Draft.allReferences, List.flatMap_append, List.length_append] at others
    rcases splitBodies_of_linkable each with few | ⟨own, left, code, split, linked, total⟩
    · exact few.bind
    · rw [Draft.allReferences] at total
      have leftOver : left.length ≠ (Draft.allReferences elseDrafts).length := by
        rw [Draft.allReferences]
        omega
      exact .behind split (.behind linked (Draft.unresolved_linkAll eachElse leftOver).bind)

end Bodies

/-! ## Both steps -/

/-- The two steps of an instruction agree. What a definition of the standard set
allows, with bodies that were made of such instructions, is linked by every
list with one number for each reference, to an immediate of the shape that the
definition has, at every depth. Every other list is refused because its numbers
do not fit. -/
theorem InstrDef.links_iff_counted {d : InstrDef} {c : Context} {argument : Argument}
    {effect : Effect} (known : d ∈ InstrSet.standard.defs)
    (made : ∀ draft ∈ argument.bodies, draft.Made)
    (allowed : d.effect c argument = .ok effect) (indices : List UInt32) :
    (indices.length = effect.references.length →
      ∃ i, effect.capture.link d indices = .ok i ∧ d.shape.fits i = true ∧ i.WellFormed) ∧
    (indices.length ≠ effect.references.length → Unresolved (effect.capture.link d indices)) := by
  have each : ∀ draft ∈ argument.bodies, draft.Linkable := fun draft member =>
    (made draft member).linkable
  refine ⟨InstrDef.link_of_effect known each allowed, fun count => ?_⟩
  have coherent := InstrSet.standard_coherent d known
  cases structured : d.shape.isStructured with
  | false => exact (coherent.suits structured allowed).unresolved count
  | true =>
      have links := coherent.links
      rcases coherent.bodies_of_structured structured allowed with
        ⟨type, body, rfl⟩ | ⟨type, body, rfl⟩ | ⟨type, body, elseBody, rfl⟩
      · obtain ⟨typing, rfl⟩ := d.effect_block allowed
        rw [typing] at links
        exact unresolved_block (beq_iff_eq.mp links) each count
      · obtain ⟨typing, rfl⟩ := d.effect_ifThen allowed
        rw [typing] at links
        exact unresolved_ifThen (beq_iff_eq.mp links) each count
      · obtain ⟨typing, rfl⟩ := d.effect_ifElse allowed
        rw [typing] at links
        obtain ⟨first, second⟩ := List.forall_mem_append.mp each
        exact unresolved_ifElse (beq_iff_eq.mp links) first second count

/-- A call in the first arm of a conditional with a parameter: the type and the
function have numbers. -/
theorem InstrDef.links_iff_counted_ifElse : ∃ d c argument effect,
    d ∈ InstrSet.standard.defs ∧ d.name = "if" ∧ (∀ draft ∈ argument.bodies, draft.Made) ∧
    argument.bodies.length = 1 ∧ d.effect c argument = .ok effect ∧
    (∃ i, effect.capture.link d [2, 7] = .ok i ∧ d.shape.fits i = true ∧ i.WellFormed) ∧
    Unresolved (effect.capture.link d [2]) := by
  have calls : ∃ d c effect, d ∈ InstrSet.standard.defs ∧
      d.effect c (.func ⟨default, ⟨[], []⟩⟩) = .ok effect ∧ effect.references.length = 1 :=
    ⟨_, default, _, (InstrSet.mem_of_named (rfl : InstrSet.standard.named "call" = .ok _)).1, rfl,
      rfl⟩
  obtain ⟨d, c, effect, known, allowed, one⟩ := calls
  have made : ∀ draft ∈ (Argument.ifElse ⟨[.i32], [.i32]⟩ [Context.draftOf d effect] []).bodies,
      draft.Made := List.forall_mem_singleton.mpr (.intro known (List.forall_mem_nil _) allowed)
  obtain ⟨d', named, typing⟩ :
      ∃ d', InstrSet.standard.named "if" = .ok d' ∧ d'.typing = .conditional := ⟨_, rfl, rfl⟩
  obtain ⟨known', isIf⟩ := InstrSet.mem_of_named named
  obtain ⟨effect', allowed', two⟩ : ∃ effect',
      d'.effect default (.ifElse ⟨[.i32], [.i32]⟩ [Context.draftOf d effect] []) = .ok effect' ∧
      effect'.references.length = 2 := by
    refine ⟨_, InstrDef.HasEffect.ifElse.eq_ok typing, ?_⟩
    show (Reference.signature ⟨[.i32], [.i32]⟩ :: (effect.references ++ [])).length = 2
    rw [List.append_nil, List.length_cons, one]
  refine ⟨d', default, _, effect', known', isIf, made, rfl, allowed', ?_, ?_⟩
  · exact (InstrDef.links_iff_counted known' made allowed' [2, 7]).1 two.symm
  · exact (InstrDef.links_iff_counted known' made allowed' [2]).2 (by rw [two]; decide)

end Wasm
