import Wasm.Proofs.Binary.WellFormed
import Wasm.Proofs.Body.Linked

/-!
# Whatever was written can be linked

The typing rule of an instruction says what it refers to and what is captured
of it, its linking rule says how many numbers it wants and what it makes of
them. For every definition of the standard set the two agree, so that a body
which calls made is linked by any list with a number for each of its
references, and becomes well-formed code.
-/

namespace Wasm

open Context (draftOf)

/-! ## Single instructions -/

/-- What an instruction without bodies refers to and captures is what its
linking rule wants, for an immediate of its shape. -/
def InstrDef.Suits (d : InstrDef) (effect : Effect) : Prop :=
  match d.linking with
  | .literal => effect.references = [] ∧
      ∃ i, effect.capture = .literal i ∧ d.shape.fits i = true ∧ i.WellFormed
  | .memoryAccess => effect.references = [.memoryUse] ∧
      ∃ i, effect.capture = .literal i ∧ d.shape.fits i = true ∧ i.WellFormed
  | .index => d.shape = .index ∧
      (effect.references = [.memoryUse] ∨ ∃ entity, effect.references = [.entity entity])
  | .refFunc => d.shape = .index ∧ ∃ id, effect.references = [.func id, .funcMention id]
  | .callIndirect => d.shape = .callIndirect ∧
      ∃ entity type, effect.references = [.entity entity, .signature type]
  | .memoryCopy => d.shape = .indexPair ∧ effect.references = [.memoryUse]
  | .tableCopy => d.shape = .indexPair ∧
      ∃ entity entity', effect.references = [.entity entity, .entity entity']
  | .block | .conditional => False

section Suits

variable {d : InstrDef} {c : Context} {argument : Argument} {effect : Effect}

theorem suits_literal {i : Immediate} (rule : d.linking = .literal)
    (refers : effect.references = []) (captured : effect.capture = .literal i)
    (fits : d.shape.fits i = true) (formed : i.WellFormed) : d.Suits effect := by
  rw [InstrDef.Suits, rule]
  exact ⟨refers, i, captured, fits, formed⟩

theorem suits_index {entity : Entity} (rule : d.linking = .index) (shape : d.shape = .index)
    (refers : effect.references = [.entity entity]) : d.Suits effect := by
  rw [InstrDef.Suits, rule]
  exact ⟨shape, .inr ⟨entity, refers⟩⟩

/-- Nothing more is asked of a constant than its shape. -/
theorem wellFormed_of_constant {rule : LinkRule} {shape : Shape} {i : Immediate}
    (shaped : TypingRule.constant.shapedBy rule shape = true) (fits : shape.fits i = true) :
    i.WellFormed := by
  cases shape with
  | i32 | i64 | f32 | f64 | v128 => cases i <;> trivial
  | _ => cases shaped

/-- An instruction on the memory names it once, or twice if it copies. -/
theorem suits_memory (coherent : d.Coherent) (typing : d.typing = .memory)
    (refers : effect.references = [.memoryUse]) : d.Suits effect := by
  obtain ⟨links, shapes, -⟩ := coherent
  rw [typing] at links shapes
  have rule : d.linking = .index ∨ d.linking = .memoryCopy := by
    simpa [TypingRule.linksBy] using links
  rcases rule with rule | rule <;> rw [rule] at shapes <;> rw [InstrDef.Suits, rule]
  · exact ⟨beq_iff_eq.mp shapes, .inl refers⟩
  · exact ⟨beq_iff_eq.mp shapes, refers⟩

/-- The rules of a definition agree on every use of it. -/
theorem InstrDef.Coherent.suits (coherent : d.Coherent) (plain : d.shape.isStructured = false)
    (allowed : d.effect c argument = .ok effect) : d.Suits effect := by
  have ⟨links, shapes, structured⟩ := coherent
  obtain ⟨rule, typing, derived⟩ := InstrDef.exists_hasEffect allowed
  rw [typing] at links shapes structured
  cases derived with
  | fixed | trap | fence | ret | drop | select | refIsNull | shuffle | localGet | localSet
  | localTee | br | brIf | brTable =>
      exact suits_literal (beq_iff_eq.mp links) rfl rfl (by rw [beq_iff_eq.mp shapes]; rfl) trivial
  | constant fits =>
      exact suits_literal (beq_iff_eq.mp links) rfl rfl fits (wellFormed_of_constant shapes fits)
  | lane shape => exact suits_literal (beq_iff_eq.mp links) rfl rfl (by rw [shape]; rfl) trivial
  | selectTyped =>
      exact suits_literal (beq_iff_eq.mp links) rfl rfl (by rw [beq_iff_eq.mp shapes]; rfl)
        (Nat.le_refl 1)
  | refNull isRef =>
      exact suits_literal (beq_iff_eq.mp links) rfl rfl (by rw [beq_iff_eq.mp shapes]; rfl) isRef
  | memory => exact suits_memory coherent typing rfl
  | naturalAccess shape | access shape =>
      rw [InstrDef.Suits, beq_iff_eq.mp links]
      exact ⟨rfl, _, rfl, by rw [shape]; rfl, trivial⟩
  | globalGet | globalSet | call | tableGet | tableSet | tableSize | tableGrow | tableFill =>
      exact suits_index (beq_iff_eq.mp links) (beq_iff_eq.mp shapes) rfl
  | refFunc =>
      rw [InstrDef.Suits, beq_iff_eq.mp links]
      exact ⟨beq_iff_eq.mp shapes, _, rfl⟩
  | callIndirect =>
      rw [InstrDef.Suits, beq_iff_eq.mp links]
      exact ⟨beq_iff_eq.mp shapes, _, _, rfl⟩
  | tableCopy =>
      rw [InstrDef.Suits, beq_iff_eq.mp links]
      exact ⟨beq_iff_eq.mp shapes, _, _, rfl⟩
  | block | ifThen | ifElse =>
      -- Bodies belong to structured instructions only.
      rw [plain] at structured
      cases structured

/-- As many numbers as there are references are what the linking rule wants. -/
theorem InstrDef.Suits.links (suits : d.Suits effect) {indices : List UInt32}
    (count : indices.length = effect.references.length) :
    ∃ i, effect.capture.link d indices = .ok i ∧ d.shape.fits i = true ∧ i.WellFormed := by
  rw [InstrDef.Suits] at suits
  split at suits
  · rename_i rule
    obtain ⟨refers, i, captured, fits, formed⟩ := suits
    rw [refers] at count
    exact ⟨i, (link_literal rule).mpr ⟨count, captured⟩, fits, formed⟩
  · rename_i rule
    obtain ⟨refers, i, captured, fits, formed⟩ := suits
    rw [refers] at count
    exact ⟨i, (link_memoryAccess rule).mpr ⟨count, captured⟩, fits, formed⟩
  · rename_i rule
    obtain ⟨shape, refers⟩ := suits
    have one : indices.length = 1 := by
      rcases refers with refers | ⟨_, refers⟩ <;> rw [count, refers] <;> rfl
    obtain ⟨n, rfl⟩ := List.length_eq_one_iff.mp one
    exact ⟨.index n, (link_index rule).mpr ⟨n, rfl, rfl⟩, by rw [shape]; rfl, trivial⟩
  · rename_i rule
    obtain ⟨shape, id, refers⟩ := suits
    rw [refers] at count
    obtain ⟨n, mark, rfl⟩ := List.length_eq_two.mp count
    exact ⟨.index n, (link_refFunc rule).mpr ⟨n, mark, rfl, rfl⟩, by rw [shape]; rfl, trivial⟩
  · rename_i rule
    obtain ⟨shape, entity, type, refers⟩ := suits
    rw [refers] at count
    obtain ⟨n, m, rfl⟩ := List.length_eq_two.mp count
    exact ⟨.callIndirect m n, (link_callIndirect rule).mpr ⟨n, m, rfl, rfl⟩, by rw [shape]; rfl,
      trivial⟩
  · rename_i rule
    obtain ⟨shape, refers⟩ := suits
    rw [refers] at count
    obtain ⟨n, rfl⟩ := List.length_eq_one_iff.mp count
    exact ⟨.indexPair n n, (link_memoryCopy rule).mpr ⟨n, rfl, rfl⟩, by rw [shape]; rfl, trivial⟩
  · rename_i rule
    obtain ⟨shape, entity, entity', refers⟩ := suits
    rw [refers] at count
    obtain ⟨n, m, rfl⟩ := List.length_eq_two.mp count
    exact ⟨.indexPair n m, (link_tableCopy rule).mpr ⟨n, m, rfl, rfl⟩, by rw [shape]; rfl, trivial⟩
  · cases suits
  · cases suits

end Suits

/-! ## Shares

A structured instruction divides its numbers. -/

/-- The type of a structured instruction takes the number that it needs, if it
needs one. -/
theorem blockType_takes {d : InstrDef} {type : FuncType} {indices : List UInt32}
    (enough : type.needsIndex = true → indices ≠ []) (bodies : List Draft) :
    ∃ blockType rest, d.blockType type indices = .ok (blockType, rest) ∧
      (rest.length = (Draft.allReferences bodies).length ↔
        indices.length = (InstrDef.structuredReferences type bodies).length) := by
  rw [InstrDef.structuredReferences, List.length_append]
  unfold InstrDef.blockType
  by_cases needed : type.needsIndex = true
  · rw [if_pos needed, if_pos needed]
    cases indices with
    | nil => exact absurd rfl (enough needed)
    | cons index rest =>
        refine ⟨.funcType index, rest, rfl, ?_⟩
        rw [List.length_cons, List.length_singleton]
        omega
  · rw [if_neg needed, if_neg needed, List.length_nil, Nat.zero_add]
    split
    · exact ⟨_, indices, rfl, Iff.rfl⟩
    · exact ⟨_, indices, rfl, Iff.rfl⟩

theorem blockType_of_length {d : InstrDef} {type : FuncType} {bodies : List Draft}
    {indices : List UInt32}
    (count : indices.length = (InstrDef.structuredReferences type bodies).length) :
    ∃ blockType rest, d.blockType type indices = .ok (blockType, rest) ∧
      rest.length = (Draft.allReferences bodies).length := by
  have enough : type.needsIndex = true → indices ≠ [] := by
    rintro needed rfl
    simp [InstrDef.structuredReferences, needed] at count
  obtain ⟨blockType, rest, typed, takes⟩ := blockType_takes (d := d) enough bodies
  exact ⟨blockType, rest, typed, takes.mpr count⟩

theorem length_take_of_both {drafts drafts' : List Draft} {indices : List UInt32}
    (count : indices.length = (Draft.allReferences (drafts ++ drafts')).length) :
    (indices.take (Draft.allReferences drafts).length).length =
        (Draft.allReferences drafts).length ∧
      (indices.drop (Draft.allReferences drafts).length).length =
        (Draft.allReferences drafts').length := by
  rw [Draft.allReferences, List.flatMap_append, List.length_append] at count
  rw [List.length_take, List.length_drop]
  simp only [Draft.allReferences]
  omega

/-! ## Trees -/

/-- The drafts that an argument brings with it. -/
def Argument.bodies : Argument → List Draft
  | .block _ body | .ifThen _ body => body
  | .ifElse _ thenBody elseBody => thenBody ++ elseBody
  | _ => []

/-- What a typing rule allowed, with bodies of which each draft was made that way. -/
inductive Draft.Made : Draft → Prop
  | intro {d : InstrDef} {c : Context} {argument : Argument} {effect : Effect}
      (known : d ∈ InstrSet.standard.defs) (bodies : ∀ draft ∈ argument.bodies, Draft.Made draft)
      (allowed : d.effect c argument = .ok effect) : Draft.Made (draftOf d effect)

/-- Any numbers will do, one for each reference. -/
def Draft.Linkable (draft : Draft) : Prop :=
  ∀ indices : List UInt32, indices.length = draft.references.length →
    ∃ i, draft.link indices = .ok i ∧ i.WellFormed

/-- The drafts of a body take their numbers one after the other. -/
theorem Draft.linkAll_of_length {drafts : List Draft} {indices : List UInt32}
    (each : ∀ draft ∈ drafts, draft.Linkable)
    (count : indices.length = (allReferences drafts).length) :
    ∃ code, linkAll indices drafts = .ok code ∧ Instr.AllWellFormed code := by
  induction drafts generalizing indices with
  | nil => exact ⟨[], linkAll_nil_eq_ok.mpr ⟨List.length_eq_zero_iff.mp count, rfl⟩, trivial⟩
  | cons draft rest ih =>
      obtain ⟨first, others⟩ := List.forall_mem_cons.mp each
      rw [allReferences, List.flatMap_cons, List.length_append] at count
      obtain ⟨i, linked, formed⟩ :=
        first (indices.take draft.references.length) (by rw [List.length_take]; omega)
      have left : (indices.drop draft.references.length).length = (allReferences rest).length := by
        rw [List.length_drop, allReferences]
        omega
      obtain ⟨code, linkedRest, formedRest⟩ := ih others left
      exact ⟨i :: code, linkAll_cons_eq_ok.mpr ⟨by omega, i, code, rfl, linked, linkedRest⟩, formed,
        formedRest⟩

section Trees

variable {d : InstrDef} {c : Context} {argument : Argument} {effect : Effect}

/-- A structured instruction is given its bodies. -/
theorem InstrDef.Coherent.bodies_of_structured (coherent : d.Coherent)
    (structured : d.shape.isStructured = true) (allowed : d.effect c argument = .ok effect) :
    (∃ type body, argument = .block type body) ∨ (∃ type body, argument = .ifThen type body) ∨
      ∃ type body elseBody, argument = .ifElse type body elseBody := by
  have typing : d.typing = .block ∨ d.typing = .conditional := by
    have both := coherent.structured
    rw [structured, eq_comm, Bool.or_eq_true, beq_iff_eq, beq_iff_eq] at both
    exact both
  rcases typing with typing | typing
  · cases (d.effect_eq_ok typing).mp allowed
    exact .inl ⟨_, _, rfl⟩
  · cases (d.effect_eq_ok typing).mp allowed with
    | ifThen => exact .inr (.inl ⟨_, _, rfl⟩)
    | ifElse => exact .inr (.inr ⟨_, _, _, rfl⟩)

/-- No other instruction is. -/
theorem InstrDef.Coherent.bodies_of_plain (coherent : d.Coherent)
    (plain : d.shape.isStructured = false) (allowed : d.effect c argument = .ok effect) :
    argument.bodies = [] := by
  have structured := coherent.structured
  rw [plain] at structured
  cases argument with
  | block type body =>
      rw [(d.effect_block allowed).1] at structured
      cases structured
  | ifThen type body =>
      rw [(d.effect_ifThen allowed).1] at structured
      cases structured
  | ifElse type body elseBody =>
      rw [(d.effect_ifElse allowed).1] at structured
      cases structured
  | _ => rfl

/-- Whatever a definition allows is linked by any numbers, one for each
reference, if the bodies are. -/
theorem InstrDef.link_of_effect (known : d ∈ InstrSet.standard.defs)
    (each : ∀ draft ∈ argument.bodies, draft.Linkable)
    (allowed : d.effect c argument = .ok effect) {indices : List UInt32}
    (count : indices.length = effect.references.length) :
    ∃ i, effect.capture.link d indices = .ok i ∧ d.shape.fits i = true ∧ i.WellFormed := by
  have coherent := InstrSet.standard_coherent d known
  cases structured : d.shape.isStructured with
  | false => exact (coherent.suits structured allowed).links count
  | true =>
      have ⟨links, shapes, _⟩ := coherent
      rcases coherent.bodies_of_structured structured allowed with
        ⟨type, body, rfl⟩ | ⟨type, body, rfl⟩ | ⟨type, body, elseBody, rfl⟩
      · obtain ⟨typing, rfl⟩ := d.effect_block allowed
        rw [typing] at links shapes
        obtain ⟨blockType, rest, typed, own⟩ := blockType_of_length (d := d) count
        obtain ⟨code, linked, formed⟩ := Draft.linkAll_of_length each own
        refine ⟨.block blockType code, ?_, by rw [beq_iff_eq.mp shapes]; rfl, formed⟩
        exact (link_block (beq_iff_eq.mp links)).mpr ⟨blockType, rest, code, typed, linked, rfl⟩
      · obtain ⟨typing, rfl⟩ := d.effect_ifThen allowed
        rw [typing] at links shapes
        obtain ⟨blockType, rest, typed, own⟩ := blockType_of_length (d := d) count
        obtain ⟨code, linked, formed⟩ := Draft.linkAll_of_length each own
        refine ⟨.ifThen blockType code, ?_, by rw [beq_iff_eq.mp shapes]; rfl, formed⟩
        refine (link_ifThen (beq_iff_eq.mp links)).mpr
          ⟨blockType, rest, code, typed, ?_, own, rfl⟩
        rwa [← own, List.take_length]
      · obtain ⟨typing, rfl⟩ := d.effect_ifElse allowed
        rw [typing] at links shapes
        obtain ⟨first, second⟩ := List.forall_mem_append.mp each
        obtain ⟨blockType, rest, typed, both⟩ := blockType_of_length (d := d) count
        obtain ⟨own, others⟩ := length_take_of_both both
        obtain ⟨code, linked, formed⟩ := Draft.linkAll_of_length first own
        obtain ⟨elseCode, linkedElse, formedElse⟩ := Draft.linkAll_of_length second others
        refine ⟨.ifElse blockType code elseCode, ?_, by rw [beq_iff_eq.mp shapes]; rfl, formed,
          formedElse⟩
        refine (link_ifElse (beq_iff_eq.mp links)).mpr
          ⟨blockType, rest, code, elseCode, typed, ?_, linked, linkedElse, rfl⟩
        rw [← own, List.length_take]
        exact Nat.min_le_right _ _

end Trees

/-- By induction on how the draft was made: the bodies come first. -/
theorem Draft.Made.linkable {draft : Draft} (made : draft.Made) : draft.Linkable := by
  induction made with
  | intro known _ allowed ih =>
      intro indices count
      obtain ⟨immediate, linked, fits, formed⟩ := InstrDef.link_of_effect known ih allowed count
      have named := InstrSet.standard_unambiguous.named_of_mem known
      exact ⟨.mk _ immediate, link_eq_ok.mpr ⟨immediate, linked, rfl⟩, ⟨_, named, fits⟩, formed⟩

/-! ## Calls -/

mutual

theorem Call.made_of_makes : (call : Call) → (draft : Draft) → call.Makes draft → draft.Made
  | .instr _ argument, draft, made => by
      obtain ⟨d, c, effect, found, plain, allowed, rfl⟩ := made
      have known := (InstrSet.mem_of_named found).1
      refine .intro known ?_ allowed
      rw [(InstrSet.standard_coherent d known).bodies_of_plain plain allowed]
      exact List.forall_mem_nil _
  | .block _ type body, draft, made => by
      obtain ⟨d, c, effect, drafts, found, madeBody, allowed, rfl⟩ := made
      refine .intro (InstrSet.mem_of_named found).1 ?_ allowed
      exact Call.allMade_of_allMake body drafts madeBody
  | .ifThen type body, draft, made => by
      obtain ⟨d, c, effect, drafts, found, madeBody, allowed, rfl⟩ := made
      refine .intro (InstrSet.mem_of_named found).1 ?_ allowed
      exact Call.allMade_of_allMake body drafts madeBody
  | .ifElse type body elseBody, draft, made => by
      obtain ⟨d, c, effect, drafts, elseDrafts, found, madeBody, madeElse, allowed, rfl⟩ := made
      refine .intro (InstrSet.mem_of_named found).1 ?_
        allowed
      exact List.forall_mem_append.mpr ⟨Call.allMade_of_allMake body drafts madeBody,
        Call.allMade_of_allMake elseBody elseDrafts madeElse⟩

/-- Calls make drafts of standard definitions, at every depth. -/
theorem Call.allMade_of_allMake : (calls : List Call) → (drafts : List Draft) →
    AllMake calls drafts → ∀ draft ∈ drafts, draft.Made
  | [], drafts, made => by
      cases made
      exact List.forall_mem_nil _
  | call :: rest, drafts, made => by
      obtain ⟨draft, others, rfl, madeFirst, madeRest⟩ := made
      exact List.forall_mem_cons.mpr ⟨Call.made_of_makes call draft madeFirst,
        Call.allMade_of_allMake rest others madeRest⟩

end

/-- The drafts of calls are linked by any numbers, one for each reference. -/
theorem Call.linkAll_of_allMake (calls : List Call) (drafts : List Draft) (indices : List UInt32)
    (made : AllMake calls drafts)
    (count : indices.length = (Draft.allReferences drafts).length) :
    ∃ code, Draft.linkAll indices drafts = .ok code ∧ Instr.AllWellFormed code :=
  Draft.linkAll_of_length (fun draft member =>
    (Call.allMade_of_allMake calls drafts made draft member).linkable) count

end Wasm
