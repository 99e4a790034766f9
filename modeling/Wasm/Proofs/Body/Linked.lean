import Mathlib.Data.List.Forall2
import Wasm.Body.Link
import Wasm.Proofs.Body.Effects
import Wasm.Proofs.Body.Recorded
import Wasm.Proofs.InstrSet.Coherent
import Wasm.Proofs.InstrSet.Distinct

/-!
# Linked code denotes the calls that wrote it

A call names entities by handles, and the instruction that comes of it names
them by numbers. `Call.Denotes N` says which instruction a call stands for if
`N` relates references to their numbers. The linker works on one flat list of
numbers for a whole body; here it is shown that each draft gets the numbers of
its own references, at every depth, and therefore that the code is what the
calls stand for.
-/

namespace Wasm

open Context (draftOf)

variable {N : Reference → UInt32 → Prop}

/-! ## The instruction of a call -/

/-- The immediate names what the argument names. -/
def Argument.Denotes (N : Reference → UInt32 → Prop) : Argument → Immediate → Prop
  | .func handle, i => ∃ n, N (.func handle.id) n ∧ i = .index n
  | .globalVar handle, i => ∃ n, N (.global handle.id) n ∧ i = .index n
  | .table handle, i => ∃ n, N (.table handle.id) n ∧ i = .index n
  | .tablePair destination source, i =>
      ∃ n m, N (.table destination.id) n ∧ N (.table source.id) m ∧ i = .indexPair n m
  | .callIndirect handle signature, i =>
      ∃ n m, N (.table handle.id) n ∧ N (.signature signature) m ∧ i = .callIndirect m n
  | .literal immediate, i => i = immediate
  | .localVar handle, i => i = .index handle.index
  | .lane l, i => i = .lane l
  | .type valType, i => i = .valTypes [valType] ∨ i = .refType valType
  | .memory offset _, i => ∃ align, i = .memArg { align, offset }
  | .none, _ | .branch _, _ | .branchTable .., _ | .block .., _ | .ifThen .., _
  | .ifElse .., _ => True

/-- The type of a structured instruction, by number where it needs one. -/
def FuncType.Denotes (N : Reference → UInt32 → Prop) (type : FuncType) (blockType : BlockType) :
    Prop :=
  if type.needsIndex then ∃ n, N (.signature type) n ∧ blockType = .funcType n
  else
    match type.results with
    | result :: _ => blockType = .value result
    | [] => blockType = .empty

mutual

/-- The instruction that a call stands for. -/
def Call.Denotes (N : Reference → UInt32 → Prop) : Call → Instr → Prop
  | .instr name argument, .mk name' immediate => name' = name ∧ argument.Denotes N immediate
  | .block name type body, i => ∃ blockType code, i = .mk name (.block blockType code) ∧
      type.Denotes N blockType ∧ Call.AllDenote N body code
  | .ifThen type thenBody, i => ∃ blockType code, i = .mk "if" (.ifThen blockType code) ∧
      type.Denotes N blockType ∧ Call.AllDenote N thenBody code
  | .ifElse type thenBody elseBody, i => ∃ blockType code elseCode,
      i = .mk "if" (.ifElse blockType code elseCode) ∧ type.Denotes N blockType ∧
        Call.AllDenote N thenBody code ∧ Call.AllDenote N elseBody elseCode

/-- The code that calls stand for, one instruction each. -/
def Call.AllDenote (N : Reference → UInt32 → Prop) : List Call → List Instr → Prop
  | [], code => code = []
  | call :: rest, code => ∃ i others, code = i :: others ∧ call.Denotes N i ∧
      Call.AllDenote N rest others

end

/-! ## Each draft gets its own numbers -/

/-- Splitting numbers behind those of the first references. -/
theorem forall₂_split {references references' : List Reference} {indices : List UInt32}
    (h : List.Forall₂ N (references ++ references') indices) :
    List.Forall₂ N references (indices.take references.length) ∧
      List.Forall₂ N references' (indices.drop references.length) := by
  constructor
  · simpa using List.forall₂_take references.length h
  · simpa using List.forall₂_drop references.length h

theorem linkAll_nil_eq_ok {indices : List UInt32} {code : List Instr} :
    Draft.linkAll indices [] = .ok code ↔ indices = [] ∧ code = [] := by
  cases indices with
  | nil => simp [Draft.linkAll, eq_comm]
  | cons n rest => simp [Draft.linkAll, linkFault]

theorem linkAll_cons_eq_ok {draft : Draft} {rest : List Draft} {indices : List UInt32}
    {code : List Instr} :
    Draft.linkAll indices (draft :: rest) = .ok code ↔
      draft.references.length ≤ indices.length ∧ ∃ instr others, code = instr :: others ∧
        draft.link (indices.take draft.references.length) = .ok instr ∧
        Draft.linkAll (indices.drop draft.references.length) rest = .ok others := by
  rw [Draft.linkAll]
  by_cases enough : draft.references.length ≤ indices.length
  · simp only [(Bytes.hasAtLeast_iff _ _).mpr enough, if_true, Except.pure_eq_ok,
      Except.bind_eq_ok, enough, true_and, Except.ok.injEq]
    constructor
    · rintro ⟨instr, linked, others, linkedRest, rfl⟩
      exact ⟨instr, others, rfl, linked, linkedRest⟩
    · rintro ⟨instr, others, rfl, linked, linkedRest⟩
      exact ⟨instr, linked, others, linkedRest, rfl⟩
  · have missing : Bytes.hasAtLeast draft.references.length indices = false := by
      rw [Bool.eq_false_iff, ne_eq, Bytes.hasAtLeast_iff]
      exact enough
    simp [missing, enough, linkFault]

/-- Code that is linked in two parts. -/
theorem Draft.linkAll_append {drafts drafts' : List Draft} {indices indices' : List UInt32}
    {code code' : List Instr} (first : linkAll indices drafts = .ok code)
    (second : linkAll indices' drafts' = .ok code') :
    linkAll (indices ++ indices') (drafts ++ drafts') = .ok (code ++ code') := by
  induction drafts generalizing indices code with
  | nil =>
      obtain ⟨rfl, rfl⟩ := linkAll_nil_eq_ok.mp first
      exact second
  | cons draft rest ih =>
      obtain ⟨enough, i, others, rfl, linked, linkedRest⟩ := linkAll_cons_eq_ok.mp first
      refine linkAll_cons_eq_ok.mpr ⟨?_, i, others ++ code', rfl, ?_, ?_⟩
      · rw [List.length_append]
        omega
      · rwa [List.take_append_of_le_length enough]
      · rw [List.drop_append_of_le_length enough]
        exact ih linkedRest

/-! ## Immediates -/

theorem wantCount_eq_ok {d : InstrDef} {expected : Nat} {indices : List UInt32} :
    d.wantCount expected indices = .ok () ↔ indices.length = expected := by
  rw [InstrDef.wantCount]
  split <;> simp_all [linkFault]

theorem captured_eq_ok {d : InstrDef} {capture : Capture} {i : Immediate} :
    d.captured capture = .ok i ↔ capture = .literal i := by
  cases capture <;> simp [InstrDef.captured]

section Immediates

variable {d : InstrDef} {capture : Capture} {indices : List UInt32} {i : Immediate}

/-- What a linking rule without bodies makes of the numbers and of what was captured. -/
theorem link_iff (plain : d.linking ≠ .block ∧ d.linking ≠ .conditional) :
    capture.link d indices = .ok i ↔
      match d.linking with
      | .literal => indices.length = 0 ∧ capture = .literal i
      | .memoryAccess => indices.length = 1 ∧ capture = .literal i
      | .index => ∃ n, indices = [n] ∧ i = .index n
      | .refFunc => ∃ n mark, indices = [n, mark] ∧ i = .index n
      | .callIndirect => ∃ n m, indices = [n, m] ∧ i = .callIndirect m n
      | .memoryCopy => ∃ n, indices = [n] ∧ i = .indexPair n n
      | .tableCopy => ∃ n m, indices = [n, m] ∧ i = .indexPair n m
      | .block | .conditional => False := by
  unfold Capture.link
  cases rule : d.linking with
  | literal | memoryAccess =>
      simp [Except.bind_eq_ok, Unique.exists_iff, wantCount_eq_ok, captured_eq_ok]
  | index | memoryCopy =>
      rcases indices with _ | ⟨n, _ | ⟨_, _⟩⟩ <;> simp [linkFault, eq_comm (a := i)]
  | refFunc | callIndirect | tableCopy =>
      rcases indices with _ | ⟨n, _ | ⟨m, _ | ⟨_, _⟩⟩⟩ <;> simp [linkFault, eq_comm (a := i)]
  | block => exact absurd rule plain.1
  | conditional => exact absurd rule plain.2

/-- What is captured literally is the immediate. -/
theorem link_literal (rule : d.linking = .literal) :
    capture.link d indices = .ok i ↔ indices.length = 0 ∧ capture = .literal i := by
  rw [link_iff (by simp [rule]), rule]

theorem eq_of_link_literal {immediate : Immediate} (rule : d.linking = .literal)
    (linked : (Capture.literal immediate).link d indices = .ok i) : i = immediate :=
  (Capture.literal.inj ((link_literal rule).mp linked).2).symm

theorem link_memoryAccess (rule : d.linking = .memoryAccess) :
    capture.link d indices = .ok i ↔ indices.length = 1 ∧ capture = .literal i := by
  rw [link_iff (by simp [rule]), rule]

theorem link_index (rule : d.linking = .index) :
    capture.link d indices = .ok i ↔ ∃ n, indices = [n] ∧ i = .index n := by
  rw [link_iff (by simp [rule]), rule]

theorem link_refFunc (rule : d.linking = .refFunc) :
    capture.link d indices = .ok i ↔ ∃ n mark, indices = [n, mark] ∧ i = .index n := by
  rw [link_iff (by simp [rule]), rule]

theorem link_callIndirect (rule : d.linking = .callIndirect) :
    capture.link d indices = .ok i ↔ ∃ n m, indices = [n, m] ∧ i = .callIndirect m n := by
  rw [link_iff (by simp [rule]), rule]

theorem link_memoryCopy (rule : d.linking = .memoryCopy) :
    capture.link d indices = .ok i ↔ ∃ n, indices = [n] ∧ i = .indexPair n n := by
  rw [link_iff (by simp [rule]), rule]

theorem link_tableCopy (rule : d.linking = .tableCopy) :
    capture.link d indices = .ok i ↔ ∃ n m, indices = [n, m] ∧ i = .indexPair n m := by
  rw [link_iff (by simp [rule]), rule]

end Immediates

theorem link_eq_ok {draft : Draft} {indices : List UInt32} {i : Instr} :
    draft.link indices = .ok i ↔ ∃ immediate,
      draft.capture.link draft.definition indices = .ok immediate ∧
      i = .mk draft.definition.name immediate := by
  cases draft
  simp only [Draft.link, Except.bind_eq_ok, Except.pure_eq_ok, Except.ok.injEq]
  exact exists_congr fun immediate => and_congr_right fun _ => eq_comm

theorem link_block {d : InstrDef} {type : FuncType} {body : List Draft} {indices : List UInt32}
    {i : Immediate} (rule : d.linking = .block) :
    (Capture.block type body).link d indices = .ok i ↔
      ∃ blockType rest code, d.blockType type indices = .ok (blockType, rest) ∧
        Draft.linkAll rest body = .ok code ∧ i = .block blockType code := by
  unfold Capture.link
  rw [rule]
  simp [Except.bind_eq_ok, eq_comm (a := i)]

theorem splitBodies_eq_ok {d : InstrDef} {first : List Draft} {indices own others : List UInt32} :
    d.splitBodies first indices = .ok (own, others) ↔
      (Draft.allReferences first).length ≤ indices.length ∧
      own = indices.take (Draft.allReferences first).length ∧
      others = indices.drop (Draft.allReferences first).length := by
  rw [InstrDef.splitBodies]
  by_cases enough : (Draft.allReferences first).length ≤ indices.length
  · rw [(Bytes.hasAtLeast_iff _ _).mpr enough, if_pos rfl, Except.ok.injEq, Prod.mk.injEq]
    constructor
    · rintro ⟨rfl, rfl⟩
      exact ⟨enough, rfl, rfl⟩
    · rintro ⟨-, rfl, rfl⟩
      exact ⟨rfl, rfl⟩
  · have missing := mt (Bytes.hasAtLeast_iff _ _).mp enough
    rw [if_neg missing]
    exact ⟨nofun, fun h => absurd h.1 enough⟩

theorem link_ifThen {d : InstrDef} {type : FuncType} {body : List Draft} {indices : List UInt32}
    {i : Immediate} (rule : d.linking = .conditional) :
    (Capture.ifThen type body).link d indices = .ok i ↔
      ∃ blockType rest code, d.blockType type indices = .ok (blockType, rest) ∧
        Draft.linkAll (rest.take (Draft.allReferences body).length) body = .ok code ∧
        rest.length = (Draft.allReferences body).length ∧ i = .ifThen blockType code := by
  unfold Capture.link
  rw [rule]
  simp only [Except.bind_eq_ok, Except.pure_eq_ok, Except.ok.injEq, Prod.exists]
  constructor
  · rintro ⟨blockType, rest, found, own, others, split, code, linked, _, whole, rfl⟩
    obtain ⟨enough, rfl, rfl⟩ := splitBodies_eq_ok.mp split
    have none := wantCount_eq_ok.mp whole
    rw [List.length_drop] at none
    exact ⟨blockType, rest, code, found, linked, by omega, rfl⟩
  · rintro ⟨blockType, rest, code, found, linked, whole, rfl⟩
    have split := splitBodies_eq_ok (d := d).mpr ⟨Nat.le_of_eq whole.symm, rfl, rfl⟩
    refine ⟨blockType, rest, found, _, _, split, code, linked, (), wantCount_eq_ok.mpr ?_, rfl⟩
    rw [List.length_drop, whole, Nat.sub_self]

theorem link_ifElse {d : InstrDef} {type : FuncType} {body elseBody : List Draft}
    {indices : List UInt32} {i : Immediate} (rule : d.linking = .conditional) :
    (Capture.ifElse type body elseBody).link d indices = .ok i ↔
      ∃ blockType rest code elseCode, d.blockType type indices = .ok (blockType, rest) ∧
        (Draft.allReferences body).length ≤ rest.length ∧
        Draft.linkAll (rest.take (Draft.allReferences body).length) body = .ok code ∧
        Draft.linkAll (rest.drop (Draft.allReferences body).length) elseBody = .ok elseCode ∧
        i = .ifElse blockType code elseCode := by
  unfold Capture.link
  rw [rule]
  simp only [Except.bind_eq_ok, Except.pure_eq_ok, Except.ok.injEq, Prod.exists]
  constructor
  · rintro ⟨blockType, rest, found, own, others, split, code, linked, elseCode, linkedElse, rfl⟩
    obtain ⟨enough, rfl, rfl⟩ := splitBodies_eq_ok.mp split
    exact ⟨blockType, rest, code, elseCode, found, enough, linked, linkedElse, rfl⟩
  · rintro ⟨blockType, rest, code, elseCode, found, enough, linked, linkedElse, rfl⟩
    have split := splitBodies_eq_ok (d := d).mpr ⟨enough, rfl, rfl⟩
    exact ⟨blockType, rest, found, _, _, split, code, linked, elseCode, linkedElse, rfl⟩

/-- An instruction without bodies names what its argument names. -/
theorem denotes_argument {d : InstrDef} {c : Context} {argument : Argument} {effect : Effect}
    {indices : List UInt32} {i : Immediate} (member : d ∈ InstrSet.standard.defs)
    (allowed : d.effect c argument = .ok effect)
    (numbers : List.Forall₂ N effect.references indices)
    (linked : effect.capture.link d indices = .ok i) : argument.Denotes N i := by
  have links := (InstrSet.standard_coherent d member).links
  obtain ⟨rule, typing, derived⟩ := InstrDef.exists_hasEffect allowed
  rw [typing] at links
  -- The one reference of an instruction with an index.
  have first : d.linking = .index → ∀ {reference}, List.Forall₂ N [reference] indices →
      ∃ n, N reference n ∧ i = .index n := by
    intro indexed reference number
    obtain ⟨n, rfl, rfl⟩ := (link_index indexed).mp linked
    cases number with
    | cons known _ => exact ⟨n, known, rfl⟩
  cases derived with
  -- Where nothing is numbered, the immediate was fixed when the draft was written.
  | constant | shuffle | lane | localGet | localSet | localTee =>
      exact eq_of_link_literal (beq_iff_eq.mp links) linked
  | selectTyped => exact .inl (eq_of_link_literal (beq_iff_eq.mp links) linked)
  | refNull => exact .inr (eq_of_link_literal (beq_iff_eq.mp links) linked)
  | access =>
      have same := ((link_memoryAccess (beq_iff_eq.mp links)).mp linked).2
      exact ⟨_, (Capture.literal.inj same).symm⟩
  | globalGet | globalSet | call | tableGet | tableSet | tableSize | tableGrow | tableFill =>
      exact first (beq_iff_eq.mp links) numbers
  | refFunc =>
      obtain ⟨n, mark, rfl, rfl⟩ := (link_refFunc (beq_iff_eq.mp links)).mp linked
      cases numbers with
      | cons known _ => exact ⟨n, known, rfl⟩
  | tableCopy =>
      obtain ⟨n, m, rfl, rfl⟩ := (link_tableCopy (beq_iff_eq.mp links)).mp linked
      obtain ⟨known, known'⟩ := by simpa using numbers
      exact ⟨n, m, known, known', rfl⟩
  | callIndirect =>
      obtain ⟨n, m, rfl, rfl⟩ := (link_callIndirect (beq_iff_eq.mp links)).mp linked
      obtain ⟨known, known'⟩ := by simpa using numbers
      exact ⟨n, m, known, known', rfl⟩
  | _ => trivial

/-! ## Trees -/

/-- The type of a structured instruction takes the number of its signature, if
it needs one, and leaves those of the bodies. -/
theorem blockType_denotes {d : InstrDef} {type : FuncType} {bodies : List Draft}
    {indices rest : List UInt32} {blockType : BlockType}
    (numbers : List.Forall₂ N (InstrDef.structuredReferences type bodies) indices)
    (found : d.blockType type indices = .ok (blockType, rest)) :
    type.Denotes N blockType ∧ List.Forall₂ N (Draft.allReferences bodies) rest := by
  rw [InstrDef.structuredReferences] at numbers
  unfold InstrDef.blockType at found
  rw [FuncType.Denotes]
  by_cases needed : type.needsIndex = true
  · rw [if_pos needed] at found numbers ⊢
    cases numbers with
    | cons known others =>
        cases found
        exact ⟨⟨_, known, rfl⟩, others⟩
  · rw [if_neg needed] at found numbers ⊢
    cases results : type.results with
    | nil =>
        rw [results] at found
        cases found
        exact ⟨rfl, numbers⟩
    | cons result more =>
        rw [results] at found
        cases found
        exact ⟨rfl, numbers⟩

section Constructs

variable {name : String} {d : InstrDef} {c : Context} {type : FuncType} {effect : Effect}
  {drafts elseDrafts : List Draft} {indices : List UInt32} {i : Instr}

/-- What comes of the draft of a block. -/
theorem linked_block (found : InstrSet.standard.named name = .ok d)
    (allowed : d.effect c (.block type drafts) = .ok effect)
    (linked : (draftOf d effect).link indices = .ok i) :
    (draftOf d effect).references = InstrDef.structuredReferences type drafts ∧
      ∃ blockType rest code, i = .mk name (.block blockType code) ∧
        d.blockType type indices = .ok (blockType, rest) ∧
        Draft.linkAll rest drafts = .ok code := by
  obtain ⟨member, rfl⟩ := InstrSet.mem_of_named found
  obtain ⟨typing, rfl⟩ := d.effect_block allowed
  have fits := (InstrSet.standard_coherent d member).links
  rw [typing] at fits
  obtain ⟨immediate, made, rfl⟩ := link_eq_ok.mp linked
  obtain ⟨blockType, rest, code, typed, linkedBody, rfl⟩ :=
    (link_block (beq_iff_eq.mp fits)).mp made
  exact ⟨rfl, blockType, rest, code, rfl, typed, linkedBody⟩

theorem linked_ifThen (found : InstrSet.standard.named "if" = .ok d)
    (allowed : d.effect c (.ifThen type drafts) = .ok effect)
    (linked : (draftOf d effect).link indices = .ok i) :
    (draftOf d effect).references = InstrDef.structuredReferences type drafts ∧
      ∃ blockType rest code, i = .mk "if" (.ifThen blockType code) ∧
        d.blockType type indices = .ok (blockType, rest) ∧
        Draft.linkAll rest drafts = .ok code := by
  obtain ⟨member, name⟩ := InstrSet.mem_of_named found
  obtain ⟨typing, rfl⟩ := d.effect_ifThen allowed
  have fits := (InstrSet.standard_coherent d member).links
  rw [typing] at fits
  obtain ⟨immediate, made, rfl⟩ := link_eq_ok.mp linked
  obtain ⟨blockType, rest, code, typed, linkedBody, whole, rfl⟩ :=
    (link_ifThen (beq_iff_eq.mp fits)).mp made
  rw [← whole, List.take_length] at linkedBody
  exact ⟨rfl, blockType, rest, code, name ▸ rfl, typed, linkedBody⟩

/-- The numbers of the second arm stand behind all those of the first. -/
theorem linked_ifElse (found : InstrSet.standard.named "if" = .ok d)
    (allowed : d.effect c (.ifElse type drafts elseDrafts) = .ok effect)
    (linked : (draftOf d effect).link indices = .ok i) :
    (draftOf d effect).references = InstrDef.structuredReferences type (drafts ++ elseDrafts) ∧
      ∃ blockType rest code elseCode, i = .mk "if" (.ifElse blockType code elseCode) ∧
        d.blockType type indices = .ok (blockType, rest) ∧
        Draft.linkAll (rest.take (Draft.allReferences drafts).length) drafts = .ok code ∧
        Draft.linkAll (rest.drop (Draft.allReferences drafts).length) elseDrafts =
          .ok elseCode := by
  obtain ⟨member, name⟩ := InstrSet.mem_of_named found
  obtain ⟨typing, rfl⟩ := d.effect_ifElse allowed
  have fits := (InstrSet.standard_coherent d member).links
  rw [typing] at fits
  obtain ⟨immediate, made, rfl⟩ := link_eq_ok.mp linked
  obtain ⟨blockType, rest, code, elseCode, typed, -, linkedBody, linkedElse, rfl⟩ :=
    (link_ifElse (beq_iff_eq.mp fits)).mp made
  exact ⟨rfl, blockType, rest, code, elseCode, name ▸ rfl, typed, linkedBody, linkedElse⟩

end Constructs

mutual

/-- A draft becomes the instruction that its call stands for. -/
theorem Call.denotes_of_link : (call : Call) → (draft : Draft) → (indices : List UInt32) →
    (i : Instr) → call.Makes draft → List.Forall₂ N draft.references indices →
    draft.link indices = .ok i → call.Denotes N i
  | .instr name argument, draft, indices, i, made, numbers, linked => by
      obtain ⟨d, c, effect, found, -, allowed, rfl⟩ := made
      obtain ⟨member, rfl⟩ := InstrSet.mem_of_named found
      obtain ⟨immediate, made, rfl⟩ := link_eq_ok.mp linked
      exact ⟨rfl, denotes_argument member allowed numbers made⟩
  | .block name type body, draft, indices, i, made, numbers, linked => by
      obtain ⟨d, c, effect, drafts, found, madeBody, allowed, rfl⟩ := made
      obtain ⟨refers, blockType, rest, code, rfl, typed, linkedBody⟩ :=
        linked_block found allowed linked
      obtain ⟨denoted, own⟩ := blockType_denotes (refers ▸ numbers) typed
      exact ⟨blockType, code, rfl, denoted,
        Call.allDenote_of_linkAll body drafts rest code madeBody own linkedBody⟩
  | .ifThen type thenBody, draft, indices, i, made, numbers, linked => by
      obtain ⟨d, c, effect, drafts, found, madeBody, allowed, rfl⟩ := made
      obtain ⟨refers, blockType, rest, code, rfl, typed, linkedBody⟩ :=
        linked_ifThen found allowed linked
      obtain ⟨denoted, own⟩ := blockType_denotes (refers ▸ numbers) typed
      exact ⟨blockType, code, rfl, denoted,
        Call.allDenote_of_linkAll thenBody drafts rest code madeBody own linkedBody⟩
  | .ifElse type thenBody elseBody, draft, indices, i, made, numbers, linked => by
      obtain ⟨d, c, effect, drafts, elseDrafts, found, madeBody, madeElse, allowed, rfl⟩ := made
      obtain ⟨refers, blockType, rest, code, elseCode, rfl, typed, linkedBody, linkedElse⟩ :=
        linked_ifElse found allowed linked
      obtain ⟨denoted, both⟩ := blockType_denotes (refers ▸ numbers) typed
      rw [Draft.allReferences, List.flatMap_append] at both
      obtain ⟨own, ownElse⟩ := forall₂_split both
      exact ⟨blockType, code, elseCode, rfl, denoted,
        Call.allDenote_of_linkAll thenBody drafts _ code madeBody own linkedBody,
        Call.allDenote_of_linkAll elseBody elseDrafts _ elseCode madeElse ownElse linkedElse⟩

/-- A body becomes the code that its calls stand for. -/
theorem Call.allDenote_of_linkAll : (calls : List Call) → (drafts : List Draft) →
    (indices : List UInt32) → (code : List Instr) → AllMake calls drafts →
    List.Forall₂ N (Draft.allReferences drafts) indices →
    Draft.linkAll indices drafts = .ok code → AllDenote N calls code
  | [], drafts, indices, code, made, numbers, linked => by
      cases made
      exact (linkAll_nil_eq_ok.mp linked).2
  | call :: rest, drafts, indices, code, made, numbers, linked => by
      obtain ⟨draft, others, rfl, madeFirst, madeRest⟩ := made
      obtain ⟨-, i, code', rfl, linkedFirst, linkedRest⟩ := linkAll_cons_eq_ok.mp linked
      obtain ⟨own, behind⟩ := forall₂_split numbers
      exact ⟨i, code', rfl, Call.denotes_of_link call draft _ i madeFirst own linkedFirst,
        Call.allDenote_of_linkAll rest others _ code' madeRest behind linkedRest⟩

end

end Wasm
