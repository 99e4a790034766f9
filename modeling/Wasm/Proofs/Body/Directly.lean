import Wasm.Proofs.Body.Linkable
import Wasm.Proofs.Lists

/-!
# Linking without a flat list of numbers

The linker looks up the references of a whole body at once, and hands each draft
its slice of the numbers. The plain way goes through the body as a tree: each
instruction looks up what it refers to itself, and a construct links its bodies
on their own. For every body whose drafts were written by a typing rule, whatever
the definitions are, both ways make the same code, or none.
-/

namespace Wasm

/-- The numbers of a module, in any order and with any gaps. -/
structure IndexTable where
  entity? : Entity → Option UInt32
  type? : FuncType → Option UInt32

namespace IndexTable

/-- The number of a reference. The two marks have none of their own and take zero. -/
def index? (table : IndexTable) : Reference → Option UInt32
  | .entity e => table.entity? e
  | .signature type => table.type? type
  | .memoryUse | .funcMention _ => some 0

def index (table : IndexTable) (reference : Reference) : Except BuildError UInt32 :=
  match table.index? reference with
  | some n => .ok n
  | none => linkFault (.reference reference)

/-- The code of a body, with the numbers of the whole body in one list. -/
def linkBody (table : IndexTable) (body : List Draft) : Except BuildError (List Instr) := do
  let indices ← (Draft.allReferences body).mapM table.index
  Draft.linkAll indices body

/-! ## The plain way -/

/-- The type of a structured instruction, which looks up its number if it needs one. -/
def blockType (table : IndexTable) (type : FuncType) : Except BuildError BlockType :=
  if type.needsIndex then return .funcType (← table.index (.signature type))
  else
    match type.results with
    | result :: _ => return .value result
    | [] => return .empty

end IndexTable

mutual

/-- The immediate of an instruction that looks up its own references. A construct
looks up its signature, and its bodies are linked on their own. -/
def Capture.linkDirectly (table : IndexTable) (d : InstrDef) (references : List Reference)
    (capture : Capture) : Except BuildError Immediate :=
  match d.linking, capture with
  | .block, .block type body => do
    let blockType ← table.blockType type
    let body ← Draft.linkAllDirectly table body
    return .block blockType body
  | .conditional, .ifThen type thenBody => do
    let blockType ← table.blockType type
    let thenBody ← Draft.linkAllDirectly table thenBody
    return .ifThen blockType thenBody
  | .conditional, .ifElse type thenBody elseBody => do
    let blockType ← table.blockType type
    let thenBody ← Draft.linkAllDirectly table thenBody
    let elseBody ← Draft.linkAllDirectly table elseBody
    return .ifElse blockType thenBody elseBody
  | _, capture => do
    let own ← references.mapM table.index
    capture.link d own

def Draft.linkDirectly (table : IndexTable) : Draft → Except BuildError Instr
  | ⟨d, references, _, _, capture⟩ => do
    let immediate ← capture.linkDirectly table d references
    return .mk d.name immediate

/-- The code of a body whose instructions are linked one by one. -/
def Draft.linkAllDirectly (table : IndexTable) : List Draft → Except BuildError (List Instr)
  | [] => return []
  | draft :: rest => do
    let instr ← draft.linkDirectly table
    let others ← Draft.linkAllDirectly table rest
    return instr :: others

end

/-- What a typing rule allowed, of any definition, with bodies whose drafts were
written that way. -/
inductive Draft.Written : Draft → Prop
  | intro {d : InstrDef} {c : Context} {argument : Argument} {effect : Effect}
      (bodies : ∀ draft ∈ argument.bodies, Draft.Written draft)
      (allowed : d.effect c argument = .ok effect) : Draft.Written (Context.draftOf d effect)

/-! ## Numbers of one table -/

namespace IndexTable

variable {table : IndexTable}

/-- The table has this number for the reference. -/
def Numbers (table : IndexTable) (reference : Reference) (n : UInt32) : Prop :=
  table.index reference = .ok n

theorem linkBody_eq_ok {body : List Draft} {code : List Instr} :
    table.linkBody body = .ok code ↔ ∃ indices,
      List.Forall₂ table.Numbers (Draft.allReferences body) indices ∧
      Draft.linkAll indices body = .ok code := by
  rw [linkBody, Except.bind_eq_ok]
  simp only [Except.mapM_eq_ok]
  rfl

theorem blockType_eq_ok {type : FuncType} {blockType : BlockType} :
    table.blockType type = .ok blockType ↔ type.Denotes table.Numbers blockType := by
  rw [IndexTable.blockType, FuncType.Denotes]
  by_cases needed : type.needsIndex = true
  · rw [if_pos needed, if_pos needed, Except.bind_eq_ok]
    simp only [Except.pure_eq_ok, Except.ok.injEq]
    exact exists_congr fun n => and_congr_right fun _ => eq_comm
  · rw [if_neg needed, if_neg needed]
    cases type.results <;>
      exact ⟨fun same => (Except.ok.inj same).symm, fun same => congrArg Except.ok same.symm⟩

/-- A construct with its type and the numbers of its bodies has numbers for all that it
refers to. -/
theorem exists_blockType {d : InstrDef} {type : FuncType} {bodies : List Draft}
    {rest : List UInt32} {blockType : BlockType} (denoted : type.Denotes table.Numbers blockType)
    (others : List.Forall₂ table.Numbers (Draft.allReferences bodies) rest) :
    ∃ indices, List.Forall₂ table.Numbers (InstrDef.structuredReferences type bodies) indices ∧
      d.blockType type indices = .ok (blockType, rest) := by
  rw [FuncType.Denotes] at denoted
  unfold InstrDef.structuredReferences InstrDef.blockType
  by_cases needed : type.needsIndex = true
  · rw [if_pos needed] at denoted
    obtain ⟨n, known, rfl⟩ := denoted
    simp only [if_pos needed]
    exact ⟨n :: rest, .cons known others, rfl⟩
  · rw [if_neg needed] at denoted
    simp only [if_neg needed]
    refine ⟨rest, others, ?_⟩
    cases results : type.results with
    | nil =>
        rw [results] at denoted
        rw [denoted]
    | cons result more =>
        rw [results] at denoted
        rw [denoted]

end IndexTable

/-! ## One draft -/

section Drafts

variable {table : IndexTable}

theorem linkDirectly_eq_ok {draft : Draft} {i : Instr} :
    draft.linkDirectly table = .ok i ↔ ∃ immediate,
      draft.capture.linkDirectly table draft.definition draft.references = .ok immediate ∧
      i = .mk draft.definition.name immediate := by
  cases draft
  simp only [Draft.linkDirectly, Except.bind_eq_ok, Except.pure_eq_ok, Except.ok.injEq]
  exact exists_congr fun immediate => and_congr_right fun _ => eq_comm

theorem linkAllDirectly_cons_eq_ok {draft : Draft} {rest : List Draft} {code : List Instr} :
    Draft.linkAllDirectly table (draft :: rest) = .ok code ↔ ∃ i others, code = i :: others ∧
      draft.linkDirectly table = .ok i ∧ Draft.linkAllDirectly table rest = .ok others := by
  simp only [Draft.linkAllDirectly, Except.bind_eq_ok, Except.pure_eq_ok, Except.ok.injEq]
  constructor
  · rintro ⟨i, linked, others, linkedRest, rfl⟩
    exact ⟨i, others, rfl, linked, linkedRest⟩
  · rintro ⟨i, others, rfl, linked, linkedRest⟩
    exact ⟨i, linked, others, linkedRest, rfl⟩

/-- Numbers for the references make of a capture what it makes of itself. -/
def Capture.LinksAlike (table : IndexTable) (d : InstrDef) (references : List Reference)
    (capture : Capture) : Prop :=
  ∀ i, (∃ indices, List.Forall₂ table.Numbers references indices ∧
    capture.link d indices = .ok i) ↔ capture.linkDirectly table d references = .ok i

def Draft.LinksAlike (table : IndexTable) (draft : Draft) : Prop :=
  ∀ i, (∃ indices, List.Forall₂ table.Numbers draft.references indices ∧
    draft.link indices = .ok i) ↔ draft.linkDirectly table = .ok i

theorem Capture.LinksAlike.draft {draft : Draft}
    (h : draft.capture.LinksAlike table draft.definition draft.references) :
    draft.LinksAlike table := by
  intro i
  rw [linkDirectly_eq_ok]
  simp only [link_eq_ok]
  constructor
  · rintro ⟨indices, numbers, immediate, linked, rfl⟩
    exact ⟨immediate, (h immediate).mp ⟨indices, numbers, linked⟩, rfl⟩
  · rintro ⟨immediate, linked, rfl⟩
    obtain ⟨indices, numbers, linked⟩ := (h immediate).mpr linked
    exact ⟨indices, numbers, immediate, linked, rfl⟩

/-- The slices that the drafts of a body take one after the other are their own numbers. -/
theorem Draft.linkAll_alike {drafts : List Draft} (each : ∀ draft ∈ drafts, draft.LinksAlike table)
    (code : List Instr) :
    (∃ indices, List.Forall₂ table.Numbers (allReferences drafts) indices ∧
      linkAll indices drafts = .ok code) ↔ linkAllDirectly table drafts = .ok code := by
  induction drafts generalizing code with
  | nil =>
      rw [linkAllDirectly, Except.pure_eq_ok, Except.ok.injEq]
      constructor
      · rintro ⟨indices, -, linked⟩
        exact (linkAll_nil_eq_ok.mp linked).2.symm
      · rintro rfl
        exact ⟨[], .nil, linkAll_nil_eq_ok.mpr ⟨rfl, rfl⟩⟩
  | cons draft rest ih =>
      obtain ⟨first, others⟩ := List.forall_mem_cons.mp each
      have slices : ∀ i code', (∃ indices,
          List.Forall₂ table.Numbers (draft.references ++ allReferences rest) indices ∧
          draft.link (indices.take draft.references.length) = .ok i ∧
          linkAll (indices.drop draft.references.length) rest = .ok code') ↔
          draft.linkDirectly table = .ok i ∧ linkAllDirectly table rest = .ok code' :=
        fun i code' => List.Forall₂.exists_slices_iff.trans (and_congr (first i) (ih others code'))
      rw [linkAllDirectly_cons_eq_ok]
      constructor
      · rintro ⟨indices, numbers, linked⟩
        obtain ⟨-, i, code', rfl, linkedFirst, linkedRest⟩ := linkAll_cons_eq_ok.mp linked
        exact ⟨i, code', rfl, (slices i code').mp ⟨indices, numbers, linkedFirst, linkedRest⟩⟩
      · rintro ⟨i, code', rfl, both⟩
        obtain ⟨indices, numbers, linkedFirst, linkedRest⟩ := (slices i code').mpr both
        have count := numbers.length_eq
        rw [List.length_append] at count
        refine ⟨indices, numbers, linkAll_cons_eq_ok.mpr ⟨?_, i, code', rfl, linkedFirst,
          linkedRest⟩⟩
        omega

/-- The slices of the two arms of a conditional are their own numbers. -/
theorem Draft.linkArms_alike {body elseBody : List Draft}
    (first : ∀ draft ∈ body, draft.LinksAlike table)
    (second : ∀ draft ∈ elseBody, draft.LinksAlike table) (code elseCode : List Instr) :
    (∃ indices, List.Forall₂ table.Numbers (allReferences (body ++ elseBody)) indices ∧
      linkAll (indices.take (allReferences body).length) body = .ok code ∧
      linkAll (indices.drop (allReferences body).length) elseBody = .ok elseCode) ↔
    linkAllDirectly table body = .ok code ∧ linkAllDirectly table elseBody = .ok elseCode := by
  rw [allReferences, List.flatMap_append]
  exact List.Forall₂.exists_slices_iff.trans
    (and_congr (linkAll_alike first code) (linkAll_alike second elseCode))

end Drafts

/-! ## Constructs -/

section Constructs

variable {table : IndexTable} {d : InstrDef} {type : FuncType} {references : List Reference}
  {body elseBody : List Draft}

theorem linkDirectly_block {i : Immediate} (rule : d.linking = .block) :
    (Capture.block type body).linkDirectly table d references = .ok i ↔
      ∃ blockType code, type.Denotes table.Numbers blockType ∧
        Draft.linkAllDirectly table body = .ok code ∧ i = .block blockType code := by
  unfold Capture.linkDirectly
  rw [rule]
  simp only [Except.bind_eq_ok, Except.pure_eq_ok, Except.ok.injEq, IndexTable.blockType_eq_ok]
  constructor
  · rintro ⟨blockType, denoted, code, linked, rfl⟩
    exact ⟨blockType, code, denoted, linked, rfl⟩
  · rintro ⟨blockType, code, denoted, linked, rfl⟩
    exact ⟨blockType, denoted, code, linked, rfl⟩

theorem linkDirectly_ifThen {i : Immediate} (rule : d.linking = .conditional) :
    (Capture.ifThen type body).linkDirectly table d references = .ok i ↔
      ∃ blockType code, type.Denotes table.Numbers blockType ∧
        Draft.linkAllDirectly table body = .ok code ∧ i = .ifThen blockType code := by
  unfold Capture.linkDirectly
  rw [rule]
  simp only [Except.bind_eq_ok, Except.pure_eq_ok, Except.ok.injEq, IndexTable.blockType_eq_ok]
  constructor
  · rintro ⟨blockType, denoted, code, linked, rfl⟩
    exact ⟨blockType, code, denoted, linked, rfl⟩
  · rintro ⟨blockType, code, denoted, linked, rfl⟩
    exact ⟨blockType, denoted, code, linked, rfl⟩

theorem linkDirectly_ifElse {i : Immediate} (rule : d.linking = .conditional) :
    (Capture.ifElse type body elseBody).linkDirectly table d references = .ok i ↔
      ∃ blockType code elseCode, type.Denotes table.Numbers blockType ∧
        Draft.linkAllDirectly table body = .ok code ∧
        Draft.linkAllDirectly table elseBody = .ok elseCode ∧
        i = .ifElse blockType code elseCode := by
  unfold Capture.linkDirectly
  rw [rule]
  simp only [Except.bind_eq_ok, Except.pure_eq_ok, Except.ok.injEq, IndexTable.blockType_eq_ok]
  constructor
  · rintro ⟨blockType, denoted, code, linked, elseCode, linkedElse, rfl⟩
    exact ⟨blockType, code, elseCode, denoted, linked, linkedElse, rfl⟩
  · rintro ⟨blockType, code, elseCode, denoted, linked, linkedElse, rfl⟩
    exact ⟨blockType, denoted, code, linked, elseCode, linkedElse, rfl⟩

/-- The linking rule divides its numbers between a signature and the captured bodies. -/
def InstrDef.Divides (d : InstrDef) : Capture → Prop
  | .literal _ => False
  | .block .. => d.linking = .block
  | .ifThen .. | .ifElse .. => d.linking = .conditional

/-- Where no numbers are divided, an instruction has looked up those that it is handed. -/
theorem linksAlike_of_not_divides {capture : Capture} (whole : ¬ d.Divides capture) :
    capture.LinksAlike table d references := by
  intro i
  have same : capture.linkDirectly table d references =
      (references.mapM table.index >>= fun own => capture.link d own) := by
    unfold Capture.linkDirectly
    split
    · exact absurd ‹_› whole
    · exact absurd ‹_› whole
    · exact absurd ‹_› whole
    · rfl
  rw [same, Except.bind_eq_ok]
  simp only [Except.mapM_eq_ok]
  rfl

/-- Captured bodies bring all that they refer to, behind the signature of the construct. -/
def Capture.Lists (references : List Reference) : Capture → Prop
  | .literal _ => True
  | .block type body | .ifThen type body => references = InstrDef.structuredReferences type body
  | .ifElse type thenBody elseBody =>
    references = InstrDef.structuredReferences type (thenBody ++ elseBody)

/-- The drafts of the captured bodies. -/
def Capture.bodies : Capture → List Draft
  | .literal _ => []
  | .block _ body | .ifThen _ body => body
  | .ifElse _ thenBody elseBody => thenBody ++ elseBody

theorem linksAlike_block (rule : d.linking = .block)
    (each : ∀ draft ∈ body, draft.LinksAlike table) :
    (Capture.block type body).LinksAlike table d (InstrDef.structuredReferences type body) := by
  intro i
  simp only [linkDirectly_block rule, link_block rule]
  constructor
  · rintro ⟨indices, numbers, blockType, rest, code, typed, linked, rfl⟩
    obtain ⟨denoted, own⟩ := blockType_denotes numbers typed
    exact ⟨blockType, code, denoted, (Draft.linkAll_alike each code).mp ⟨rest, own, linked⟩, rfl⟩
  · rintro ⟨blockType, code, denoted, linked, rfl⟩
    obtain ⟨rest, own, linked⟩ := (Draft.linkAll_alike each code).mpr linked
    obtain ⟨indices, numbers, typed⟩ := IndexTable.exists_blockType denoted own
    exact ⟨indices, numbers, blockType, rest, code, typed, linked, rfl⟩

theorem linksAlike_ifThen (rule : d.linking = .conditional)
    (each : ∀ draft ∈ body, draft.LinksAlike table) :
    (Capture.ifThen type body).LinksAlike table d (InstrDef.structuredReferences type body) := by
  intro i
  simp only [linkDirectly_ifThen rule, link_ifThen rule]
  constructor
  · rintro ⟨indices, numbers, blockType, rest, code, typed, linked, whole, rfl⟩
    obtain ⟨denoted, own⟩ := blockType_denotes numbers typed
    rw [← whole, List.take_length] at linked
    exact ⟨blockType, code, denoted, (Draft.linkAll_alike each code).mp ⟨rest, own, linked⟩, rfl⟩
  · rintro ⟨blockType, code, denoted, linked, rfl⟩
    obtain ⟨rest, own, linked⟩ := (Draft.linkAll_alike each code).mpr linked
    obtain ⟨indices, numbers, typed⟩ := IndexTable.exists_blockType denoted own
    have whole := own.length_eq.symm
    refine ⟨indices, numbers, blockType, rest, code, typed, ?_, whole, rfl⟩
    rwa [← whole, List.take_length]

theorem linksAlike_ifElse (rule : d.linking = .conditional)
    (first : ∀ draft ∈ body, draft.LinksAlike table)
    (second : ∀ draft ∈ elseBody, draft.LinksAlike table) :
    (Capture.ifElse type body elseBody).LinksAlike table d
      (InstrDef.structuredReferences type (body ++ elseBody)) := by
  intro i
  simp only [linkDirectly_ifElse rule, link_ifElse rule]
  constructor
  · rintro ⟨indices, numbers, blockType, rest, code, elseCode, typed, -, linked, linkedElse, rfl⟩
    obtain ⟨denoted, both⟩ := blockType_denotes numbers typed
    obtain ⟨linked, linkedElse⟩ := (Draft.linkArms_alike first second code elseCode).mp
      ⟨rest, both, linked, linkedElse⟩
    exact ⟨blockType, code, elseCode, denoted, linked, linkedElse, rfl⟩
  · rintro ⟨blockType, code, elseCode, denoted, linked, linkedElse, rfl⟩
    obtain ⟨rest, both, linked, linkedElse⟩ :=
      (Draft.linkArms_alike first second code elseCode).mpr ⟨linked, linkedElse⟩
    obtain ⟨indices, numbers, typed⟩ := IndexTable.exists_blockType denoted both
    have count := both.length_eq
    rw [Draft.allReferences, List.flatMap_append, List.length_append] at count
    have enough : (Draft.allReferences body).length ≤ rest.length := by
      rw [Draft.allReferences]
      omega
    exact ⟨indices, numbers, blockType, rest, code, elseCode, typed, enough, linked, linkedElse,
      rfl⟩

/-- The invariant on the references of a construct: its signature in front, then
those of its bodies. With it each body is handed its own numbers. -/
theorem Capture.Lists.linksAlike {capture : Capture} (lists : capture.Lists references)
    (each : ∀ draft ∈ capture.bodies, draft.LinksAlike table) :
    capture.LinksAlike table d references := by
  by_cases divided : d.Divides capture
  · cases capture with
    | literal immediate => exact divided.elim
    | block type body =>
        obtain rfl := lists
        exact linksAlike_block divided each
    | ifThen type body =>
        obtain rfl := lists
        exact linksAlike_ifThen divided each
    | ifElse type body elseBody =>
        obtain rfl := lists
        obtain ⟨first, second⟩ := List.forall_mem_append.mp each
        exact linksAlike_ifElse divided first second
  · exact linksAlike_of_not_divides divided

end Constructs

/-! ## Written drafts -/

section Written

variable {d : InstrDef} {c : Context} {argument : Argument} {effect : Effect}

/-- What a typing rule captures are the bodies of the argument, with their references. -/
theorem InstrDef.lists_of_effect (allowed : d.effect c argument = .ok effect) :
    effect.capture.Lists effect.references ∧ effect.capture.bodies = argument.bodies := by
  obtain ⟨rule, -, derived⟩ := exists_hasEffect allowed
  cases derived with
  | block | ifThen | ifElse => exact ⟨rfl, rfl⟩
  | _ => exact ⟨trivial, rfl⟩

/-- By induction on how the draft was written: the bodies come first. -/
theorem Draft.Written.linksAlike {draft : Draft} (written : draft.Written) (table : IndexTable) :
    draft.LinksAlike table := by
  induction written with
  | @intro d c argument effect bodies allowed ih =>
      obtain ⟨lists, same⟩ := d.lists_of_effect allowed
      apply Capture.LinksAlike.draft
      apply lists.linksAlike
      rw [same]
      exact ih

/-- Both ways link a body of written drafts to the same code, or not at all. -/
theorem IndexTable.linkBody_iff_directly (table : IndexTable) {body : List Draft}
    (written : ∀ draft ∈ body, draft.Written) (code : List Instr) :
    table.linkBody body = .ok code ↔ Draft.linkAllDirectly table body = .ok code := by
  rw [linkBody_eq_ok]
  exact Draft.linkAll_alike (fun draft member => (written draft member).linksAlike table) code

end Written

end Wasm
