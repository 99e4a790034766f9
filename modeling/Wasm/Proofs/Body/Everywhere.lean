import Wasm.Proofs.Body.Effects
import Wasm.Proofs.Body.Recorded
import Wasm.Proofs.InstrSet.Coherent
import Wasm.Proofs.InstrSet.Distinct

/-!
# What bodies refer to at any depth

A structured draft lists the references of its bodies among its own, so the
references of the top level are those of all drafts at any depth. Among them
is the mark for memory exactly if some instruction works on the memory, and
the mark for a function only beside the function itself.
-/

namespace Wasm

/-- Instructions that work on the memory: the accesses, which have a memory
operand, and the ones on its size or on ranges of it. -/
def InstrDef.usesMemory (d : InstrDef) : Bool :=
  match d.shape with
  | .memArg _ => true
  | _ => d.name ∈ ["memory.size", "memory.grow", "memory.copy", "memory.fill"]

mutual

/-- The drafts in the bodies of a structured instruction, at any depth. -/
def Capture.everywhere : Capture → List Draft
  | .literal _ => []
  | .block _ body => Draft.everywhere body
  | .ifThen _ thenBody => Draft.everywhere thenBody
  | .ifElse _ thenBody elseBody => Draft.everywhere thenBody ++ Draft.everywhere elseBody

/-- The drafts of a body at any depth. -/
def Draft.everywhere : List Draft → List Draft
  | [] => []
  | ⟨d, references, params, results, capture⟩ :: rest =>
    ⟨d, references, params, results, capture⟩ :: (capture.everywhere ++ Draft.everywhere rest)

end

theorem Draft.everywhere_cons (draft : Draft) (rest : List Draft) :
    Draft.everywhere (draft :: rest) =
      draft :: (draft.capture.everywhere ++ Draft.everywhere rest) := by
  cases draft
  rw [Draft.everywhere]

theorem Draft.mem_everywhere {draft : Draft} {body : List Draft} (member : draft ∈ body) :
    draft ∈ Draft.everywhere body := by
  induction body with
  | nil => cases member
  | cons head rest ih =>
      rw [everywhere_cons]
      rcases List.mem_cons.mp member with rfl | later
      · exact List.mem_cons_self
      · exact List.mem_cons_of_mem _ (List.mem_append_right _ (ih later))

/-! ## Single instructions -/

/-- The typing rules of instructions on the memory. -/
def TypingRule.isOnMemory : TypingRule → Bool
  | .memory | .memoryAccess => true
  | _ => false

theorem InstrSet.usesMemory_iff : ∀ d ∈ standard.defs, d.usesMemory = d.typing.isOnMemory := by
  decide +kernel

namespace InstrDef

variable {d : InstrDef} {c : Context} {argument : Argument} {effect : Effect}

/-- What an instruction without bodies refers to: the memory if its typing rule
is one for the memory, and a function wherever it mentions one. -/
structure RefersAs (d : InstrDef) (references : List Reference) : Prop where
  memory : .memoryUse ∈ references ↔ d.typing.isOnMemory = true
  mention : ∀ id, .funcMention id ∈ references → .func id ∈ references

theorem refersAs_nothing (other : d.typing.isOnMemory = false) : d.RefersAs [] :=
  ⟨by simp [other], nofun⟩

theorem refersAs_memory (onMemory : d.typing.isOnMemory = true) : d.RefersAs [.memoryUse] :=
  ⟨by simp [onMemory], by simp⟩

theorem refersAs_entity {entity : Entity} (other : d.typing.isOnMemory = false) :
    d.RefersAs [.entity entity] :=
  ⟨by simp [other], by simp⟩

theorem not_structured_of_plain (plain : d.shape.isStructured = false) (coherent : d.Coherent) :
    d.typing ≠ .block ∧ d.typing ≠ .conditional := by
  have structured := coherent.structured
  rw [plain] at structured
  constructor <;> intro typing <;> rw [typing] at structured <;> cases structured

theorem refersAs_of_effect (plain : d.typing ≠ .block ∧ d.typing ≠ .conditional)
    (allowed : d.effect c argument = .ok effect) : d.RefersAs effect.references := by
  obtain ⟨rule, typing, derived⟩ := exists_hasEffect allowed
  cases derived with
  | memory | naturalAccess | access => exact refersAs_memory (by rw [typing]; rfl)
  | globalGet | globalSet | call | tableGet | tableSet | tableSize | tableGrow | tableFill =>
      exact refersAs_entity (by rw [typing]; rfl)
  | refFunc =>
      exact ⟨by simp [typing, TypingRule.isOnMemory, Reference.func],
        by simp +contextual [Reference.func]⟩
  | callIndirect | tableCopy =>
      exact ⟨by simp [typing, TypingRule.isOnMemory, Reference.table], by simp [Reference.table]⟩
  | block => exact absurd typing plain.1
  | ifThen | ifElse => exact absurd typing plain.2
  | _ => exact refersAs_nothing (by rw [typing]; rfl)

end InstrDef

/-! ## Trees -/

/-- The references are those of the drafts, and tell what the drafts need. -/
structure Accounts (references : List Reference) (drafts : List Draft) : Prop where
  complete : ∀ draft ∈ drafts, ∀ r ∈ draft.references, r ∈ references
  memory : .memoryUse ∈ references ↔ ∃ draft ∈ drafts, draft.definition.usesMemory = true
  mention : ∀ id, .funcMention id ∈ references → .func id ∈ references

theorem accounts_nothing : Accounts [] [] :=
  ⟨nofun, by simp, nofun⟩

theorem Accounts.append {references references' : List Reference} {drafts drafts' : List Draft}
    (first : Accounts references drafts) (second : Accounts references' drafts') :
    Accounts (references ++ references') (drafts ++ drafts') where
  complete draft member r refers := by
    rcases List.mem_append.mp member with inFirst | inSecond
    · exact List.mem_append_left _ (first.complete draft inFirst r refers)
    · exact List.mem_append_right _ (second.complete draft inSecond r refers)
  memory := by
    rw [List.mem_append, first.memory, second.memory]
    simp only [List.mem_append, or_and_right, exists_or]
  mention id mentioned := by
    rcases List.mem_append.mp mentioned with inFirst | inSecond
    · exact List.mem_append_left _ (first.mention id inFirst)
    · exact List.mem_append_right _ (second.mention id inSecond)

/-- The draft of an instruction without bodies. -/
theorem accounts_plain {d : InstrDef} {c : Context} {argument : Argument} {effect : Effect}
    (member : d ∈ InstrSet.standard.defs) (plain : d.shape.isStructured = false)
    (allowed : d.effect c argument = .ok effect) :
    Accounts effect.references (Context.draftOf d effect :: effect.capture.everywhere) := by
  have other := InstrDef.not_structured_of_plain plain (InstrSet.standard_coherent d member)
  obtain ⟨memory, mention⟩ := InstrDef.refersAs_of_effect other allowed
  obtain ⟨i, captured⟩ := InstrDef.literal_of_effect allowed other
  rw [captured, Capture.everywhere]
  refine ⟨fun draft same r refers => ?_, ?_, mention⟩
  · cases List.mem_singleton.mp same
    exact refers
  · rw [memory, ← InstrSet.usesMemory_iff d member]
    simp [Context.draftOf]

/-- The draft of a structured instruction, with the drafts of its bodies. -/
theorem accounts_structured {d : InstrDef} {type : FuncType} {bodies inner : List Draft}
    {capture : Capture} {params results : List ValType} (member : d ∈ InstrSet.standard.defs)
    (structured : d.typing = .block ∨ d.typing = .conditional)
    (accounts : Accounts (Draft.allReferences bodies) inner) :
    Accounts (InstrDef.structuredReferences type bodies)
      (⟨d, InstrDef.structuredReferences type bodies, params, results, capture⟩ :: inner) := by
  have other : d.usesMemory = false := by
    rw [InstrSet.usesMemory_iff d member]
    rcases structured with typing | typing <;> rw [typing] <;> rfl
  -- A signature in front says nothing about memory or mentions.
  have same : ∀ r, (∀ type', r ≠ .signature type') →
      (r ∈ InstrDef.structuredReferences type bodies ↔ r ∈ Draft.allReferences bodies) := by
    intro r named
    rw [InstrDef.structuredReferences, List.mem_append, or_iff_right]
    split
    · exact fun h => named type (List.mem_singleton.mp h)
    · exact List.not_mem_nil
  refine ⟨List.forall_mem_cons.mpr ⟨fun r refers => refers, fun draft within r refers => ?_⟩, ?_,
    fun id mentioned => ?_⟩
  · exact List.mem_append_right _ (accounts.complete draft within r refers)
  · rw [same _ (by simp), accounts.memory]
    simp [other]
  · rw [same _ (by simp)] at mentioned
    exact (same _ (by simp [Reference.func])).mpr (accounts.mention id mentioned)

mutual

theorem Call.accounts_of_makes : (call : Call) → (draft : Draft) → call.Makes draft →
    Accounts draft.references (draft :: draft.capture.everywhere)
  | .instr name argument, draft, made => by
      obtain ⟨d, c, effect, found, plain, allowed, rfl⟩ := made
      exact accounts_plain (InstrSet.mem_of_named found).1 plain allowed
  | .block name type body, draft, made => by
      obtain ⟨d, c, effect, drafts, found, madeBody, allowed, rfl⟩ := made
      obtain ⟨typing, rfl⟩ := d.effect_block allowed
      exact accounts_structured (InstrSet.mem_of_named found).1 (.inl typing)
        (Call.accounts_of_allMake body drafts madeBody)
  | .ifThen type thenBody, draft, made => by
      obtain ⟨d, c, effect, drafts, found, madeBody, allowed, rfl⟩ := made
      obtain ⟨typing, rfl⟩ := d.effect_ifThen allowed
      exact accounts_structured (InstrSet.mem_of_named found).1 (.inr typing)
        (Call.accounts_of_allMake thenBody drafts madeBody)
  | .ifElse type thenBody elseBody, draft, made => by
      obtain ⟨d, c, effect, drafts, elseDrafts, found, madeBody, madeElse, allowed, rfl⟩ := made
      obtain ⟨typing, rfl⟩ := d.effect_ifElse allowed
      refine accounts_structured (InstrSet.mem_of_named found).1 (.inr typing) ?_
      rw [Draft.allReferences, List.flatMap_append]
      exact (Call.accounts_of_allMake thenBody drafts madeBody).append
        (Call.accounts_of_allMake elseBody elseDrafts madeElse)

theorem Call.accounts_of_allMake : (calls : List Call) → (drafts : List Draft) →
    AllMake calls drafts → Accounts (Draft.allReferences drafts) (Draft.everywhere drafts)
  | [], drafts, made => by
      cases made
      exact accounts_nothing
  | call :: rest, drafts, made => by
      obtain ⟨draft, others, rfl, madeFirst, madeRest⟩ := made
      rw [Draft.allReferences, List.flatMap_cons, Draft.everywhere_cons, ← List.cons_append]
      exact (Call.accounts_of_makes call draft madeFirst).append
        (Call.accounts_of_allMake rest others madeRest)

end

end Wasm
