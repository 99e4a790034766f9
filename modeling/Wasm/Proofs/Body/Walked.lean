import Wasm.Proofs.Binary.Bounded
import Wasm.Proofs.Body.Linkable

/-!
# Bodies in the order of a walk

A walk through a body meets a construct before what stands inside it, and its
first arm before the second one. Both the references of a body and its code
follow this order. Here the three things that belong to one place are put next
to each other: the call that was made there, what it refers to besides its
bodies, and the instruction that it became. Whatever is collected from one of
the three is thereby known of the other two.
-/

namespace Wasm

open Context (draftOf)

variable {N : Reference → UInt32 → Prop}

/-! ## What is met on the way -/

mutual

/-- The calls in the bodies of a construct, at any depth. -/
def Call.inside : Call → List Call
  | .instr _ _ => []
  | .block _ _ body => Call.everywhere body
  | .ifThen _ thenBody => Call.everywhere thenBody
  | .ifElse _ thenBody elseBody => Call.everywhere thenBody ++ Call.everywhere elseBody

/-- All calls at any depth, a construct before those in its bodies. -/
def Call.everywhere : List Call → List Call
  | [] => []
  | call :: rest => call :: (call.inside ++ Call.everywhere rest)

end

theorem Instr.everywhere_cons (i : Instr) (rest : List Instr) :
    Instr.everywhere (i :: rest) = i :: (i.immediate.everywhere ++ Instr.everywhere rest) := by
  cases i
  rw [Instr.everywhere, Instr.immediate]

def Reference.signature? : Reference → Option FuncType
  | .signature type => some type
  | _ => none

/-- The function that a mark is about. -/
def Reference.mention? : Reference → Option Nat
  | .funcMention id => some id
  | _ => none

/-- The signature that is given with a call and becomes a type index. -/
def Call.signature? : Call → Option FuncType
  | .instr _ (.callIndirect _ type) => some type
  | .instr _ _ => none
  | .block _ type _ | .ifThen type _ | .ifElse type _ _ =>
    if type.needsIndex then some type else none

def BlockType.typeIndex? : BlockType → Option UInt32
  | .funcType index => some index
  | _ => none

/-- The type index in an instruction. -/
def Instr.typeIndex? : Instr → Option UInt32
  | .mk _ (.callIndirect typeIndex _) => some typeIndex
  | .mk _ (.block type _) | .mk _ (.ifThen type _) | .mk _ (.ifElse type _ _) => type.typeIndex?
  | _ => none

/-- The operand of an instruction that makes a reference to a function. -/
def Instr.funcOperand? : Instr → Option UInt32
  | .mk name (.index i) => if name = "ref.func" then some i else none
  | _ => none

/-! ## One place -/

/-- What a construct refers to besides its bodies. -/
def FuncType.ownReferences (type : FuncType) : List Reference :=
  if type.needsIndex then [.signature type] else []

/-- A call, what it refers to besides its bodies, and the instruction that it
became, if `N` relates references to their numbers. -/
inductive Call.Becomes (N : Reference → UInt32 → Prop) : Call → List Reference → Instr → Prop
  | callIndirect {name : String} {table : TableHandle} {type : FuncType} {n m : UInt32}
      (other : name ≠ "ref.func") (known : N (.signature type) m) :
      Becomes N (.instr name (.callIndirect table type)) [.table table.id, .signature type]
        (.mk name (.callIndirect m n))
  | refFunc {handle : FuncHandle} {n : UInt32} (known : N (.func handle.id) n) :
      Becomes N (.instr "ref.func" (.func handle)) [.func handle.id, .funcMention handle.id]
        (.mk "ref.func" (.index n))
  | plain {name : String} {argument : Argument} {references : List Reference}
      {immediate : Immediate} (other : name ≠ "ref.func")
      (untyped : (Call.instr name argument).signature? = none)
      (unmarked : ∀ r ∈ references, r.signature? = none ∧ r.mention? = none)
      (unnumbered : (Instr.mk name immediate).typeIndex? = none) :
      Becomes N (.instr name argument) references (.mk name immediate)
  | block {name : String} {type : FuncType} {body : List Call} {blockType : BlockType}
      {code : List Instr} (other : name ≠ "ref.func") (denoted : type.Denotes N blockType) :
      Becomes N (.block name type body) type.ownReferences (.mk name (.block blockType code))
  | ifThen {type : FuncType} {body : List Call} {blockType : BlockType} {code : List Instr}
      (denoted : type.Denotes N blockType) :
      Becomes N (.ifThen type body) type.ownReferences (.mk "if" (.ifThen blockType code))
  | ifElse {type : FuncType} {body elseBody : List Call} {blockType : BlockType}
      {code elseCode : List Instr} (denoted : type.Denotes N blockType) :
      Becomes N (.ifElse type body elseBody) type.ownReferences
        (.mk "if" (.ifElse blockType code elseCode))

/-! ### Instructions without bodies -/

/-- The two instructions that refer to more than entities and memory. -/
theorem InstrSet.standard_marked : ∀ d ∈ standard.defs,
    (d.name = "ref.func" ↔ d.typing = .refFunc) ∧
      (d.typing = .callIndirect ↔ d.shape = .callIndirect) := by
  decide +kernel

theorem Instr.everywhere_of_fits {shape : Shape} {i : Immediate}
    (plain : shape.isStructured = false) (fits : shape.fits i = true) : i.everywhere = [] := by
  cases i with
  | block | ifThen | ifElse =>
      -- Only structured instructions have such an immediate.
      revert plain fits
      cases shape <;> simp [Shape.isStructured, Shape.fits]
  | _ => rfl

theorem Instr.typeIndex?_of_fits {shape : Shape} {name : String} {i : Immediate}
    (plain : shape.isStructured = false) (other : shape ≠ .callIndirect)
    (fits : shape.fits i = true) : (Instr.mk name i).typeIndex? = none := by
  cases i with
  | block | ifThen | ifElse | callIndirect =>
      revert plain other fits
      cases shape <;> simp [Shape.isStructured, Shape.fits]
  | _ => rfl

section Plain

variable {d : InstrDef} {c : Context} {argument : Argument} {effect : Effect}

theorem Call.becomes_of_link {indices : List UInt32} {i : Immediate}
    (member : d ∈ InstrSet.standard.defs) (plain : d.shape.isStructured = false)
    (allowed : d.effect c argument = .ok effect)
    (numbers : List.Forall₂ N effect.references indices)
    (linked : effect.capture.link d indices = .ok i) :
    (Call.instr d.name argument).Becomes N effect.references (.mk d.name i) ∧
      i.everywhere = [] := by
  have coherent := InstrSet.standard_coherent d member
  obtain ⟨named, shaped⟩ := InstrSet.standard_marked d member
  obtain ⟨i', linked', fits, -⟩ := (coherent.suits plain allowed).links numbers.length_eq.symm
  cases linked.symm.trans linked'
  have denoted := denotes_argument member allowed numbers linked
  refine ⟨?_, Instr.everywhere_of_fits plain fits⟩
  obtain ⟨rule, typing, derived⟩ := InstrDef.exists_hasEffect allowed
  have other : rule ≠ .refFunc → d.name ≠ "ref.func" := fun no same =>
    no (typing.symm.trans (named.mp same))
  have unnumbered : rule ≠ .callIndirect → (Instr.mk d.name i).typeIndex? = none := fun no =>
    Instr.typeIndex?_of_fits plain (fun same => no (typing.symm.trans (shaped.mpr same))) fits
  have structured := coherent.structured
  rw [plain, typing] at structured
  cases derived with
  | callIndirect =>
      obtain ⟨n, m, -, known, rfl⟩ := denoted
      exact .callIndirect (other nofun) known
  | refFunc =>
      obtain ⟨n, known, rfl⟩ := denoted
      rw [named.mpr typing]
      exact .refFunc known
  | block | ifThen | ifElse => cases structured
  | _ =>
      -- All others refer to entities and to the memory only.
      refine .plain (other nofun) rfl ?_ (unnumbered nofun)
      simp [Reference.signature?, Reference.mention?, Reference.func, Reference.global,
        Reference.table]

end Plain

/-! ## The whole way -/

/-- The places of a body, one after the other. -/
inductive Call.Walk (N : Reference → UInt32 → Prop) :
    List Call → List Reference → List Instr → Prop
  | nil : Walk N [] [] []
  | cons {call : Call} {own : List Reference} {i : Instr} {calls : List Call}
      {references : List Reference} {code : List Instr} (first : call.Becomes N own i)
      (rest : Walk N calls references code) :
      Walk N (call :: calls) (own ++ references) (i :: code)

namespace Call.Walk

variable {calls calls' : List Call} {references references' : List Reference}
  {code code' : List Instr}

theorem append (first : Walk N calls references code) (second : Walk N calls' references' code') :
    Walk N (calls ++ calls') (references ++ references') (code ++ code') := by
  induction first with
  | nil => exact second
  | cons place _ ih =>
      rw [List.append_assoc]
      exact .cons place ih

/-- What the calls tell is told by the references as well, if this is so at
every place. -/
theorem filterMap_eq {α : Type} {f : Call → Option α} {g : Reference → Option α}
    (each : ∀ {call own i}, Becomes N call own i → own.filterMap g = (f call).toList)
    (walk : Walk N calls references code) : references.filterMap g = calls.filterMap f := by
  induction walk with
  | nil => rfl
  | @cons call _ _ _ _ _ first _ ih =>
      rw [List.filterMap_append, each first, ih, List.filterMap_cons]
      cases f call <;> rfl

/-- What is found in the references is related to what is found in the code,
if this is so at every place. -/
theorem forall₂_filterMap {α β : Type} {R : α → β → Prop} {f : Reference → Option α}
    {g : Instr → Option β}
    (each : ∀ {call own i}, Becomes N call own i → List.Forall₂ R (own.filterMap f) (g i).toList)
    (walk : Walk N calls references code) :
    List.Forall₂ R (references.filterMap f) (code.filterMap g) := by
  induction walk with
  | nil => exact .nil
  | @cons _ _ i _ _ rest first _ ih =>
      have split : (i :: rest).filterMap g = (g i).toList ++ rest.filterMap g := by
        rw [List.filterMap_cons]
        cases g i <;> rfl
      rw [List.filterMap_append, split]
      exact List.rel_append (each first) ih

end Call.Walk

/-! ## Linked bodies are walked -/

mutual

/-- A draft and the instruction that it became go along with their call. -/
theorem Call.walk_of_link : (call : Call) → (draft : Draft) → (indices : List UInt32) →
    (i : Instr) → call.Makes draft → List.Forall₂ N draft.references indices →
    draft.link indices = .ok i →
    Walk N (call :: call.inside) draft.references (i :: i.immediate.everywhere)
  | .instr name argument, draft, indices, i, made, numbers, linked => by
      obtain ⟨d, c, effect, found, plain, allowed, rfl⟩ := made
      obtain ⟨member, rfl⟩ := InstrSet.mem_of_named found
      obtain ⟨immediate, made, rfl⟩ := link_eq_ok.mp linked
      obtain ⟨place, nothing⟩ := Call.becomes_of_link member plain allowed numbers made
      rw [Call.inside, Instr.immediate, nothing, ← List.append_nil (draftOf d effect).references]
      exact .cons place .nil
  | .block name type body, draft, indices, i, made, numbers, linked => by
      obtain ⟨d, c, effect, drafts, found, madeBody, allowed, rfl⟩ := made
      obtain ⟨refers, blockType, rest, code, rfl, typed, linkedBody⟩ :=
        linked_block found allowed linked
      obtain ⟨denoted, own⟩ := blockType_denotes (refers ▸ numbers) typed
      obtain ⟨member, rfl⟩ := InstrSet.mem_of_named found
      have other : d.name ≠ "ref.func" := by
        intro same
        have typing := (d.effect_block allowed).1
        cases typing.symm.trans ((InstrSet.standard_marked d member).1.mp same)
      have here : (draftOf d effect).references =
          type.ownReferences ++ Draft.allReferences drafts := refers
      rw [here, Call.inside, Instr.immediate, Immediate.everywhere]
      exact .cons (.block other denoted)
        (Call.walk_of_linkAll body drafts rest code madeBody own linkedBody)
  | .ifThen type thenBody, draft, indices, i, made, numbers, linked => by
      obtain ⟨d, c, effect, drafts, found, madeBody, allowed, rfl⟩ := made
      obtain ⟨refers, blockType, rest, code, rfl, typed, linkedBody⟩ :=
        linked_ifThen found allowed linked
      obtain ⟨denoted, own⟩ := blockType_denotes (refers ▸ numbers) typed
      have here : (draftOf d effect).references =
          type.ownReferences ++ Draft.allReferences drafts := refers
      rw [here, Call.inside, Instr.immediate, Immediate.everywhere]
      exact .cons (.ifThen denoted)
        (Call.walk_of_linkAll thenBody drafts rest code madeBody own linkedBody)
  | .ifElse type thenBody elseBody, draft, indices, i, made, numbers, linked => by
      obtain ⟨d, c, effect, drafts, elseDrafts, found, madeBody, madeElse, allowed, rfl⟩ := made
      obtain ⟨refers, blockType, rest, code, elseCode, rfl, typed, linkedBody, linkedElse⟩ :=
        linked_ifElse found allowed linked
      obtain ⟨denoted, both⟩ := blockType_denotes (refers ▸ numbers) typed
      have arms : Draft.allReferences (drafts ++ elseDrafts) =
          Draft.allReferences drafts ++ Draft.allReferences elseDrafts := by
        rw [Draft.allReferences, List.flatMap_append]
        rfl
      rw [arms] at both
      obtain ⟨own, ownElse⟩ := forall₂_split both
      have inner := (Call.walk_of_linkAll thenBody drafts _ code madeBody own linkedBody).append
        (Call.walk_of_linkAll elseBody elseDrafts _ elseCode madeElse ownElse linkedElse)
      have here : (draftOf d effect).references =
          type.ownReferences ++ Draft.allReferences (drafts ++ elseDrafts) := refers
      rw [here, arms, Call.inside, Instr.immediate, Immediate.everywhere]
      exact .cons (.ifElse denoted) inner

/-- The references of a body and its code go along with the calls that wrote it. -/
theorem Call.walk_of_linkAll : (calls : List Call) → (drafts : List Draft) →
    (indices : List UInt32) → (code : List Instr) → AllMake calls drafts →
    List.Forall₂ N (Draft.allReferences drafts) indices →
    Draft.linkAll indices drafts = .ok code →
    Walk N (Call.everywhere calls) (Draft.allReferences drafts) (Instr.everywhere code)
  | [], drafts, indices, code, made, numbers, linked => by
      cases made
      obtain ⟨-, rfl⟩ := linkAll_nil_eq_ok.mp linked
      rw [Call.everywhere, Instr.everywhere]
      exact .nil
  | call :: rest, drafts, indices, code, made, numbers, linked => by
      obtain ⟨draft, others, rfl, madeFirst, madeRest⟩ := made
      obtain ⟨-, i, code', rfl, linkedFirst, linkedRest⟩ := linkAll_cons_eq_ok.mp linked
      obtain ⟨own, behind⟩ := forall₂_split numbers
      rw [Call.everywhere, Instr.everywhere_cons, ← List.cons_append, ← List.cons_append]
      exact (Call.walk_of_link call draft _ i madeFirst own linkedFirst).append
        (Call.walk_of_linkAll rest others _ code' madeRest behind linkedRest)

end

/-! ## What is collected on the way -/

theorem FuncType.filterMap_ownReferences {α : Type} {f : Reference → Option α} (type : FuncType) :
    type.ownReferences.filterMap f =
      if type.needsIndex then (f (.signature type)).toList else [] := by
  rw [ownReferences]
  split
  · rw [List.filterMap_cons]
    cases f (.signature type) <;> rfl
  · rfl

namespace Call.Becomes

variable {call : Call} {own : List Reference} {i : Instr}

theorem signature?_eq (h : call.Becomes N own i) :
    own.filterMap Reference.signature? = call.signature?.toList := by
  cases h with
  | callIndirect _ _ => rfl
  | refFunc _ => rfl
  | plain _ untyped unmarked _ =>
      rw [untyped, List.filterMap_eq_nil_iff.mpr fun r member => (unmarked r member).1]
      rfl
  | block _ _ | ifThen _ | ifElse _ =>
      rw [FuncType.filterMap_ownReferences, Call.signature?]
      split <;> rfl

/-- A type index is the number of the signature that the place refers to. -/
theorem typeIndex?_related (h : call.Becomes N own i) :
    List.Forall₂ (fun type n => N (.signature type) n) (own.filterMap Reference.signature?)
      i.typeIndex?.toList := by
  have structured : ∀ {type : FuncType} {blockType : BlockType}, type.Denotes N blockType →
      List.Forall₂ (fun type n => N (.signature type) n)
        (type.ownReferences.filterMap Reference.signature?) blockType.typeIndex?.toList := by
    intro type blockType denoted
    rw [FuncType.filterMap_ownReferences]
    unfold FuncType.Denotes at denoted
    by_cases needed : type.needsIndex = true
    · rw [if_pos needed] at denoted ⊢
      obtain ⟨n, known, rfl⟩ := denoted
      exact .cons known .nil
    · rw [if_neg needed] at denoted ⊢
      cases results : type.results with
      | nil =>
          rw [results] at denoted
          cases denoted
          exact .nil
      | cons result more =>
          rw [results] at denoted
          cases denoted
          exact .nil
  cases h with
  | callIndirect _ known => exact .cons known .nil
  | refFunc _ => exact .nil
  | plain _ _ unmarked unnumbered =>
      rw [unnumbered, List.filterMap_eq_nil_iff.mpr fun r member => (unmarked r member).1]
      exact .nil
  | block _ denoted | ifThen denoted | ifElse denoted => exact structured denoted

/-- A function operand is the number of the function that the place mentions. -/
theorem funcOperand?_related (h : call.Becomes N own i) :
    List.Forall₂ (fun id n => N (.func id) n) (own.filterMap Reference.mention?)
      i.funcOperand?.toList := by
  cases h with
  | callIndirect _ _ => exact .nil
  | refFunc known => exact .cons known .nil
  | @plain name _ _ immediate other _ unmarked _ =>
      have none : (Instr.mk name immediate).funcOperand? = none := by
        cases immediate with
        | index => exact if_neg other
        | _ => rfl
      rw [none, List.filterMap_eq_nil_iff.mpr fun r member => (unmarked r member).2]
      exact .nil
  | block _ _ | ifThen _ | ifElse _ =>
      rw [FuncType.filterMap_ownReferences]
      split <;> exact .nil

/-- Every instruction of that name has a function operand. -/
theorem funcOperand?_of_name (h : call.Becomes N own i) (name : i.name = "ref.func") :
    ∃ n, i.funcOperand? = some n := by
  cases h with
  | refFunc known => exact ⟨_, rfl⟩
  | callIndirect other _ | plain other _ _ _ | block other _ => exact absurd name other
  | ifThen _ | ifElse _ => exact absurd name (by decide : ("if" : String) ≠ "ref.func")

end Call.Becomes

end Wasm
