import Wasm.Proofs.Body.Linked
import Wasm.Proofs.Body.Session

/-!
# Branches select what their labels name

A branch names a construct by its label and is written with a depth. Between
the two lie the frames that are open when the branch is written, and the tree
that is put together from the bodies of closed constructs much later. Here the
labels around each note are kept as a scope: a note that was recorded in a
scope is linked to an instruction whose depths count out to the labels of its
targets in that scope, whatever numbers the references get.
-/

namespace Wasm

open Context (draftOf)

/-! ## Code that keeps to its labels -/

/-- What a branch to the target carries, where `scope` has the labels of the
constructs around it, innermost first: the place of the label. -/
def Target.Selects (scope : List Label) : Target → UInt32 → Prop
  | .label l, d => scope[d.toNat]? = some l
  | .depth n, d => d = n ∧ n.toNat < scope.length

/-- Every depth in the immediate is that of a target of the argument. -/
def Argument.Selects (scope : List Label) : Argument → Immediate → Prop
  | .branch target, i => ∃ d, i = .index d ∧ target.Selects scope d
  | .branchTable targets fallback, i => ∃ labels d, i = .brTable labels d ∧
      List.Forall₂ (Target.Selects scope) targets labels ∧ fallback.Selects scope d
  | _, _ => True

namespace Note

mutual

/-- The instruction that a call became inside the constructs of `scope`. A
construct stands where its note does, and inside its arms its own label is the
innermost one. -/
def Stands (scope : List Label) : Note → Instr → Prop
  | .instr name argument, .mk name' immediate => name' = name ∧ argument.Selects scope immediate
  | .block label name _ body, i => ∃ blockType code, i = .mk name (.block blockType code) ∧
      AllStand (label :: scope) body code
  | .ifThen label _ thenBody, i => ∃ blockType code, i = .mk "if" (.ifThen blockType code) ∧
      AllStand (label :: scope) thenBody code
  | .ifElse label _ thenBody elseBody, i => ∃ blockType code elseCode,
      i = .mk "if" (.ifElse blockType code elseCode) ∧
        AllStand (label :: scope) thenBody code ∧ AllStand (label :: scope) elseBody elseCode

/-- The code that calls became, one instruction each. -/
def AllStand (scope : List Label) : List Note → List Instr → Prop
  | [], code => code = []
  | note :: rest, code => ∃ i others, code = i :: others ∧ note.Stands scope i ∧
      AllStand scope rest others

end

mutual

/-- The call wrote this draft inside the constructs of `scope`, of which there are
no more than 32 bits can count. -/
def Records (scope : List Label) : Note → Draft → Prop
  | .instr name argument, draft =>
      scope.length ≤ 2 ^ 32 ∧ ∃ d c effect, InstrSet.standard.named name = .ok d ∧
        c.frames.map (·.label) = scope ∧ d.effect c argument = .ok effect ∧ draft = draftOf d effect
  | .block label name type body, draft =>
      ∃ d c effect drafts, InstrSet.standard.named name = .ok d ∧
        AllRecord (label :: scope) body drafts ∧
        d.effect c (.block type drafts) = .ok effect ∧ draft = draftOf d effect
  | .ifThen label type thenBody, draft =>
      ∃ d c effect drafts, InstrSet.standard.named "if" = .ok d ∧
        AllRecord (label :: scope) thenBody drafts ∧
        d.effect c (.ifThen type drafts) = .ok effect ∧ draft = draftOf d effect
  | .ifElse label type thenBody elseBody, draft =>
      ∃ d c effect drafts elseDrafts, InstrSet.standard.named "if" = .ok d ∧
        AllRecord (label :: scope) thenBody drafts ∧
        AllRecord (label :: scope) elseBody elseDrafts ∧
        d.effect c (.ifElse type drafts elseDrafts) = .ok effect ∧ draft = draftOf d effect

/-- The calls wrote these drafts, one each. -/
def AllRecord (scope : List Label) : List Note → List Draft → Prop
  | [], drafts => drafts = []
  | note :: rest, drafts => ∃ draft others, drafts = draft :: others ∧ note.Records scope draft ∧
      AllRecord scope rest others

end

variable {scope : List Label}

theorem allRecord_append {notes notes' : List Note} {drafts drafts' : List Draft}
    (first : AllRecord scope notes drafts) (second : AllRecord scope notes' drafts') :
    AllRecord scope (notes ++ notes') (drafts ++ drafts') := by
  induction notes generalizing drafts with
  | nil =>
      cases first
      exact second
  | cons note rest ih =>
      obtain ⟨draft, others, rfl, recorded, more⟩ := first
      exact ⟨draft, others ++ drafts', rfl, recorded, ih more⟩

theorem allRecord_single {note : Note} {draft : Draft} (recorded : note.Records scope draft) :
    AllRecord scope [note] [draft] :=
  ⟨draft, [], rfl, recorded, rfl⟩

end Note

/-! ## Targets -/

namespace Context

variable {c : Context} {scope : List Label}

/-- A label is that of the first frame that has it, and no other frame does. -/
theorem resolveTarget_label {i : Nat} {frame : Frame} (distinct : (c.frames.map (·.label)).Nodup)
    (found : c.frames[i]? = some frame) :
    c.resolveTarget (.label frame.label) = .ok (i, frame.labelTypes) := by
  obtain ⟨inside, rfl⟩ := List.getElem?_eq_some_iff.mp found
  have place : c.frames.findIdx (·.label = c.frames[i].label) = i := by
    rw [List.findIdx_eq inside]
    refine ⟨decide_eq_true rfl, fun j before => decide_eq_false fun same => ?_⟩
    have inside' : i < (c.frames.map (·.label)).length := by rwa [List.length_map]
    have further := Nat.lt_trans before inside'
    have equal : (c.frames.map (·.label))[j] = (c.frames.map (·.label))[i] := by simpa using same
    exact Nat.ne_of_lt before (distinct.getElem_inj_iff.mp equal)
  simp only [resolveTarget, place, found]

theorem resolveTarget_unknown {l : Label} (unknown : l ∉ c.frames.map (·.label)) :
    c.resolveTarget (.label l) = .error (.unknownLabel (.label l)) := by
  have place : c.frames.findIdx (·.label = l) = c.frames.length := by
    refine List.findIdx_eq_length.mpr fun frame member => decide_eq_false fun same => ?_
    exact unknown (List.mem_map.mpr ⟨frame, member, same⟩)
  simp only [resolveTarget, place, List.getElem?_eq_none (Nat.le_refl _)]

theorem resolveTarget_depth {d : UInt32} {frame : Frame} (found : c.frames[d.toNat]? = some frame) :
    c.resolveTarget (.depth d) = .ok (d.toNat, frame.labelTypes) := by
  simp only [resolveTarget, found]

theorem resolveTarget_beyond {d : UInt32} (beyond : c.depth < d.toNat) :
    c.resolveTarget (.depth d) = .error (.unknownLabel (.depth d)) := by
  have missing : c.frames[d.toNat]? = none := List.getElem?_eq_none beyond
  simp only [resolveTarget, missing]

/-- What a target resolves to is in its place among the labels of the frames. -/
theorem selects_of_resolveTarget {target : Target} {depth : Nat} {types : List ValType}
    (short : scope.length ≤ 2 ^ 32) (labels : c.frames.map (·.label) = scope)
    (resolved : c.resolveTarget target = .ok (depth, types)) :
    target.Selects scope (UInt32.ofNat depth) := by
  subst labels
  cases target with
  | label l =>
      simp only [resolveTarget] at resolved
      split at resolved
      · rename_i frame found
        cases resolved
        obtain ⟨inside, same⟩ := List.getElem?_eq_some_iff.mp found
        have named : decide (frame.label = l) = true := same ▸ List.findIdx_getElem (w := inside)
        rw [List.length_map] at short
        rw [Target.Selects, UInt32.toNat_ofNat', Nat.mod_eq_of_lt (Nat.lt_of_lt_of_le inside short),
          List.getElem?_map, found, Option.map_some, of_decide_eq_true named]
      · cases resolved
  | depth n =>
      simp only [resolveTarget] at resolved
      split at resolved
      · rename_i frame found
        cases resolved
        refine ⟨UInt32.ofNat_toNat, ?_⟩
        rw [List.length_map]
        exact (List.getElem?_eq_some_iff.mp found).1
      · cases resolved

end Context

/-! ## Branches -/

namespace InstrDef

variable {d : InstrDef} {c : Context} {scope : List Label}

/-- The labels of a branch table are the depths of its targets, in order. -/
theorem selects_of_branchLabels {arity : Nat} {targets : List Target} {depths : List UInt32}
    (short : scope.length ≤ 2 ^ 32) (labels : c.frames.map (·.label) = scope)
    (h : d.branchLabels c arity targets = .ok depths) :
    List.Forall₂ (Target.Selects scope) targets depths := by
  induction targets generalizing depths with
  | nil =>
      cases h
      exact .nil
  | cons target rest ih =>
      rw [branchLabels] at h
      obtain ⟨⟨depth, types⟩, resolved, h⟩ := Except.bind_eq_ok.mp h
      dsimp only at h
      split at h
      · obtain ⟨_, -, h⟩ := Except.bind_eq_ok.mp h
        obtain ⟨others, each, same⟩ := Except.bind_eq_ok.mp h
        cases same
        exact .cons (Context.selects_of_resolveTarget short labels resolved) (ih each)
      · cases h

end InstrDef

/-! ## Linked code -/

namespace Note

variable {scope : List Label}

/-- An instruction without a body carries the depths of its targets. -/
theorem selects_of_link {d : InstrDef} {c : Context} {argument : Argument} {effect : Effect}
    {indices : List UInt32} {i : Immediate} (member : d ∈ InstrSet.standard.defs)
    (short : scope.length ≤ 2 ^ 32) (labels : c.frames.map (·.label) = scope)
    (allowed : d.effect c argument = .ok effect)
    (linked : effect.capture.link d indices = .ok i) : argument.Selects scope i := by
  have links := (InstrSet.standard_coherent d member).links
  obtain ⟨rule, typing, derived⟩ := InstrDef.exists_hasEffect allowed
  rw [typing] at links
  cases derived with
  | br resolved | brIf resolved =>
      exact ⟨_, eq_of_link_literal (beq_iff_eq.mp links) linked,
        Context.selects_of_resolveTarget short labels resolved⟩
  | brTable resolved labelled =>
      exact ⟨_, _, eq_of_link_literal (beq_iff_eq.mp links) linked,
        InstrDef.selects_of_branchLabels short labels labelled,
        Context.selects_of_resolveTarget short labels resolved⟩
  | _ => trivial

mutual

/-- A draft becomes the instruction that its note stands for. -/
theorem stands_of_link (scope : List Label) : (note : Note) → (draft : Draft) →
    (indices : List UInt32) → (i : Instr) → note.Records scope draft →
    draft.link indices = .ok i → note.Stands scope i
  | .instr name argument, draft, indices, i, recorded, linked => by
      obtain ⟨short, d, c, effect, found, labels, allowed, rfl⟩ := recorded
      obtain ⟨member, rfl⟩ := InstrSet.mem_of_named found
      obtain ⟨immediate, made, rfl⟩ := link_eq_ok.mp linked
      exact ⟨rfl, selects_of_link member short labels allowed made⟩
  | .block label name type body, draft, indices, i, recorded, linked => by
      obtain ⟨d, c, effect, drafts, found, inside, allowed, rfl⟩ := recorded
      obtain ⟨-, blockType, rest, code, rfl, -, linkedBody⟩ := linked_block found allowed linked
      exact ⟨blockType, code, rfl,
        allStand_of_linkAll (label :: scope) body drafts rest code inside linkedBody⟩
  | .ifThen label type thenBody, draft, indices, i, recorded, linked => by
      obtain ⟨d, c, effect, drafts, found, inside, allowed, rfl⟩ := recorded
      obtain ⟨-, blockType, rest, code, rfl, -, linkedBody⟩ := linked_ifThen found allowed linked
      exact ⟨blockType, code, rfl,
        allStand_of_linkAll (label :: scope) thenBody drafts rest code inside linkedBody⟩
  | .ifElse label type thenBody elseBody, draft, indices, i, recorded, linked => by
      obtain ⟨d, c, effect, drafts, elseDrafts, found, inside, insideElse, allowed, rfl⟩ := recorded
      obtain ⟨-, blockType, rest, code, elseCode, rfl, -, linkedBody, linkedElse⟩ :=
        linked_ifElse found allowed linked
      exact ⟨blockType, code, elseCode, rfl,
        allStand_of_linkAll (label :: scope) thenBody drafts _ code inside linkedBody,
        allStand_of_linkAll (label :: scope) elseBody elseDrafts _ elseCode insideElse linkedElse⟩

theorem allStand_of_linkAll (scope : List Label) : (notes : List Note) → (drafts : List Draft) →
    (indices : List UInt32) → (code : List Instr) → AllRecord scope notes drafts →
    Draft.linkAll indices drafts = .ok code → AllStand scope notes code
  | [], drafts, indices, code, recorded, linked => by
      cases recorded
      exact (linkAll_nil_eq_ok.mp linked).2
  | note :: rest, drafts, indices, code, recorded, linked => by
      obtain ⟨draft, others, rfl, first, more⟩ := recorded
      obtain ⟨-, i, code', rfl, linkedFirst, linkedRest⟩ := linkAll_cons_eq_ok.mp linked
      exact ⟨i, code', rfl, stands_of_link scope note draft _ i first linkedFirst,
        allStand_of_linkAll scope rest others _ code' more linkedRest⟩

end

end Note

end Wasm
