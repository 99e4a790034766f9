import Wasm.Body.Construction
import Wasm.Proofs.Monads

/-!
# Other ids for the same entities

An id says only where an entity stands in its builder. Nothing that happens
while a body is written looks at it: if all ids are changed alike, in the body
so far and in the argument of the next instruction, then the outcome is the
same, with the ids changed in what was written.
-/

namespace Wasm

/-- New ids for entities, class by class. -/
abbrev Renaming := ExternKind → Nat → Nat

variable (ρ : Renaming)

/-! ## What has ids -/

def Entity.rename (e : Entity) : Entity := ⟨e.kind, ρ e.kind e.id⟩

def FuncHandle.rename (h : FuncHandle) : FuncHandle := { h with id := ρ .func h.id }

def GlobalHandle.rename (h : GlobalHandle) : GlobalHandle := { h with id := ρ .global h.id }

def TableHandle.rename (h : TableHandle) : TableHandle := { h with id := ρ .table h.id }

def Reference.rename : Reference → Reference
  | .entity e => .entity (e.rename ρ)
  | .signature type => .signature type
  | .memoryUse => .memoryUse
  | .funcMention id => .funcMention (ρ .func id)

mutual

def Capture.rename : Capture → Capture
  | .literal immediate => .literal immediate
  | .block type body => .block type (Draft.renameAll body)
  | .ifThen type thenBody => .ifThen type (Draft.renameAll thenBody)
  | .ifElse type thenBody elseBody =>
    .ifElse type (Draft.renameAll thenBody) (Draft.renameAll elseBody)

def Draft.rename : Draft → Draft
  | ⟨d, references, params, results, capture⟩ =>
    ⟨d, references.map (Reference.rename ρ), params, results, capture.rename⟩

def Draft.renameAll : List Draft → List Draft
  | [] => []
  | draft :: rest => draft.rename :: Draft.renameAll rest

end

def Frame.rename (frame : Frame) : Frame :=
  { frame with written := Draft.renameAll ρ frame.written }

def Context.rename (c : Context) : Context :=
  { c with frame := c.frame.rename ρ, outer := c.outer.map (Frame.rename ρ) }

def Argument.rename : Argument → Argument
  | .globalVar handle => .globalVar (handle.rename ρ)
  | .func handle => .func (handle.rename ρ)
  | .callIndirect handle signature => .callIndirect (handle.rename ρ) signature
  | .table handle => .table (handle.rename ρ)
  | .tablePair destination source => .tablePair (destination.rename ρ) (source.rename ρ)
  | .block signature body => .block signature (Draft.renameAll ρ body)
  | .ifThen signature thenBody => .ifThen signature (Draft.renameAll ρ thenBody)
  | .ifElse signature thenBody elseBody =>
    .ifElse signature (Draft.renameAll ρ thenBody) (Draft.renameAll ρ elseBody)
  | other => other

def Operand.rename : Operand → Operand
  | .globalVar handle => .globalVar (handle.rename ρ)
  | other => other

def Effect.rename (effect : Effect) : Effect :=
  { effect with
    references := effect.references.map (Reference.rename ρ)
    capture := effect.capture.rename ρ }

variable {ρ}

/-! ## Drafts -/

theorem Draft.renameAll_eq_map (body : List Draft) :
    Draft.renameAll ρ body = body.map (Draft.rename ρ) := by
  induction body with
  | nil => rw [renameAll, List.map_nil]
  | cons draft rest ih => rw [renameAll, ih, List.map_cons]

theorem Draft.renameAll_reverse (body : List Draft) :
    (Draft.renameAll ρ body).reverse = Draft.renameAll ρ body.reverse := by
  rw [renameAll_eq_map, renameAll_eq_map, List.map_reverse]

theorem Draft.renameAll_append (body body' : List Draft) :
    Draft.renameAll ρ (body ++ body') = Draft.renameAll ρ body ++ Draft.renameAll ρ body' := by
  rw [renameAll_eq_map, renameAll_eq_map, renameAll_eq_map, List.map_append]

theorem Draft.references_rename (draft : Draft) :
    (draft.rename ρ).references = draft.references.map (Reference.rename ρ) := by
  cases draft
  rw [rename]

theorem Draft.allReferences_rename (body : List Draft) :
    Draft.allReferences (Draft.renameAll ρ body) =
      (Draft.allReferences body).map (Reference.rename ρ) := by
  induction body with
  | nil => rfl
  | cons draft rest ih =>
      rw [renameAll, allReferences, List.flatMap_cons, references_rename, allReferences,
        List.flatMap_cons, List.map_append]
      exact congrArg _ ih

/-! ## Looking at a body -/

namespace Context

variable (c : Context)

theorem frames_rename : (c.rename ρ).frames = c.frames.map (Frame.rename ρ) := rfl

theorem returnTypes_rename : (c.rename ρ).returnTypes = c.returnTypes := by
  show (((c.outer.map (Frame.rename ρ)).getLast?).getD (c.frame.rename ρ)).endTypes = _
  rw [List.getLast?_map, returnTypes]
  cases c.outer.getLast? <;> rfl

/-- A place among the frames shows the same types under other ids. -/
theorem getElem?_frames_rename (depth : Nat) :
    (c.rename ρ).frames[depth]? = c.frames[depth]?.map (Frame.rename ρ) := by
  rw [frames_rename, List.getElem?_map]

theorem resolveTarget_rename (target : Target) :
    (c.rename ρ).resolveTarget target = c.resolveTarget target := by
  unfold resolveTarget
  cases target with
  | label l =>
      have same : (c.rename ρ).frames.findIdx (·.label = l) = c.frames.findIdx (·.label = l) := by
        rw [frames_rename, List.findIdx_map]
        rfl
      simp only [same, getElem?_frames_rename]
      cases c.frames[c.frames.findIdx (·.label = l)]? <;> rfl
  | depth d =>
      simp only [getElem?_frames_rename]
      cases c.frames[d.toNat]? <;> rfl

theorem checkTop_rename (name : String) (types : List ValType) (skip : Nat) :
    (c.rename ρ).checkTop name types skip = c.checkTop name types skip := rfl

end Context

/-! ## Effects -/

namespace InstrDef

variable {d : InstrDef} {c : Context}

theorem structuredReferences_rename (type : FuncType) (bodies : List Draft) :
    structuredReferences type (Draft.renameAll ρ bodies) =
      (structuredReferences type bodies).map (Reference.rename ρ) := by
  rw [structuredReferences, structuredReferences, List.map_append, Draft.allReferences_rename]
  split <;> rfl

theorem fixedEffect_rename (i : Immediate) (references : List Reference) :
    d.fixedEffect (.literal i) (references.map (Reference.rename ρ)) =
      (d.fixedEffect (.literal i) references).map (Effect.rename ρ) := by
  rw [fixedEffect, fixedEffect]
  cases d.signatureOf with
  | error e => rfl
  | ok type => rfl

theorem localEffect_rename (params results : ValType → List ValType) (handle : LocalHandle) :
    d.localEffect (c.rename ρ) params results (.localVar handle) =
      (d.localEffect c params results (.localVar handle)).map (Effect.rename ρ) := by
  rw [localEffect, localEffect]
  show (c.localType handle >>= _) = Except.map _ (c.localType handle >>= _)
  cases c.localType handle with
  | error e => rfl
  | ok type => rfl

theorem accessEffect_rename (offset : UInt32) (align : Option UInt32) :
    d.accessEffect offset align = (d.accessEffect offset align).map (Effect.rename ρ) := by
  unfold accessEffect
  split
  · dsimp only
    split
    · rfl
    · exact fixedEffect_rename _ [.memoryUse]
  · rfl

theorem constantEffect_rename (i : Immediate) :
    d.constantEffect (.literal i) = (d.constantEffect (.literal i)).map (Effect.rename ρ) := by
  unfold constantEffect
  dsimp only
  split
  · exact fixedEffect_rename _ []
  · rfl

theorem shuffleEffect_rename (i : Immediate) :
    d.shuffleEffect (.literal i) = (d.shuffleEffect (.literal i)).map (Effect.rename ρ) := by
  unfold shuffleEffect
  split
  · split
    · rfl
    · exact fixedEffect_rename _ []
  · rfl

theorem laneEffect_rename (l : UInt8) :
    d.laneEffect (.lane l) = (d.laneEffect (.lane l)).map (Effect.rename ρ) := by
  unfold laneEffect
  dsimp only
  split
  · split
    · exact fixedEffect_rename _ []
    · rfl
  · rfl

theorem branchLabels_rename (arity : Nat) (targets : List Target) :
    d.branchLabels (c.rename ρ) arity targets = d.branchLabels c arity targets := by
  induction targets with
  | nil => rfl
  | cons target rest ih =>
      rw [branchLabels, branchLabels, Context.resolveTarget_rename, ih]
      rfl

/-- The effect of an instruction does not depend on ids. -/
theorem effect_rename (argument : Argument) :
    d.effect (c.rename ρ) (argument.rename ρ) = (d.effect c argument).map (Effect.rename ρ) := by
  unfold InstrDef.effect
  cases d.typing <;> cases argument
  case fixed.none => exact fixedEffect_rename .none []
  case memory.none => exact fixedEffect_rename .none [.memoryUse]
  case trap.none =>
    show (d.fixedEffect >>= _) = Except.map _ (d.fixedEffect >>= _)
    rw [fixedEffect]
    cases d.signatureOf <;> rfl
  case constant.literal immediate => exact constantEffect_rename immediate
  case shuffle.literal immediate => exact shuffleEffect_rename immediate
  case lane.lane l => exact laneEffect_rename l
  case memoryAccess.none => exact accessEffect_rename _ _
  case memoryAccess.memory => exact accessEffect_rename _ _
  case localGet.localVar | localSet.localVar | localTee.localVar => exact localEffect_rename _ _ _
  case globalSet.globalVar handle =>
    show (if handle.type.isMutable = true then _ else _) = Except.map _ (if _ then _ else _)
    split <;> rfl
  case callIndirect.callIndirect table type =>
    show (if table.type.element = .funcRef then _ else _) = Except.map _ (if _ then _ else _)
    split <;> rfl
  case tableCopy.tablePair destination source =>
    show (if destination.type.element = source.type.element then _ else _) =
      Except.map _ (if _ then _ else _)
    split <;> rfl
  case refNull.type type =>
    show (if type.isRef = true then _ else _) = Except.map _ (if _ then _ else _)
    split <;> rfl
  case select.none =>
    show (if ((c.peekType 1).getD .i32).isRef = true then _ else _) =
      Except.map _ (if _ then _ else _)
    split <;> rfl
  case ret.none =>
    show Except.ok _ = Except.map _ (Except.ok _)
    rw [Context.returnTypes_rename]
    rfl
  case br.branch target | brIf.branch target =>
    show ((c.rename ρ).resolveTarget target >>= _) = Except.map _ (c.resolveTarget target >>= _)
    rw [Context.resolveTarget_rename]
    cases c.resolveTarget target <;> rfl
  case brTable.branchTable targets fallback =>
    show ((c.rename ρ).resolveTarget fallback >>= _) = Except.map _ (c.resolveTarget fallback >>= _)
    rw [Context.resolveTarget_rename]
    cases c.resolveTarget fallback with
    | error e => rfl
    | ok found =>
        show (d.branchLabels (c.rename ρ) _ targets >>= _) =
          Except.map _ (d.branchLabels c _ targets >>= _)
        rw [branchLabels_rename]
        cases d.branchLabels c found.2.length targets <;> rfl
  case block.block type body =>
    show Except.ok _ = Except.map _ (Except.ok _)
    rw [structuredReferences_rename]
    rfl
  case conditional.ifThen type thenBody =>
    show Except.ok _ = Except.map _ (Except.ok _)
    rw [structuredReferences_rename]
    rfl
  case conditional.ifElse type thenBody elseBody =>
    show Except.ok _ = Except.map _ (Except.ok _)
    rw [← Draft.renameAll_append, structuredReferences_rename]
    rfl
  all_goals rfl

end InstrDef

/-! ## Changing a body -/

namespace Context

variable {c : Context}

theorem draftOf_rename (d : InstrDef) (effect : Effect) :
    draftOf d (effect.rename ρ) = (draftOf d effect).rename ρ := by
  rw [draftOf, draftOf, Draft.rename]
  rfl

theorem pop_rename (name : String) (types : List ValType) :
    (c.rename ρ).pop name types = (c.pop name types).map (Context.rename ρ) := by
  rw [pop, pop, checkTop_rename]
  cases c.checkTop name types 0 <;> rfl

theorem push_rename (types : List ValType) :
    (c.rename ρ).push types = ((c.push types).1, (c.push types).2.rename ρ) := rfl

theorem write_rename (draft : Draft) :
    (c.rename ρ).write (draft.rename ρ) = (c.write draft).rename ρ := by
  simp only [write, rename, Frame.rename, Draft.renameAll]

theorem markUnreachable_rename : (c.rename ρ).markUnreachable = c.markUnreachable.rename ρ := rfl

theorem perform_rename (d : InstrDef) (argument : Argument) :
    (c.rename ρ).perform d (argument.rename ρ) =
      (c.perform d argument).map fun done => (done.1, done.2.rename ρ) := by
  rw [perform, perform, d.effect_rename]
  cases d.effect c argument with
  | error e => rfl
  | ok effect =>
      show ((c.rename ρ).pop d.name effect.params >>= _) =
        Except.map _ (c.pop d.name effect.params >>= _)
      rw [pop_rename]
      cases c.pop d.name effect.params with
      | error e => rfl
      | ok popped =>
          simp only [Except.map, Except.ok_bind, draftOf_rename]
          show Except.ok _ = Except.ok _
          cases diverges : effect.diverges <;>
            simp [Effect.rename, diverges, push_rename, write_rename, markUnreachable_rename]

theorem conclude_rename (d : InstrDef) (argument : Argument) :
    (c.rename ρ).conclude d (argument.rename ρ) =
      (c.conclude d argument).map fun done => (done.1, done.2.rename ρ) := by
  rw [conclude, conclude, d.effect_rename]
  cases d.effect c argument with
  | error e => rfl
  | ok effect =>
      simp only [Except.map, Except.ok_bind, draftOf_rename]
      simp [Effect.rename, push_rename, write_rename]

theorem enter_rename (kind : FrameKind) (type : FuncType) :
    (c.rename ρ).enter kind type = ((c.enter kind type).1, (c.enter kind type).2.rename ρ) := by
  rfl

theorem checkEnd_rename : (c.rename ρ).checkEnd = c.checkEnd := rfl

theorem body_rename (frame : Frame) : (frame.rename ρ).body = Draft.renameAll ρ frame.body := by
  rw [Frame.body, Frame.body, Frame.rename, Draft.renameAll_reverse]

theorem exit_rename : (c.rename ρ).exit =
    c.exit.map fun done => (Draft.renameAll ρ done.1, done.2.rename ρ) := by
  rw [exit, exit, checkEnd_rename]
  cases c.checkEnd with
  | error e => rfl
  | ok _ =>
      simp only [Except.ok_bind, rename]
      cases c.outer with
      | nil => rfl
      | cons parent outer =>
          simp only [List.map_cons, body_rename]
          rfl

theorem switchToElse_rename : (c.rename ρ).switchToElse =
    c.switchToElse.map fun done => (Draft.renameAll ρ done.1, done.2.rename ρ) := by
  rw [switchToElse, switchToElse, checkEnd_rename]
  cases c.checkEnd with
  | error e => rfl
  | ok _ =>
      show Except.ok ((c.frame.rename ρ).body, _) = Except.ok (_, _)
      rw [body_rename]
      rfl

theorem rollbackTo_rename (before : Context) :
    (c.rename ρ).rollbackTo (before.rename ρ) = (c.rollbackTo before).rename ρ := rfl

theorem checkPlaces_rename (name : String) (position : Nat) (operands : List Operand) :
    (c.rename ρ).checkPlaces name position (operands.map (Operand.rename ρ)) =
      c.checkPlaces name position operands := by
  induction operands generalizing position with
  | nil => rfl
  | cons operand rest ih =>
      rw [List.map_cons]
      cases operand with
      | var v =>
          show checkPlaces _ name position (.var v :: _) = _
          rw [checkPlaces, checkPlaces, ih, List.length_map]
          rfl
      | _ => exact ih (position + 1)

end Context

end Wasm
