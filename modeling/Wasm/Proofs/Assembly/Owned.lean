import Wasm.Proofs.Assembly.Accepted
import Wasm.Proofs.Assembly.Handles
import Wasm.Proofs.Assembly.Outcome

/-!
# Builders that are asked for their own entities

A client whose bodies and constants use the handles that its builder gave it, and
no others, never has a reference that leads nowhere. What a body refers to is what
the arguments of its calls carry, at any depth, and a handle that was given denotes
a declaration for good. So everything that the roots need is there, and building
can only fail for the three reasons that are left.
-/

namespace Wasm

/-! ## The handles in code -/

/-- The handles of an argument. -/
def Argument.handles : Argument → List Handle
  | .func handle => [.func handle]
  | .globalVar handle => [.global handle]
  | .table handle | .callIndirect handle _ => [.table handle]
  | .tablePair destination source => [.table destination, .table source]
  | _ => []

mutual

/-- The handles of a call and of the calls in its bodies, at any depth. -/
def Call.handles : Call → List Handle
  | .instr _ argument => argument.handles
  | .block _ _ body => Call.allHandles body
  | .ifThen _ thenBody => Call.allHandles thenBody
  | .ifElse _ thenBody elseBody => Call.allHandles thenBody ++ Call.allHandles elseBody

def Call.allHandles : List Call → List Handle
  | [] => []
  | call :: rest => call.handles ++ Call.allHandles rest

end

/-- The handles of a constant. -/
def ConstExpr.handles : ConstExpr → List Handle
  | .refFunc handle => [.func handle]
  | .globalGet handle => [.global handle]
  | _ => []

/-- Each entity among the references is that of a handle. -/
def Covers (given : List Handle) (references : List Reference) : Prop :=
  ∀ entity, .entity entity ∈ references → entity ∈ given.map Handle.entity

namespace Covers

variable {given : List Handle} {references references' : List Reference}

theorem nothing : Covers given [] :=
  fun _ => (nomatch ·)

theorem single {handle : Handle} (own : handle ∈ given) :
    Covers given [.entity handle.entity] := by
  intro entity named
  cases List.mem_singleton.mp named
  exact List.mem_map_of_mem own

/-- What is not an entity needs no handle. -/
theorem mark {r : Reference} (other : ∀ entity, r ≠ .entity entity) : Covers given [r] := by
  intro entity named
  exact absurd (List.mem_singleton.mp named).symm (other entity)

theorem append (first : Covers given references) (second : Covers given references') :
    Covers given (references ++ references') := by
  intro entity named
  exact (List.mem_append.mp named).elim (first entity) (second entity)

theorem more {given' : List Handle} (h : Covers given references)
    (grown : ∀ handle ∈ given, handle ∈ given') : Covers given' references := by
  intro entity named
  obtain ⟨handle, member, rfl⟩ := List.mem_map.mp (h entity named)
  exact List.mem_map_of_mem (grown handle member)

end Covers

section Code

variable {given : List Handle}

theorem ConstExpr.covers {init : ConstExpr} (own : ∀ handle ∈ init.handles, handle ∈ given) :
    Covers given init.references := by
  cases init with
  | refFunc | globalGet => exact .single (own _ List.mem_cons_self)
  | _ => exact .nothing

/-- An instruction without bodies refers to what its argument carries. -/
theorem InstrDef.covers_of_effect {d : InstrDef} {c : Context} {argument : Argument}
    {effect : Effect} (plain : d.typing ≠ .block ∧ d.typing ≠ .conditional)
    (allowed : d.effect c argument = .ok effect)
    (own : ∀ handle ∈ argument.handles, handle ∈ given) : Covers given effect.references := by
  obtain ⟨rule, typing, derived⟩ := exists_hasEffect allowed
  cases derived with
  | memory | naturalAccess | access => exact .mark (fun _ => nofun)
  | globalGet | globalSet | call | tableGet | tableSet | tableSize | tableGrow | tableFill =>
      exact .single (own _ List.mem_cons_self)
  | refFunc | callIndirect =>
      exact (Covers.single (own _ List.mem_cons_self)).append (.mark fun _ => nofun)
  | tableCopy =>
      exact (Covers.single (own _ List.mem_cons_self)).append
        (.single (own _ (List.mem_cons_of_mem _ List.mem_cons_self)))
  | block => exact absurd typing plain.1
  | ifThen | ifElse => exact absurd typing plain.2
  | _ => exact .nothing

/-- A construct refers to what its bodies refer to. -/
theorem InstrDef.covers_structured {type : FuncType} {bodies : List Draft}
    (inner : Covers given (Draft.allReferences bodies)) :
    Covers given (InstrDef.structuredReferences type bodies) := by
  refine Covers.append ?_ inner
  split
  · exact .mark fun _ => nofun
  · exact .nothing

mutual

theorem Call.covers_of_makes : (call : Call) → (draft : Draft) → call.Makes draft →
    (∀ handle ∈ call.handles, handle ∈ given) → Covers given draft.references
  | .instr name argument, draft, made, own => by
      obtain ⟨d, c, effect, found, plain, allowed, rfl⟩ := made
      have coherent := InstrSet.standard_coherent d (InstrSet.mem_of_named found).1
      exact InstrDef.covers_of_effect (InstrDef.not_structured_of_plain plain coherent) allowed own
  | .block name type body, draft, made, own => by
      obtain ⟨d, c, effect, drafts, found, madeBody, allowed, rfl⟩ := made
      obtain ⟨-, rfl⟩ := d.effect_block allowed
      exact InstrDef.covers_structured (Call.covers_of_allMake body drafts madeBody own)
  | .ifThen type thenBody, draft, made, own => by
      obtain ⟨d, c, effect, drafts, found, madeBody, allowed, rfl⟩ := made
      obtain ⟨-, rfl⟩ := d.effect_ifThen allowed
      exact InstrDef.covers_structured (Call.covers_of_allMake thenBody drafts madeBody own)
  | .ifElse type thenBody elseBody, draft, made, own => by
      obtain ⟨d, c, effect, drafts, elseDrafts, found, madeBody, madeElse, allowed, rfl⟩ := made
      obtain ⟨-, rfl⟩ := d.effect_ifElse allowed
      refine InstrDef.covers_structured ?_
      rw [Draft.allReferences, List.flatMap_append]
      rw [Call.handles, List.forall_mem_append] at own
      exact (Call.covers_of_allMake thenBody drafts madeBody own.1).append
        (Call.covers_of_allMake elseBody elseDrafts madeElse own.2)

theorem Call.covers_of_allMake : (calls : List Call) → (drafts : List Draft) →
    AllMake calls drafts → (∀ handle ∈ Call.allHandles calls, handle ∈ given) →
      Covers given (Draft.allReferences drafts)
  | [], drafts, made, own => by
      cases made
      exact .nothing
  | call :: rest, drafts, made, own => by
      obtain ⟨draft, others, rfl, madeFirst, madeRest⟩ := made
      rw [Call.allHandles, List.forall_mem_append] at own
      rw [Draft.allReferences, List.flatMap_cons]
      exact (Call.covers_of_makes call draft madeFirst own.1).append
        (Call.covers_of_allMake rest others madeRest own.2)

end

end Code

/-! ## Clients that use what they were given -/

/-- The construction is a program, and the calls that it makes and keeps have these
handles only. -/
def Construction.UsesOnly {σ : Type} (build : Construction σ Unit) (type : FuncType) (client : σ)
    (given : List Handle) : Prop :=
  ∃ calls, Program build calls ∧
    ∀ handle ∈ Call.allHandles (calls ⟨Context.forFunction type, client⟩), handle ∈ given

theorem Construction.UsesOnly.covers {σ : Type} {build : Construction σ Unit} {type : FuncType}
    {client client' : σ} {given : List Handle} {body : FuncBody}
    (own : build.UsesOnly type client given)
    (done : FuncBody.construct type client build = (.ok body, client')) :
    Covers given (Draft.allReferences body.code) := by
  obtain ⟨calls, program, own⟩ := own
  have builtBy : FuncBody.BuiltBy type (calls ⟨Context.forFunction type, client⟩) body :=
    ⟨_, _, _, _, _, program, rfl, done⟩
  exact Call.covers_of_allMake _ body.code builtBy.allMake own

/-- The body or the constants that come with the operation use these handles only. -/
def Operation.UsesOnly (given : List Handle) : Operation → Prop
  | .func type client build => build.UsesOnly type client given
  | .defineFunc handle client build => build.UsesOnly handle.type client given
  | .global init _ => ∀ handle ∈ init.handles, handle ∈ given
  | .table _ elements => ∀ init ∈ elements.getD [], ∀ handle ∈ init.handles, handle ∈ given
  | _ => True

/-- What the roots ask for was declared by the client of these handles. -/
def Roots.UsesOnly (given : List Handle) (roots : Roots) : Prop :=
  Covers given roots.references

namespace Ledger

/-- The ledgers of clients that use the handles in them, and no others. What a
refused operation uses does not matter. -/
inductive Owning : Ledger → Prop
  | start : Owning {}
  | accepted {l : Ledger} {given : Option Handle} {b' : ModuleBuilder} (h : Owning l)
      (op : Operation) (own : op.UsesOnly l.given) (done : op.enact l.builder = .ok given b') :
      Owning ⟨b', l.given ++ given.toList⟩
  | refused {l : Ledger} {e : BuildError} {b' : ModuleBuilder} (h : Owning l) (op : Operation)
      (failed : op.enact l.builder = .error e b') : Owning ⟨b', l.given⟩

variable {l : Ledger}

theorem Owning.steps (h : l.Owning) : Steps {} l := by
  induction h with
  | start => exact .refl
  | accepted _ op _ done ih => exact ih.tail (.accepted op done)
  | refused _ op failed ih => exact ih.tail (.refused op failed)

end Ledger

/-! ## What is recorded -/

section Recorded

variable {given : List Handle}

def FuncDecl.RefersWithin (given : List Handle) (decl : FuncDecl) : Prop :=
  ∀ body, decl.content = .defined body → Covers given (Draft.allReferences body.code)

def GlobalDecl.RefersWithin (given : List Handle) (decl : GlobalDecl) : Prop :=
  ∀ init, decl.content = .defined init → Covers given init.references

def TableDecl.RefersWithin (given : List Handle) (decl : TableDecl) : Prop :=
  ∀ init ∈ decl.elements.getD [], Covers given init.references

/-- All entities that the bodies and the constants of the builder refer to are those
of handles. -/
structure ModuleBuilder.RefersWithin (b : ModuleBuilder) (given : List Handle) : Prop where
  funcs : ∀ decl ∈ b.funcs, decl.RefersWithin given
  globals : ∀ decl ∈ b.globals, decl.RefersWithin given
  tables : ∀ decl ∈ b.tables, decl.RefersWithin given

namespace ModuleBuilder

variable {b b' : ModuleBuilder}

theorem RefersWithin.more {given' : List Handle} (h : b.RefersWithin given)
    (grown : ∀ handle ∈ given, handle ∈ given') : b.RefersWithin given' where
  funcs decl member body defined := (h.funcs decl member body defined).more grown
  globals decl member init defined := (h.globals decl member init defined).more grown
  tables decl member init listed := (h.tables decl member init listed).more grown

theorem RefersWithin.step (h : b.RefersWithin given)
    (funcs : ∀ decl ∈ b'.funcs, decl ∈ b.funcs ∨ decl.RefersWithin given)
    (globals : ∀ decl ∈ b'.globals, decl ∈ b.globals ∨ decl.RefersWithin given)
    (tables : ∀ decl ∈ b'.tables, decl ∈ b.tables ∨ decl.RefersWithin given) :
    b'.RefersWithin given where
  funcs decl member := (funcs decl member).elim (h.funcs decl) id
  globals decl member := (globals decl member).elim (h.globals decl) id
  tables decl member := (tables decl member).elim (h.tables decl) id

theorem RefersWithin.addFunc (h : b.RefersWithin given) {type : FuncType} {content : FuncContent}
    (new : FuncDecl.RefersWithin given ⟨type, content⟩) :
    (b.addFunc type content).2.RefersWithin given :=
  h.step (mem_or_last new) (fun _ => .inl) fun _ => .inl

theorem RefersWithin.addGlobal (h : b.RefersWithin given) {type : GlobalType}
    {content : GlobalContent} (new : GlobalDecl.RefersWithin given ⟨type, content⟩) :
    (b.addGlobal type content).2.RefersWithin given :=
  h.step (fun _ => .inl) (mem_or_last new) fun _ => .inl

theorem RefersWithin.addTable (h : b.RefersWithin given) {decl : TableDecl} {handle : TableHandle}
    (done : b.addTable decl = .ok (handle, b')) (new : decl.RefersWithin given) :
    b'.RefersWithin given := by
  obtain ⟨-, -, -, -, rfl⟩ := addTable_eq_ok.mp done
  exact h.step (fun _ => .inl) (fun _ => .inl) (mem_or_last new)

theorem RefersWithin.addMemory (h : b.RefersWithin given) {decl : MemoryDecl}
    {handle : MemoryHandle} (done : b.addMemory decl = .ok (handle, b')) : b'.RefersWithin given := by
  obtain ⟨-, -, -, rfl⟩ := addMemory_eq_ok.mp done
  exact h.step (fun _ => .inl) (fun _ => .inl) fun _ => .inl

/-- What an operation records comes with it. -/
theorem RefersWithin.answer (h : b.RefersWithin given) {op : Operation} {handle : Option Handle}
    (own : op.UsesOnly given) (done : b.answer op = .ok (handle, b')) : b'.RefersWithin given := by
  cases op with
  | declareFunc type | importFunc name type =>
      cases done
      exact h.addFunc nofun
  | importGlobal name type =>
      cases done
      exact h.addGlobal nofun
  | func type client build =>
      obtain ⟨⟨handle, b₁⟩, made, same⟩ := Except.map_eq_ok.mp done
      cases same
      obtain ⟨body, constructed, added⟩ := func_eq_ok.mp (Prod.ext made rfl)
      cases added
      refine h.addFunc fun body' same => ?_
      cases same
      exact own.covers constructed
  | defineFunc handle client build =>
      obtain ⟨b₁, made, same⟩ := Except.map_eq_ok.mp done
      cases same
      obtain ⟨body, -, constructed, rfl⟩ := defineFunc_eq_ok.mp (Prod.ext made rfl)
      refine h.step (fun decl member => ?_) (fun _ => .inl) fun _ => .inl
      refine (List.mem_or_eq_of_mem_set member).imp_right fun new => ?_
      subst new
      rintro body' ⟨⟩
      exact own.covers constructed
  | global init isMutable =>
      obtain ⟨⟨handle, b₁⟩, made, same⟩ := Except.map_eq_ok.mp done
      cases same
      obtain ⟨-, added⟩ := global_eq_ok.mp made
      cases added
      refine h.addGlobal fun init' same => ?_
      cases same
      exact ConstExpr.covers own
  | table type elements =>
      obtain ⟨⟨handle, b₁⟩, made, same⟩ := Except.map_eq_ok.mp done
      cases same
      exact h.addTable made fun init listed => ConstExpr.covers (own init listed)
  | importTable name type =>
      obtain ⟨⟨handle, b₁⟩, made, same⟩ := Except.map_eq_ok.mp done
      cases same
      exact h.addTable made nofun
  | memory type data | importMemory name type data =>
      obtain ⟨⟨handle, b₁⟩, made, same⟩ := Except.map_eq_ok.mp done
      cases same
      exact h.addMemory made

end ModuleBuilder

end Recorded

namespace ModuleBuilder

variable {b b' : ModuleBuilder} {given : List Handle} {roots : Roots} {entity : Entity}

/-- With a program for each body, the library answers with builders that can be reached. -/
theorem Reached.answer (h : b.Reached) {op : Operation} {handle : Option Handle}
    (own : op.UsesOnly given) (done : b.answer op = .ok (handle, b')) : b'.Reached := by
  cases op with
  | declareFunc type =>
      cases done
      exact h.declareFunc type
  | importFunc name type =>
      cases done
      exact h.importFunc name type
  | importGlobal name type =>
      cases done
      exact h.importGlobal name type
  | func type client build =>
      obtain ⟨calls, program, -⟩ := own
      obtain ⟨⟨handle, b₁⟩, made, same⟩ := Except.map_eq_ok.mp done
      cases same
      exact h.func program (Prod.ext made rfl)
  | defineFunc handle client build =>
      obtain ⟨calls, program, -⟩ := own
      obtain ⟨b₁, made, same⟩ := Except.map_eq_ok.mp done
      cases same
      exact h.defineFunc program (Prod.ext made rfl)
  | global init isMutable =>
      obtain ⟨⟨handle, b₁⟩, made, same⟩ := Except.map_eq_ok.mp done
      cases same
      exact h.global made
  | table type elements =>
      obtain ⟨⟨handle, b₁⟩, made, same⟩ := Except.map_eq_ok.mp done
      cases same
      exact h.table made
  | importTable name type =>
      obtain ⟨⟨handle, b₁⟩, made, same⟩ := Except.map_eq_ok.mp done
      cases same
      exact h.importTable made
  | memory type data =>
      obtain ⟨⟨handle, b₁⟩, made, same⟩ := Except.map_eq_ok.mp done
      cases same
      exact h.memory made
  | importMemory name type data =>
      obtain ⟨⟨handle, b₁⟩, made, same⟩ := Except.map_eq_ok.mp done
      cases same
      exact h.importMemory made

theorem mem_entities_of_entry {entry : Entry} (there : b.entry entity = some entry) :
    entity ∈ b.entities := by
  obtain ⟨kind, id⟩ := entity
  have inside : id < b.count kind := by
    rw [← b.length_declared kind]
    exact (List.getElem?_eq_some_iff.mp there).1
  have ofKind : ⟨kind, id⟩ ∈ b.entitiesOf kind := by
    cases kind <;> exact List.mem_map_of_mem (List.mem_range.mpr inside)
  exact (mem_entitiesOf.mp ofKind).1

/-- From roots of the client, only what was given to it is ever needed. -/
theorem given_of_needed (built : b.BodiesBuilt) (within : b.RefersWithin given)
    (own : roots.UsesOnly given) (needed : b.Needed roots entity) :
    entity ∈ given.map Handle.entity := by
  induction needed with
  | exported member => exact own _ (List.mem_append_left _ (List.mem_map_of_mem member))
  | start started =>
      refine own _ (List.mem_append_right _ ?_)
      rw [started]
      exact List.mem_singleton_self _
  | mentioned _ mentions _ =>
      cases mentions with
      | code declared defined inside named =>
          exact within.funcs _ (List.mem_of_getElem? declared) _ defined _
            ((built.accounts declared defined).complete _ inside _ named)
      | init declared defined named =>
          exact within.globals _ (List.mem_of_getElem? declared) _ defined _ named
      | entry declared filled inside named =>
          refine within.tables _ (List.mem_of_getElem? declared) _ ?_ _ named
          rw [filled]
          exact inside

end ModuleBuilder

/-! ## What can go wrong -/

namespace Ledger

variable {l : Ledger} {roots : Roots}

theorem Owning.within (h : l.Owning) :
    l.builder.Reached ∧ l.builder.RefersWithin l.given := by
  induction h with
  | start => exact ⟨.empty, nofun, nofun, nofun⟩
  | accepted _ op own done ih =>
      have answered := Operation.answer_of_enact done
      refine ⟨ih.1.answer own answered, (ih.2.answer own answered).more fun handle member => ?_⟩
      exact List.mem_append_left _ member
  | refused _ op failed ih => exact Operation.unchanged_of_enact_error failed ▸ ih

theorem Owning.knows (h : l.Owning) (own : roots.UsesOnly l.given) : l.builder.Knows roots := by
  intro entity needed
  obtain ⟨reached, within⟩ := h.within
  have given := ModuleBuilder.given_of_needed reached.bodiesBuilt within own needed
  obtain ⟨handle, member, rfl⟩ := List.mem_map.mp given
  have sound : l.Sound := h.steps.sound ⟨nofun, List.nodup_nil⟩
  obtain ⟨entry, there, -⟩ := sound.denotes handle member
  exact ModuleBuilder.mem_entities_of_entry there

/-- With its own handles a client gets a module exactly if the names of the exports
are distinct, every function that is needed has a body or is an import, and there is
a memory if code that is needed uses one. Otherwise the error says which of the three
fails, the first of them in this order. -/
theorem build_succeeds_iff (owning : l.Owning) (own : roots.UsesOnly l.given) :
    ((∃ m, l.builder.build roots = .ok m) ↔ roots.Distinct ∧ l.builder.Defines roots ∧
      (l.builder.UsesMemory roots → l.builder.memories ≠ [])) ∧
    ∀ e, l.builder.build roots = .error e →
      (¬roots.Distinct ∧ ∃ name, e = .duplicateExport name ∧
        2 ≤ (roots.exports.map (·.1)).count name) ∨
      (roots.Distinct ∧ ¬l.builder.Defines roots ∧ ∃ id decl, e = .undefinedFunction id ∧
        l.builder.Needed roots ⟨.func, id⟩ ∧ l.builder.funcs[id]? = some decl ∧
        decl.content = .pending) ∨
      (roots.Distinct ∧ l.builder.Defines roots ∧ l.builder.UsesMemory roots ∧
        l.builder.memories = [] ∧ e = .missingMemory) := by
  have knows := owning.knows own
  obtain ⟨built, explains⟩ := ModuleBuilder.build_outcome owning.within.1 roots
  refine ⟨built.trans ⟨fun h => ⟨h.distinct, h.defines, h.memory⟩, ?_⟩, fun e failed => ?_⟩
  · rintro ⟨distinct, defines, memory⟩
    exact ⟨distinct, knows, defines, memory⟩
  · have explained := explains e failed
    unfold ModuleBuilder.Explains at explained
    split at explained
    · rename_i name
      refine .inl ⟨fun distinct => ?_, name, rfl, explained⟩
      have once := List.nodup_iff_count_le_one.mp distinct name
      omega
    · obtain ⟨distinct, needed, decl, declared, pending⟩ := explained
      refine .inr (.inl ⟨distinct, fun defines => ?_, _, decl, rfl, needed, declared, pending⟩)
      rcases defines _ decl needed declared with ⟨_, other⟩ | ⟨_, other⟩ <;>
        cases pending.symm.trans other
    · exact absurd (knows _ explained.2.1) explained.2.2
    · obtain ⟨distinct, -, defines, uses, none⟩ := explained
      exact .inr (.inr ⟨distinct, defines, uses, none, rfl⟩)
    · exact explained.elim

/-- A client imports a function, writes another one that calls it, and exports that. -/
theorem build_succeeds_iff_callsImport :
    let roots : Roots := { exports := [("run", ⟨.func, 1⟩)] }
    ∃ l : Ledger, l.Owning ∧ l.builder = ModuleBuilder.callsImport ∧ roots.UsesOnly l.given ∧
      roots.Distinct ∧ l.builder.Defines roots ∧
      (l.builder.UsesMemory roots → l.builder.memories ≠ []) := by
  intro roots
  let f : FuncHandle := ⟨0, ⟨[.i32], []⟩⟩
  let run : FuncHandle := ⟨1, ⟨[], []⟩⟩
  let act : Construction Unit Unit := do
    let _ ← Construction.instr "call" (.func f) [.i32 7]
  have imported : Owning ⟨(ModuleBuilder.importFunc {} ⟨"m", "f"⟩ f.type).2, [.func f]⟩ :=
    Owning.start.accepted (.importFunc ⟨"m", "f"⟩ f.type) trivial rfl
  have uses : act.UsesOnly run.type () [.func f] :=
    ⟨_, .bind (.instr _ _ _) fun _ => .pure (), fun handle member => member⟩
  have owning : Owning ⟨ModuleBuilder.callsImport, [.func f, .func run]⟩ :=
    imported.accepted (.func run.type () act) uses rfl
  have given : Handle.func run ∈ [Handle.func f, .func run] :=
    List.mem_cons_of_mem _ List.mem_cons_self
  have own : roots.UsesOnly [.func f, .func run] := Covers.single given
  have built := (build_succeeds_iff owning own).1.mp ⟨_, ModuleBuilder.callsImport_build⟩
  exact ⟨_, owning, rfl, own, built⟩

end Ledger

namespace ModuleBuilder

/-! ## Handles of other builders -/

/-- A function that calls one which another builder declared second. -/
def callsForeign : ModuleBuilder where
  funcs := [
    ⟨⟨[], []⟩, .defined ⟨[], [
      ⟨⟨"call", InstrSet.byte 0x10, .index, none, .call, .index⟩, [.func 1], [], [],
        .literal .none⟩]⟩⟩]

theorem callsForeign_reached : callsForeign.Reached := by
  let act : Construction Unit Unit := do
    let _ ← Construction.instr "call" (.func ⟨1, ⟨[], []⟩⟩) []
  have done : ModuleBuilder.func {} ⟨[], []⟩ () act = (.ok (⟨0, ⟨[], []⟩⟩, callsForeign), ()) := rfl
  exact Reached.empty.func (.bind (.instr _ _ _) fun _ => .pure ()) done

theorem callsForeign_build : callsForeign.build { exports := [("run", ⟨.func, 0⟩)] } =
    .error (.unresolved (.reference (.func 1))) := by
  have followed : callsForeign.follow {} [.entity ⟨.func, 0⟩] =
      .error (.unresolved (.reference (.func 1))) :=
    (follow_new rfl rfl).trans (follow_failed rfl rfl)
  have searched : callsForeign.reach { exports := [("run", ⟨.func, 0⟩)] } =
      .error (.unresolved (.reference (.func 1))) := by
    show (callsForeign.follow {} [.entity ⟨.func, 0⟩] >>= callsForeign.withMemory) = _
    rw [followed]
    rfl
  show (callsForeign.reach { exports := [("run", ⟨.func, 0⟩)] } >>= _) = _
  rw [searched]
  rfl

/-- A function whose call of itself is hidden from its references. -/
def callsHidden : ModuleBuilder where
  funcs := [
    ⟨⟨[], []⟩, .defined ⟨[], [
      ⟨⟨"block", InstrSet.byte 0x02, .block, none, .block, .block⟩, [], [], [],
        .block ⟨[], []⟩ [Script.hidingBlock]⟩]⟩⟩]

theorem callsHidden_scripted : callsHidden.Scripted := by
  have done : ModuleBuilder.func {} ⟨[], []⟩ () Script.aroundHiding.run =
      (.ok (⟨0, ⟨[], []⟩⟩, callsHidden), ()) := rfl
  exact Scripted.empty.func _ done

theorem callsHidden_build : callsHidden.build { exports := [("run", ⟨.func, 0⟩)] } =
    .error (.unresolved (.tooFewRemain "call" 1 0)) := by
  have followed : callsHidden.follow {} [.entity ⟨.func, 0⟩] =
      .ok { entities := [⟨.func, 0⟩] } := follow_single rfl
  have searched : callsHidden.reach { exports := [("run", ⟨.func, 0⟩)] } =
      .ok { entities := [⟨.func, 0⟩] } := Except.bind_eq_ok.mpr ⟨_, followed, rfl⟩
  show (callsHidden.reach { exports := [("run", ⟨.func, 0⟩)] } >>= _) = _
  rw [searched]
  rfl

/-- The roots may all be of the builder, and yet there can be a reference that leads
nowhere, where a body uses the handle of another builder. And everything that code
refers to may be of the builder, and yet there can be no number for it, where the
code is made by hand. -/
theorem not_forall_build_ne_unresolved :
    (¬∀ (b : ModuleBuilder) (roots : Roots), b.Reached → roots.Within b →
      ∀ fault, b.build roots ≠ .error (.unresolved fault)) ∧
    ¬∀ (b : ModuleBuilder) (roots : Roots), b.Scripted → roots.Within b →
      (∀ decl ∈ b.funcs, ∀ body, decl.content = .defined body →
        ∀ draft ∈ Draft.everywhere body.code, ∀ entity, .entity entity ∈ draft.references →
          entity ∈ b.entities) →
      ∀ fault, b.build roots ≠ .error (.unresolved fault) := by
  refine ⟨fun never => ?_, fun never => ?_⟩
  · have own : Roots.Within { exports := [("run", ⟨.func, 0⟩)] } callsForeign :=
      Roots.within_single List.mem_cons_self
    exact never callsForeign _ callsForeign_reached own _ callsForeign_build
  · have own : Roots.Within { exports := [("run", ⟨.func, 0⟩)] } callsHidden :=
      Roots.within_single List.mem_cons_self
    refine never callsHidden _ callsHidden_scripted own ?_ _ callsHidden_build
    intro decl member body defined
    cases List.mem_singleton.mp member
    cases defined
    -- Only the call, at the third place, refers to something.
    refine List.forall_mem_cons.mpr ⟨nofun, List.forall_mem_cons.mpr ⟨nofun, ?_⟩⟩
    refine List.forall_mem_singleton.mpr fun entity named => ?_
    cases List.mem_singleton.mp named
    exact List.mem_cons_self

end ModuleBuilder

end Wasm
