import Wasm.Proofs.Assembly.Bodies
import Wasm.Proofs.Lists

/-!
# The types of a built module

A module lists each signature once, in the order in which it is first needed:
by its functions in the order of their numbers, then by the code of the defined
ones, outer constructs first. Every type index in the module, at any depth of
any body, is the place of the signature that the client gave.
-/

namespace Wasm

/-! ## First occurrences -/

/-- `items` has the members of `all`, in the order in which they first occur. -/
structure FirstOccurrences {α : Type} [BEq α] (all items : List α) : Prop where
  mem : ∀ a, a ∈ items ↔ a ∈ all
  ordered : items.Pairwise fun a b => all.idxOf a < all.idxOf b

theorem FirstOccurrences.nodup {α : Type} [BEq α] {all items : List α}
    (h : FirstOccurrences all items) : items.Nodup :=
  h.ordered.imp fun {a a'} (less : all.idxOf a < all.idxOf a') (same : a = a') =>
    absurd less (same ▸ Nat.lt_irrefl _)

section FirstOccurrences

variable {α : Type} [BEq α] [LawfulBEq α] {all : List α}

/-- Leaving out other items does not change which of two occurs first. -/
theorem idxOf_lt_of_filter {p : α → Bool} {a a' : α} (kept : p a = true) (kept' : p a' = true)
    (less : (all.filter p).idxOf a < (all.filter p).idxOf a') : all.idxOf a < all.idxOf a' := by
  induction all with
  | nil => exact less
  | cons head rest ih =>
      rw [List.idxOf_cons, List.idxOf_cons]
      by_cases keptHead : p head = true
      · rw [List.filter_cons_of_pos keptHead, List.idxOf_cons, List.idxOf_cons] at less
        cases first : head == a <;> cases first' : head == a' <;>
          simp only [first, first', cond_true, cond_false] at less ⊢
        · have := ih (by omega)
          omega
        all_goals omega
      · rw [List.filter_cons_of_neg keptHead] at less
        have other : ∀ {x}, p x = true → (head == x) = false := by
          intro x keptX
          refine beq_eq_false_iff_ne.mpr fun same => keptHead ?_
          rw [same]
          exact keptX
        rw [other kept, other kept', cond_false, cond_false]
        exact Nat.succ_lt_succ (ih less)

theorem firstOccurrences_eraseDups : (all : List α) → FirstOccurrences all all.eraseDups
  | [] => ⟨fun _ => Iff.rfl, .nil⟩
  | head :: rest => by
      have others := firstOccurrences_eraseDups (rest.filter fun a => !a == head)
      have different : ∀ a ∈ (rest.filter fun a => !a == head).eraseDups, (head == a) = false := by
        intro a member
        have := (List.mem_filter.mp ((others.mem a).mp member)).2
        rw [Bool.not_eq_true', beq_eq_false_iff_ne] at this
        exact beq_eq_false_iff_ne.mpr this.symm
      refine ⟨fun a => List.mem_eraseDups, ?_⟩
      rw [List.eraseDups_cons, List.pairwise_cons]
      constructor
      · intro a member
        rw [List.idxOf_cons_self, List.idxOf_cons, different a member]
        exact Nat.succ_pos _
      · refine others.ordered.imp_of_mem fun {a a'} member member' less => ?_
        rw [List.idxOf_cons, List.idxOf_cons, different a member, different a' member']
        refine Nat.succ_lt_succ (idxOf_lt_of_filter ?_ ?_ less)
        · exact (List.mem_filter.mp ((others.mem a).mp member)).2
        · exact (List.mem_filter.mp ((others.mem a').mp member')).2
termination_by all => all.length
decreasing_by
  exact Nat.lt_succ_of_le (List.length_filter_le _ _)

end FirstOccurrences

/-! ## Type indices -/

/-- The signatures that are given with calls and become type indices, in the
order of a walk. -/
def Call.signatures (calls : List Call) : List FuncType :=
  (Call.everywhere calls).filterMap Call.signature?

/-- The type indices in code, in the order of a walk. -/
def Instr.typeIndices (code : List Instr) : List UInt32 :=
  (Instr.everywhere code).filterMap Instr.typeIndex?

namespace Module

variable (m : Module)

/-- The number is that of a signature in the module. -/
def HasType (typeIndex : UInt32) (type : FuncType) : Prop :=
  m.types[typeIndex.toNat]? = some type

/-- The number is that of the signature, if it is one that the reference is about. -/
def TypeAt : Reference → UInt32 → Prop
  | .signature type, n => m.HasType n type
  | _, _ => True

/-- What the types of a module are if its functions have these signatures and
these calls wrote its bodies, one list of calls for each. -/
structure TypedBy (signatures : List FuncType) (bodies : List (List Call)) : Prop where
  nodup : m.types.Nodup
  first : FirstOccurrences (signatures ++ bodies.flatMap Call.signatures) m.types
  /-- The type index of each function, unless there are too many types for their numbers. -/
  funcs : m.types.length ≤ 2 ^ 32 →
    List.Forall₂ m.HasType (m.importedFuncTypes ++ m.funcs.map (·.typeIndex)) signatures
  /-- All type indices in code, and where code has one and where it has none. -/
  code : m.types.length ≤ 2 ^ 32 → List.Forall₂ (fun f calls =>
    List.Forall₂ m.HasType (Instr.typeIndices f.body) (Call.signatures calls) ∧
      Call.AllDenote m.TypeAt calls f.body) m.funcs bodies

end Module

namespace ModuleBuilder

variable {b : ModuleBuilder} {roots : Roots} {reach : Reach} {space : IndexSpace} {m : Module}

/-- The signature that a function was declared with. -/
def DeclaredAs (b : ModuleBuilder) (entity : Entity) (type : FuncType) : Prop :=
  ∃ decl, b.funcs[entity.id]? = some decl ∧ decl.type = type

/-! ## What the types are made of -/

theorem funcDecl?_of_getElem? {entity : Entity} {decl : FuncDecl} (isFunc : entity.kind = .func)
    (found : b.funcs[entity.id]? = some decl) : b.funcDecl? entity = some decl := by
  rw [funcDecl?, if_pos isFunc, found]

theorem types_of_declared {entities : List Entity} {signatures : List FuncType}
    (declared : List.Forall₂ b.DeclaredAs entities signatures)
    (isFunc : ∀ entity ∈ entities, entity.kind = .func) :
    (entities.filterMap b.funcDecl?).map (·.type) = signatures := by
  induction declared with
  | nil => rfl
  | cons first _ ih =>
      obtain ⟨kind, rest⟩ := List.forall_mem_cons.mp isFunc
      obtain ⟨decl, found, rfl⟩ := first
      rw [List.filterMap_cons_some (funcDecl?_of_getElem? kind found), List.map_cons, ih rest]

theorem bodySignatures_of_defined {decl : FuncDecl} {body : FuncBody}
    (defined : decl.content = .defined body) :
    bodySignatures decl = (Draft.allReferences body.code).filterMap Reference.signature? := by
  rw [bodySignatures, defined]
  refine List.filterMap_congr fun r _ => ?_
  cases r <;> rfl

/-- The signatures of a module come from its functions only. -/
theorem funcDecls_order (b : ModuleBuilder) (reach : Reach) :
    (b.order reach).filterMap b.funcDecl? =
      ((b.indexSpace reach).ofKind .func).filterMap b.funcDecl? := by
  have others : ∀ entity : Entity, (entity.kind == ExternKind.func) = false →
      b.funcDecl? entity = none := by
    intro entity other
    rw [funcDecl?, if_neg (beq_eq_false_iff_ne.mp other)]
  rw [filterMap_of_filter _ others]
  rfl

/-- Imports name no signatures but their own. -/
theorem bodySignatures_importedOf (b : ModuleBuilder) (reach : Reach) :
    ((b.importedOf reach .func).filterMap b.funcDecl?).flatMap bodySignatures = [] := by
  rw [List.flatMap_eq_nil_iff]
  intro decl member
  obtain ⟨entity, imported, found⟩ := List.mem_filterMap.mp member
  have isImported := isImported_of_mem imported
  rw [funcDecl?] at found
  split at found
  · rename_i isFunc
    rw [ModuleBuilder.isImported, isFunc] at isImported
    simp only [found, Option.map_some, Option.getD_some] at isImported
    rw [bodySignatures]
    cases content : decl.content with
    | pending | imported => rfl
    | defined body =>
        rw [content] at isImported
        cases isImported
  · cases found

/-- The signatures that the defined functions name are those that were given
with the calls. -/
theorem bodySignatures_of_written {entities : List Entity} {funcs : List Func}
    {bodies : List (List Call)} (links : List.Forall₂ (b.LinksFunc space) entities funcs)
    (written : List.Forall₂ b.WrittenBy entities bodies)
    (isFunc : ∀ entity ∈ entities, entity.kind = .func) :
    (entities.filterMap b.funcDecl?).flatMap bodySignatures = bodies.flatMap Call.signatures := by
  induction links generalizing bodies with
  | nil =>
      cases written
      rfl
  | cons first _ ih =>
      cases written with
      | cons byCalls others =>
          obtain ⟨kind, rest⟩ := List.forall_mem_cons.mp isFunc
          obtain ⟨decl, body, found, defined, walk, -⟩ := first.walk (fun _ _ h => h) byCalls
          rw [List.filterMap_cons_some (funcDecl?_of_getElem? kind found), List.flatMap_cons,
            List.flatMap_cons, ih others rest, bodySignatures_of_defined defined,
            walk.filterMap_eq fun place => place.signature?_eq, Call.signatures]

theorem typeAt_of_names (types : m.types = space.types) (few : m.types.length ≤ 2 ^ 32)
    (r : Reference) (n : UInt32) (named : space.Names r n) : m.TypeAt r n := by
  cases r with
  | signature type =>
      have numbered : NumberOf m.types type n := types ▸ named
      exact numbered.getElem?_toNat few
  | _ => trivial

/-! ## Built modules -/

theorem hasSignature_of_assemble (built : b.BodiesBuilt)
    (assembled : b.assemble roots reach = .ok m) :
    List.Forall₂ (b.HasSignature (b.indexSpace reach).Names) ((b.indexSpace reach).ofKind .func)
      (m.importedFuncTypes ++ m.funcs.map (·.typeIndex)) := by
  have realized := assemble_realizes built assembled
  rw [ofKind_split]
  exact List.rel_append (hasSignature_of_imports (realized.imports .func))
    (hasSignature_of_funcs realized.funcs)

theorem length_funcs_of_assemble (built : b.BodiesBuilt)
    (assembled : b.assemble roots reach = .ok m) :
    ((b.indexSpace reach).ofKind .func).length = m.importedFuncCount + m.funcs.length := by
  rw [(hasSignature_of_assemble built assembled).length_eq, List.length_append, List.length_map,
    Module.importedFuncCount]

theorem typedBy_of_assemble (built : b.BodiesBuilt) (assembled : b.assemble roots reach = .ok m)
    {signatures : List FuncType} {bodies : List (List Call)}
    (declared : List.Forall₂ b.DeclaredAs ((b.indexSpace reach).ofKind .func) signatures)
    (written : List.Forall₂ b.WrittenBy
      (((b.indexSpace reach).ofKind .func).filter (! b.isImported ·)) bodies) :
    m.TypedBy signatures bodies := by
  have types := types_of_assemble assembled
  have links := linksFuncs_of_assemble built assembled
  have isFunc : ∀ entity ∈ (b.indexSpace reach).ofKind .func, entity.kind = .func :=
    fun _ member => (mem_ofKind_indexSpace.mp member).1
  have own : ((b.order reach).filterMap b.funcDecl?).map (·.type) = signatures := by
    rw [funcDecls_order]
    exact types_of_declared declared isFunc
  have named : ((b.order reach).filterMap b.funcDecl?).flatMap bodySignatures =
      bodies.flatMap Call.signatures := by
    rw [funcDecls_order, ofKind_indexSpace, List.filterMap_append, List.flatMap_append,
      bodySignatures_importedOf, List.nil_append, ← filter_isDefined_indexSpace]
    exact bodySignatures_of_written links written fun entity member =>
      isFunc entity (List.mem_filter.mp member).1
  have first : FirstOccurrences (signatures ++ bodies.flatMap Call.signatures) m.types := by
    rw [types, ← own, ← named]
    exact firstOccurrences_eraseDups _
  refine ⟨first.nodup, first, fun few => ?_, fun few => ?_⟩
  · refine (hasSignature_of_assemble built assembled).both declared ?_
    rintro entity typeIndex type ⟨decl, found, signature⟩ ⟨decl', found', rfl⟩
    cases found.symm.trans found'
    exact typeAt_of_names types few _ _ signature
  · refine links.both written fun entity f calls linked byCalls => ?_
    obtain ⟨decl, body, -, -, walk, denoted⟩ :=
      linked.walk (typeAt_of_names types few) byCalls
    refine ⟨?_, denoted⟩
    have related := walk.forall₂_filterMap fun place => place.typeIndex?_related
    rw [walk.filterMap_eq fun place => place.signature?_eq] at related
    exact related.flip

/-- The types of a built module are the signatures of its functions in the order
of their numbers, then those that its bodies name in the order of a walk, each
of them at its first occurrence only. Every type index of a function, an import,
an indirect call or a construct, at any depth, is the place of the signature
that was given for it; a construct without parameters and with at most one
result has no type index. -/
theorem build_types (reached : b.Reached) (done : b.build roots = .ok m) :
    ∃ found signatures, b.reach roots = .ok found ∧
      b.Numbers found.entities (b.indexSpace found) m ∧
      List.Forall₂ b.DeclaredAs ((b.indexSpace found).ofKind .func) signatures ∧
      (∃ bodies, List.Forall₂ b.WrittenBy
        (((b.indexSpace found).ofKind .func).filter (! b.isImported ·)) bodies) ∧
      ∀ bodies, List.Forall₂ b.WrittenBy
        (((b.indexSpace found).ofKind .func).filter (! b.isImported ·)) bodies →
        m.TypedBy signatures bodies := by
  obtain ⟨-, found, followed, assembled⟩ := build_eq_ok.mp done
  have built := reached.bodiesBuilt
  have realized := assemble_realizes built assembled
  obtain ⟨signatures, declared⟩ : ∃ signatures,
      List.Forall₂ b.DeclaredAs ((b.indexSpace found).ofKind .func) signatures :=
    (hasSignature_of_assemble built assembled).exists_beside
      fun _ _ ⟨decl, declared, _⟩ => ⟨decl.type, decl, declared, rfl⟩
  refine ⟨found, signatures, followed, numbers_of_realizes followed realized, declared, ?_, ?_⟩
  · exact (linksFuncs_of_assemble built assembled).exists_beside fun entity f linked =>
      linked.exists_written built
  · intro bodies written
    exact typedBy_of_assemble built assembled declared written

theorem build_types_dispatching : ∃ m signatures bodies,
    dispatching.build { exports := [("run", ⟨.func, 1⟩)] } = .ok m ∧
    m.types = [⟨[], []⟩, Dispatch.type, ⟨[], [.i32]⟩] ∧
    List.Forall₂ dispatching.DeclaredAs [⟨.func, 0⟩, ⟨.func, 1⟩] signatures ∧
    List.Forall₂ dispatching.WrittenBy [⟨.func, 1⟩] bodies ∧ m.TypedBy signatures bodies := by
  obtain ⟨found, signatures, followed, -, declared, ⟨bodies, written⟩, typed⟩ :=
    build_types dispatching_reached dispatching_build
  cases followed.symm.trans dispatching_reach
  exact ⟨_, signatures, bodies, dispatching_build, rfl, declared, written, typed bodies written⟩

/-! ## A type index made by hand -/

/-- A function whose code calls through a table with a type index that was written
with it. -/
def namesNumber : ModuleBuilder where
  funcs := [
    ⟨⟨[], []⟩, .defined ⟨[], [
      ⟨⟨"call_indirect", InstrSet.byte 0x11, .callIndirect, some ⟨[], []⟩, .constant, .literal⟩, [],
        [], [], .literal (.callIndirect 5 0)⟩]⟩⟩]

theorem namesNumber_scripted : namesNumber.Scripted := by
  let d : InstrDef :=
    ⟨"call_indirect", InstrSet.byte 0x11, .callIndirect, some ⟨[], []⟩, .constant, .literal⟩
  have done : ModuleBuilder.func {} ⟨[], []⟩ ()
      (Script.single d (.literal (.callIndirect 5 0))).run =
      (.ok (⟨0, ⟨[], []⟩⟩, namesNumber), ()) := rfl
  exact Scripted.empty.func _ done

theorem namesNumber_build : namesNumber.build { exports := [("run", ⟨.func, 0⟩)] } = .ok {
    types := [⟨[], []⟩]
    funcs := [⟨0, [], [.mk "call_indirect" (.callIndirect 5 0)]⟩]
    exports := [⟨"run", .func, 0⟩] } := by
  have followed : namesNumber.follow {} [.entity ⟨.func, 0⟩] =
      .ok { entities := [⟨.func, 0⟩] } := follow_single rfl
  exact build_eq_ok.mpr ⟨rfl, _, Except.bind_eq_ok.mpr ⟨_, followed, rfl⟩, rfl⟩

/-- Code made by hand can have a type index that is not in range. -/
theorem not_forall_scripted_types_within : ¬∀ (b : ModuleBuilder) (roots : Roots) (m : Module),
    b.Scripted → roots.Within b → b.build roots = .ok m →
      ∀ f ∈ m.funcs, ∀ n ∈ Instr.typeIndices f.body, n.toNat < m.types.length := by
  intro within
  have own : Roots.Within { exports := [("run", ⟨.func, 0⟩)] } namesNumber :=
    Roots.within_single List.mem_cons_self
  have inside := within _ _ _ namesNumber_scripted own namesNumber_build _ List.mem_cons_self 5
    List.mem_cons_self
  revert inside
  decide

end ModuleBuilder

end Wasm
