import Wasm.Proofs.Assembly.Signatures

/-!
# Functions that code makes references to

An instruction that makes a reference to a function leaves a mark for it. The
marks travel with the references of the body, out of every construct, and are
collected from the bodies that are reached, each function once. So a built
module declares exactly the functions that its own code makes references to.
-/

namespace Wasm

/-! ## References to functions in a module -/

def ElementMode.isDeclarative : ElementMode → Bool
  | .declarative => true
  | _ => false

namespace Module

variable (m : Module)

/-- The segments that only declare functions. -/
def declarativeSegments : List ElementSegment :=
  m.elements.filter (·.mode.isDeclarative)

/-- Some body makes a reference to a function, at any depth. -/
def TakesReferences : Prop :=
  ∃ f ∈ m.funcs, ∃ i ∈ Instr.everywhere f.body, i.name = "ref.func"

/-- Some body makes a reference to the function of this number, at any depth. -/
def RefersTo (n : UInt32) : Prop :=
  ∃ f ∈ m.funcs, .mk "ref.func" (.index n) ∈ Instr.everywhere f.body

end Module

theorem Instr.funcOperand?_eq_some {i : Instr} {n : UInt32} :
    i.funcOperand? = some n ↔ i = .mk "ref.func" (.index n) := by
  obtain ⟨name, immediate⟩ := i
  cases immediate with
  | index n' =>
      by_cases same : name = "ref.func"
      · simp [funcOperand?, same]
      · simp [funcOperand?, same]
  | _ => simp [funcOperand?]

theorem Reference.mem_filterMap_mention? {id : Nat} {references : List Reference} :
    id ∈ references.filterMap Reference.mention? ↔ .funcMention id ∈ references := by
  rw [List.mem_filterMap]
  constructor
  · rintro ⟨r, member, found⟩
    cases r with
    | funcMention id' =>
        cases found
        exact member
    | _ => cases found
  · exact fun member => ⟨_, member, rfl⟩

theorem Call.Walk.exists_becomes {N : Reference → UInt32 → Prop} {calls : List Call}
    {references : List Reference} {code : List Instr} (walk : Walk N calls references code)
    {i : Instr} (member : i ∈ code) : ∃ call own, Becomes N call own i := by
  induction walk with
  | nil => cases member
  | cons first _ ih =>
      rcases List.mem_cons.mp member with rfl | later
      · exact ⟨_, _, first⟩
      · exact ih later

/-! ## Numbers of functions -/

namespace IndexSpace

variable {space : IndexSpace} {id id' : Nat} {n n' : UInt32}

/-- Different functions have different numbers, unless there are too many. -/
theorem names_injective (few : (space.ofKind .func).length ≤ 2 ^ 32)
    (first : space.Names (.func id) n) (second : space.Names (.func id') n) : id = id' := by
  have place := NumberOf.getElem?_toNat first few
  have place' := NumberOf.getElem?_toNat second few
  cases place.symm.trans place'
  rfl

end IndexSpace

namespace ModuleBuilder

variable {b : ModuleBuilder} {roots : Roots} {reach found : Reach} {queue : List Reference}
  {m : Module} {entity : Entity} {id : Nat} {n : UInt32}

/-! ## Marks that are found -/

/-- The body of the function has a mark for `id`. -/
def MarkedBy (b : ModuleBuilder) (entity : Entity) (id : Nat) : Prop :=
  entity.kind = .func ∧ ∃ decl body, b.funcs[entity.id]? = some decl ∧
    decl.content = .defined body ∧ .funcMention id ∈ Draft.allReferences body.code

/-- Each function is listed once. -/
theorem nodup_mentioned_of_follow (followed : b.follow reach queue = .ok found)
    (distinct : reach.mentioned.Nodup) : found.mentioned.Nodup := by
  fun_induction follow b reach queue with
  | case1 reach =>
      cases followed
      exact distinct
  | case2 reach entity queue _ ih => exact ih followed distinct
  | case3 => cases followed
  | case4 reach entity queue _ references _ ih => exact ih followed distinct
  | case5 reach type queue ih => exact ih followed distinct
  | case6 reach queue ih => exact ih followed distinct
  | case7 reach id queue mentioned ih =>
      refine ih followed ?_
      show (if reach.mentioned.contains id then reach.mentioned
        else reach.mentioned ++ [id]).Nodup
      split
      · exact distinct
      · rename_i new
        rw [List.nodup_append]
        refine ⟨distinct, List.nodup_singleton id, ?_⟩
        rintro other listed _ last rfl
        cases List.mem_singleton.mp last
        exact new (List.contains_iff_mem.mpr listed)

/-- Only bodies have marks. -/
theorem mem_referencesOf_mention {references : List Reference}
    (known : b.referencesOf entity = .ok references) :
    .funcMention id ∈ references ↔ b.MarkedBy entity id := by
  have noMark : ∀ init : ConstExpr, .funcMention id ∉ init.references := by
    intro init marked
    cases init with
    | refFunc | globalGet => cases List.mem_singleton.mp marked
    | _ => cases marked
  obtain ⟨kind, place⟩ := entity
  unfold referencesOf at known
  constructor
  · intro marked
    cases kind with
    | func =>
        simp only at known
        split at known
        · rename_i decl found
          split at known <;> cases known
          · exact ⟨rfl, decl, _, found, ‹_›, marked⟩
          · cases marked
        · cases known
    | global =>
        simp only at known
        split at known
        · split at known <;> cases known
          · exact absurd marked (noMark _)
          · cases marked
        · cases known
    | table =>
        simp only at known
        split at known
        · cases known
          obtain ⟨init, -, marked⟩ := List.mem_flatMap.mp marked
          exact absurd marked (noMark init)
        · cases known
    | memory =>
        simp only at known
        split at known <;> cases known
        cases marked
  · rintro ⟨isFunc, decl, body, found, defined, marked⟩
    cases isFunc
    simp only at known found
    rw [found] at known
    simp only [defined, Except.ok.injEq] at known
    exact known ▸ marked

/-- The marks that are found are those of the bodies that are reached. -/
theorem mem_mentioned_of_follow (followed : b.follow {} roots.references = .ok found) :
    id ∈ found.mentioned ↔ ∃ entity ∈ found.entities, b.MarkedBy entity id := by
  have within := (b.follow_outcome roots.references).1 found followed
  constructor
  · intro listed
    cases within.mentioned id listed with
    | first member =>
        -- The roots themselves are entities.
        rcases List.mem_append.mp member with exported | started
        · obtain ⟨root, -, other⟩ := List.mem_map.mp exported
          cases other
        · cases given : roots.start with
          | none =>
              rw [given] at started
              cases started
          | some handle =>
              rw [given] at started
              cases List.mem_singleton.mp started
    | next led known member =>
        exact ⟨_, has_of_leads followed led, (mem_referencesOf_mention known).mp member⟩
  · rintro ⟨entity, member, marked⟩
    have led := within.entities entity member
    obtain ⟨references, known⟩ := references_of_leads followed led
    exact has_of_leads followed (.next led known ((mem_referencesOf_mention known).mpr marked))

/-- A memory that is added because code uses one changes nothing about marks. -/
theorem mentioned_of_reach (followed : b.reach roots = .ok reach) :
    reach.mentioned.Nodup ∧
      ∀ id, id ∈ reach.mentioned ↔ ∃ entity ∈ reach.entities, b.MarkedBy entity id := by
  obtain ⟨found, searched, more⟩ := Except.bind_eq_ok.mp followed
  have distinct := nodup_mentioned_of_follow searched .nil
  have marks : ∀ id, id ∈ found.mentioned ↔ ∃ entity ∈ found.entities, b.MarkedBy entity id :=
    fun _ => mem_mentioned_of_follow searched
  rw [withMemory] at more
  split at more
  · split at more
    · cases more
    · cases more
      refine ⟨distinct, fun id => (marks id).trans ?_⟩
      constructor
      · rintro ⟨entity, member, marked⟩
        exact ⟨entity, List.mem_cons_of_mem _ member, marked⟩
      · rintro ⟨entity, member, marked⟩
        rcases List.mem_cons.mp member with rfl | old
        · cases marked.1
        · exact ⟨entity, old, marked⟩
  · cases more
    exact ⟨distinct, marks⟩

/-! ## Marks and operands -/

/-- The operands in the code of a function are the numbers of the functions
that its body has marks for. -/
theorem operands_of_linked (built : b.BodiesBuilt) {f : Func}
    (linked : b.LinksFunc (b.indexSpace reach) entity f) :
    ∃ decl body, b.funcs[entity.id]? = some decl ∧ decl.content = .defined body ∧
      List.Forall₂ (fun id n => (b.indexSpace reach).Names (.func id) n)
        ((Draft.allReferences body.code).filterMap Reference.mention?)
        ((Instr.everywhere f.body).filterMap Instr.funcOperand?) := by
  obtain ⟨calls, written⟩ := linked.exists_written built
  obtain ⟨decl, body, found, defined, walk, -⟩ := linked.walk (fun _ _ h => h) written
  exact ⟨decl, body, found, defined,
    walk.forall₂_filterMap fun place => place.funcOperand?_related⟩

section Assembled

variable (built : b.BodiesBuilt) (assembled : b.assemble roots reach = .ok m)

include built assembled

theorem refersTo_iff : m.RefersTo n ↔ ∃ id, (∃ entity ∈ reach.entities, b.MarkedBy entity id) ∧
    (b.indexSpace reach).Names (.func id) n := by
  have links := linksFuncs_of_assemble built assembled
  constructor
  · rintro ⟨f, defines, inside⟩
    obtain ⟨entity, member, linked⟩ := links.exists_of_mem_right defines
    obtain ⟨decl, body, found, defined, operands⟩ := operands_of_linked built linked
    have operand : n ∈ (Instr.everywhere f.body).filterMap Instr.funcOperand? :=
      List.mem_filterMap.mpr ⟨_, inside, Instr.funcOperand?_eq_some.mpr rfl⟩
    obtain ⟨id, marked, named⟩ := operands.exists_of_mem_right operand
    obtain ⟨isFunc, -, reached⟩ := mem_ofKind_indexSpace.mp (List.mem_filter.mp member).1
    exact ⟨id, ⟨entity, reached, isFunc, decl, body, found, defined,
      Reference.mem_filterMap_mention?.mp marked⟩, named⟩
  · rintro ⟨id, ⟨entity, reached, isFunc, decl, body, found, defined, marked⟩, named⟩
    -- A function with a body is one of the definitions.
    have known : entity ∈ b.entities := by
      obtain ⟨kind, place⟩ := entity
      cases isFunc
      simpa [entities, entitiesOf] using (List.getElem?_eq_some_iff.mp found).1
    have notImported : b.isImported entity = false := by
      rw [isImported, isFunc]
      simp [found, defined, FuncContent.isImported]
    have member : entity ∈ ((b.indexSpace reach).ofKind .func).filter (! b.isImported ·) :=
      List.mem_filter.mpr
        ⟨mem_ofKind_indexSpace.mpr ⟨isFunc, known, reached⟩, by rw [notImported]; rfl⟩
    obtain ⟨f, defines, linked⟩ := links.exists_of_mem_left member
    obtain ⟨decl', body', found', defined', operands⟩ :=
      operands_of_linked built linked
    cases found.symm.trans found'
    cases defined.symm.trans defined'
    obtain ⟨n', operand, named'⟩ :=
      operands.exists_of_mem_left (Reference.mem_filterMap_mention?.mpr marked)
    obtain ⟨i, inside, isOperand⟩ := List.mem_filterMap.mp operand
    rw [Instr.funcOperand?_eq_some.mp isOperand,
      ← NumberOf.unique named named' (b.ofKind_nodup reach .func)] at inside
    exact ⟨f, defines, inside⟩

/-- Whatever bears the name of the instruction has a function for its operand. -/
theorem takesReferences_iff : m.TakesReferences ↔ ∃ n, m.RefersTo n := by
  constructor
  · rintro ⟨f, defines, i, inside, name⟩
    obtain ⟨entity, -, linked⟩ :=
      (linksFuncs_of_assemble built assembled).exists_of_mem_right defines
    obtain ⟨calls, written⟩ := linked.exists_written built
    obtain ⟨decl, body, -, -, walk, -⟩ := linked.walk (fun _ _ h => h) written
    obtain ⟨call, own, place⟩ := walk.exists_becomes inside
    obtain ⟨n, operand⟩ := place.funcOperand?_of_name name
    exact ⟨n, f, defines, Instr.funcOperand?_eq_some.mp operand ▸ inside⟩
  · rintro ⟨n, f, defines, inside⟩
    exact ⟨f, defines, _, inside, rfl⟩

end Assembled

/-! ## The declarative segment -/

/-- The segment lists functions, pairwise distinct ones, and just those that
bodies of the module make references to. -/
structure ListsMentioned (space : IndexSpace) (m : Module) (segment : ElementSegment) : Prop where
  type : segment.type = .funcRef
  entries : ∃ ids operands, ids.Nodup ∧
    List.Forall₂ (fun id n => space.Names (.func id) n) ids operands ∧
    segment.init = operands.map (fun n => [.mk "ref.func" (.index n)]) ∧
    (∀ n, n ∈ operands ↔ m.RefersTo n) ∧
    -- The numbers are distinct as well, unless there are too many functions for them.
    (m.importedFuncCount + m.funcs.length ≤ 2 ^ 32 → operands.Nodup)

theorem listsMentioned_of_declares (built : b.BodiesBuilt) (followed : b.reach roots = .ok reach)
    (assembled : b.assemble roots reach = .ok m) {segment : ElementSegment}
    (declares : DeclaresFuncs (b.indexSpace reach).Names reach.mentioned segment) :
    ListsMentioned (b.indexSpace reach) m segment := by
  obtain ⟨distinct, marks⟩ := mentioned_of_reach followed
  obtain ⟨-, type, listed⟩ := declares
  obtain ⟨operands, named⟩ : ∃ operands, List.Forall₂
      (fun id n => (b.indexSpace reach).Names (.func id) n) reach.mentioned operands :=
    listed.exists_beside fun id code ⟨n, named, _⟩ => ⟨n, named⟩
  have unique : ∀ {id n n'}, (b.indexSpace reach).Names (.func id) n →
      (b.indexSpace reach).Names (.func id) n' → n = n' :=
    fun first second => NumberOf.unique first second (b.ofKind_nodup reach .func)
  refine ⟨type, reach.mentioned, operands, distinct, named, ?_, fun n => ?_, fun few => ?_⟩
  · have entries : List.Forall₂ (· = ·)
        (operands.map fun n => [Instr.mk "ref.func" (.index n)]) segment.init := by
      rw [List.forall₂_map_left_iff]
      refine named.both listed ?_
      rintro id n code known ⟨n', known', rfl⟩
      rw [unique known known']
    rw [List.forall₂_eq_eq_eq] at entries
    exact entries.symm
  · rw [refersTo_iff built assembled]
    constructor
    · intro member
      obtain ⟨id, mentioned, known⟩ := named.exists_of_mem_right member
      exact ⟨id, (marks id).mp mentioned, known⟩
    · rintro ⟨id, marked, known⟩
      obtain ⟨n', member, known'⟩ := named.exists_of_mem_left ((marks id).mpr marked)
      exact unique known known' ▸ member
  · refine named.nodup_right distinct fun id id' n => IndexSpace.names_injective ?_
    rw [length_funcs_of_assemble built assembled]
    exact few

/-- There is such a segment if functions are mentioned, and none otherwise. -/
theorem declarativeSegments_of_realized {space : IndexSpace} {mentioned : List Nat}
    (realized : b.Realizes roots mentioned space m) :
    List.Forall₂ (DeclaresFuncs space.Names) (if mentioned.isEmpty then [] else [mentioned])
      m.declarativeSegments := by
  obtain ⟨filled, declared, elements, fills, declares⟩ := realized.elements
  have active : filled.filter (·.mode.isDeclarative) = [] := by
    refine List.filter_eq_nil_iff.mpr fun segment member => ?_
    obtain ⟨entity, -, decl, entries, n, -, -, -, mode, -⟩ := fills.exists_of_mem_right member
    rw [mode]
    nofun
  have kept : declared.filter (·.mode.isDeclarative) = declared := by
    refine List.filter_eq_self.mpr fun segment member => ?_
    obtain ⟨ids, -, mode, -⟩ := declares.exists_of_mem_right member
    rw [mode]
    rfl
  rw [Module.declarativeSegments, elements, List.filter_append, active, kept, List.nil_append]
  exact declares

/-- Code makes references to functions exactly if some are mentioned. -/
theorem takesReferences_iff_mentioned (built : b.BodiesBuilt)
    (followed : b.reach roots = .ok reach) (assembled : b.assemble roots reach = .ok m) :
    m.TakesReferences ↔ reach.mentioned ≠ [] := by
  have marks := (mentioned_of_reach followed).2
  rw [takesReferences_iff built assembled]
  constructor
  · rintro ⟨n, refers⟩ nothing
    obtain ⟨id, marked, -⟩ := (refersTo_iff built assembled).mp refers
    rw [← marks, nothing] at marked
    cases marked
  · intro some
    obtain ⟨id, member⟩ := List.exists_mem_of_ne_nil _ some
    have declares := declarativeSegments_of_realized (assemble_realizes built assembled)
    rw [if_neg (by simpa using some)] at declares
    obtain ⟨segment, -, -, -, listed⟩ := declares.exists_of_mem_left (List.mem_singleton_self _)
    obtain ⟨code, -, n, named, -⟩ := listed.exists_of_mem_left member
    exact ⟨n, (refersTo_iff built assembled).mpr ⟨id, (marks id).mp member, named⟩⟩

/-- A built module has a declarative segment exactly if some body makes a
reference to a function, at any depth, and never a second one; it lists the
functions that bodies make references to, each of them once. -/
theorem build_declares (reached : b.Reached) (done : b.build roots = .ok m) :
    ∃ found, b.reach roots = .ok found ∧ b.Numbers found.entities (b.indexSpace found) m ∧
      m.declarativeSegments.length ≤ 1 ∧ (m.declarativeSegments ≠ [] ↔ m.TakesReferences) ∧
      ∀ segment ∈ m.declarativeSegments, ListsMentioned (b.indexSpace found) m segment := by
  obtain ⟨-, found, followed, assembled⟩ := build_eq_ok.mp done
  have built := reached.bodiesBuilt
  have realized := assemble_realizes built assembled
  have declares := declarativeSegments_of_realized realized
  have count := declares.length_eq
  refine ⟨found, followed, numbers_of_realizes followed realized, ?_, ?_, ?_⟩
  · rw [← count]
    split
    · exact Nat.zero_le 1
    · exact Nat.le_refl 1
  · rw [takesReferences_iff_mentioned built followed assembled, ← List.length_pos_iff, ← count]
    cases found.mentioned <;> simp
  · intro segment member
    obtain ⟨ids, listed, declaresIds⟩ := declares.exists_of_mem_right member
    split at listed
    · cases listed
    · cases List.mem_singleton.mp listed
      exact listsMentioned_of_declares built followed assembled declaresIds

theorem build_declares_dispatching : ∃ m segment,
    dispatching.build { exports := [("run", ⟨.func, 1⟩)] } = .ok m ∧
    m.declarativeSegments = [segment] ∧ m.TakesReferences ∧
    segment.init = [[.mk "ref.func" (.index 0)]] ∧ m.RefersTo 0 := by
  obtain ⟨found, followed, -, -, takes, lists⟩ :=
    build_declares dispatching_reached dispatching_build
  obtain ⟨-, ids, operands, -, -, entries, refers, -⟩ := lists _ List.mem_cons_self
  have member : 0 ∈ operands := by
    cases operands with
    | nil => cases entries
    | cons n rest =>
        obtain ⟨same, -⟩ := List.cons.inj entries
        cases same
        exact List.mem_cons_self
  exact ⟨_, _, dispatching_build, rfl, takes.mp (List.cons_ne_nil _ _), rfl, (refers 0).mp member⟩

/-! ## A reference that nobody marks -/

/-- A function that returns a reference to an imported one, with a definition that
leaves no mark for it. -/
def refersUnmarked : ModuleBuilder where
  funcs := [
    ⟨⟨[], [.funcRef]⟩, .imported ⟨"m", "f"⟩⟩,
    ⟨⟨[], [.funcRef]⟩, .defined ⟨[], [
      ⟨⟨"ref.func", InstrSet.byte 0xD2, .index, none, .call, .index⟩, [.func 0], [], [.funcRef],
        .literal .none⟩]⟩⟩]

theorem refersUnmarked_scripted : refersUnmarked.Scripted := by
  let d : InstrDef := ⟨"ref.func", InstrSet.byte 0xD2, .index, none, .call, .index⟩
  let start := (ModuleBuilder.importFunc {} ⟨"m", "f"⟩ ⟨[], [.funcRef]⟩).2
  have done : start.func ⟨[], [.funcRef]⟩ ()
      (Script.single d (.func ⟨0, ⟨[], [.funcRef]⟩⟩)).run =
      (.ok (⟨1, ⟨[], [.funcRef]⟩⟩, refersUnmarked), ()) := rfl
  exact (Reached.empty.importFunc _ _).scripted.func _ done

theorem refersUnmarked_build : refersUnmarked.build { exports := [("run", ⟨.func, 1⟩)] } = .ok {
    types := [⟨[], [.funcRef]⟩]
    imports := [⟨"m", "f", .func 0⟩]
    funcs := [⟨0, [], [.mk "ref.func" (.index 0)]⟩]
    exports := [⟨"run", .func, 1⟩] } := by
  have followed : refersUnmarked.follow {} [.entity ⟨.func, 1⟩] =
      .ok { entities := [⟨.func, 0⟩, ⟨.func, 1⟩] } := follow_pair rfl rfl rfl
  exact build_eq_ok.mpr ⟨rfl, _, Except.bind_eq_ok.mpr ⟨_, followed, rfl⟩, rfl⟩

/-- Code made by hand can make a reference to a function that no segment declares. -/
theorem not_forall_scripted_declares : ¬∀ (b : ModuleBuilder) (roots : Roots) (m : Module),
    b.Scripted → roots.Within b → b.build roots = .ok m →
      (m.declarativeSegments ≠ [] ↔ m.TakesReferences) := by
  intro declares
  have own : Roots.Within { exports := [("run", ⟨.func, 1⟩)] } refersUnmarked :=
    Roots.within_single (List.mem_cons_of_mem _ List.mem_cons_self)
  have takes := (declares _ _ _ refersUnmarked_scripted own refersUnmarked_build).mpr
    ⟨_, List.mem_cons_self, _, List.mem_cons_self, rfl⟩
  exact takes rfl

end ModuleBuilder

end Wasm
