import Wasm.Proofs.Assembly.Assembled
import Wasm.Proofs.Assembly.Closure
import Wasm.Proofs.Assembly.Scripted

/-!
# Built modules

`build` numbers what the roots need and assembles it. What it returns realizes
the declarations, whatever sequence of declarations it was.
-/

namespace Wasm

/-! ## Classes of entities -/

namespace IndexSpace

/-- The entities of one class behind those of the other, as `assemble` goes
through them. -/
def byKind (space : IndexSpace) : List Entity :=
  space.ofKind .func ++ space.ofKind .table ++ space.ofKind .memory ++ space.ofKind .global

theorem filter_ofKind (space : IndexSpace) (kind other : ExternKind) (p : Entity → Bool) :
    (space.ofKind other).filter (fun e => e.kind == kind && p e) =
      if other = kind then (space.ofKind kind).filter p else [] := by
  by_cases same : other = kind
  · rw [if_pos same, same]
    refine List.filter_congr fun e member => ?_
    rw [(List.mem_filter.mp member).2, Bool.true_and]
  · rw [if_neg same]
    refine List.filter_eq_nil_iff.mpr fun e member found => same ?_
    have ofOther := beq_iff_eq.mp (List.mem_filter.mp member).2
    have ofKind := beq_iff_eq.mp (Bool.and_eq_true_iff.mp found).1
    exact ofOther.symm.trans ofKind

theorem filter_byKind (space : IndexSpace) (kind : ExternKind) (p : Entity → Bool) :
    space.byKind.filter (fun e => e.kind == kind && p e) = (space.ofKind kind).filter p := by
  rw [byKind, List.filter_append, List.filter_append, List.filter_append, filter_ofKind,
    filter_ofKind, filter_ofKind, filter_ofKind]
  cases kind <;> simp

end IndexSpace

namespace ModuleBuilder

variable {b : ModuleBuilder} {roots : Roots} {reach : Reach} {space : IndexSpace} {m : Module}

/-! ## Imports and definitions -/

section Parts

variable {parts : List Part}

theorem importsAs_of_describes (described : List.Forall₂ (b.Describes space.Names)
      space.byKind parts) (kind : ExternKind) :
    List.Forall₂ (b.ImportsAs space.Names) ((space.ofKind kind).filter b.isImported)
      ((parts.filterMap fun | .imported i => some i | _ => none).filter (·.type.kind == kind)) := by
  rw [← space.filter_byKind, List.filter_filterMap]
  refine forall₂_filterMap (fun entity part described => ?_) described
  cases part with
  | imported i =>
      obtain ⟨imported, made⟩ := described
      -- An import stands in the class of its entity, so both are kept or both go.
      have sameKind := importsAs_kind made
      by_cases own : entity.kind = kind
      · exact .inl ⟨by simp [own, imported], i, by simp [Option.filter, sameKind, own], made⟩
      · exact .inr ⟨by simp [own], by simp [Option.filter, sameKind, own]⟩
  | func | table | memory | global => exact .inr ⟨by simp [described.1], rfl⟩

theorem definesFunc_of_describes
    (described : List.Forall₂ (b.Describes space.Names) space.byKind parts) :
    List.Forall₂ (b.DefinesFunc space.Names) ((space.ofKind .func).filter (! b.isImported ·))
      (parts.filterMap fun | .func f => some f | _ => none) := by
  rw [← space.filter_byKind]
  refine forall₂_filterMap (fun entity part described => ?_) described
  cases part with
  | func f => exact .inl ⟨by simp [described.1, described.2.1], f, rfl, described.2.2⟩
  | imported | table | memory | global => exact .inr ⟨by simp_all [Describes], rfl⟩

theorem definesTable_of_describes
    (described : List.Forall₂ (b.Describes space.Names) space.byKind parts) :
    List.Forall₂ b.DefinesTable ((space.ofKind .table).filter (! b.isImported ·))
      (parts.filterMap fun | .table type => some type | _ => none) := by
  rw [← space.filter_byKind]
  refine forall₂_filterMap (fun entity part described => ?_) described
  cases part with
  | table type => exact .inl ⟨by simp [described.1, described.2.1], type, rfl, described.2.2⟩
  | imported | func | memory | global => exact .inr ⟨by simp_all [Describes], rfl⟩

theorem definesMemory_of_describes
    (described : List.Forall₂ (b.Describes space.Names) space.byKind parts) :
    List.Forall₂ b.DefinesMemory ((space.ofKind .memory).filter (! b.isImported ·))
      (parts.filterMap fun | .memory type => some type | _ => none) := by
  rw [← space.filter_byKind]
  refine forall₂_filterMap (fun entity part described => ?_) described
  cases part with
  | memory type => exact .inl ⟨by simp [described.1, described.2.1], type, rfl, described.2.2⟩
  | imported | func | table | global => exact .inr ⟨by simp_all [Describes], rfl⟩

theorem definesGlobal_of_describes
    (described : List.Forall₂ (b.Describes space.Names) space.byKind parts) :
    List.Forall₂ (b.DefinesGlobal space.Names)
      ((space.ofKind .global).filter (! b.isImported ·))
      (parts.filterMap fun | .global g => some g | _ => none) := by
  rw [← space.filter_byKind]
  refine forall₂_filterMap (fun entity part described => ?_) described
  cases part with
  | global g => exact .inl ⟨by simp [described.1, described.2.1], g, rfl, described.2.2⟩
  | imported | func | table | memory => exact .inr ⟨by simp_all [Describes], rfl⟩

end Parts

/-! ## Segments -/

theorem fillsTable_of_segment {entity : Entity} {segment : Option ElementSegment}
    (made : b.tableSegment space entity = .ok segment) :
    ((b.tables[entity.id]?.bind (·.elements)).isSome = true ∧
        ∃ s, segment = some s ∧ b.FillsTable space.Names entity s) ∨
      ((b.tables[entity.id]?.bind (·.elements)).isSome = false ∧ segment = none) := by
  rw [tableSegment] at made
  cases found : b.tables[entity.id]? with
  | none =>
      rw [found] at made
      cases made
      exact .inr ⟨rfl, rfl⟩
  | some decl =>
      rw [found] at made
      cases entries : decl.elements with
      | none =>
          simp only [entries] at made
          cases made
          exact .inr ⟨by simp [entries], rfl⟩
      | some elements =>
          simp only [entries] at made
          obtain ⟨n, numbered, rest⟩ := Except.bind_eq_ok.mp made
          obtain ⟨init, linked, same⟩ := Except.bind_eq_ok.mp rest
          cases same
          exact .inl ⟨by simp [entries], _, rfl, decl, elements, n, found, entries,
            IndexSpace.names_of_index numbered, rfl, rfl,
            forall₂_of_mapM linked fun _ _ => linkConst_denotes⟩

theorem fillsMemory_of_segment {entity : Entity} {segment : Option DataSegment}
    (made : b.memorySegment space entity = .ok segment) :
    ((b.memories[entity.id]?.bind (·.data)).isSome = true ∧
        ∃ s, segment = some s ∧ b.FillsMemory space.Names entity s) ∨
      ((b.memories[entity.id]?.bind (·.data)).isSome = false ∧ segment = none) := by
  rw [memorySegment] at made
  cases found : b.memories[entity.id]? with
  | none =>
      rw [found] at made
      cases made
      exact .inr ⟨rfl, rfl⟩
  | some decl =>
      rw [found] at made
      cases bytes : decl.data with
      | none =>
          simp only [bytes] at made
          cases made
          exact .inr ⟨by simp [bytes], rfl⟩
      | some data =>
          simp only [bytes] at made
          obtain ⟨n, numbered, same⟩ := Except.bind_eq_ok.mp made
          cases same
          exact .inl ⟨by simp [bytes], _, rfl, decl, data, n, found, bytes,
            IndexSpace.names_of_index numbered, rfl, rfl⟩

theorem declaresFuncs_of_segment {mentioned : List Nat} {segment : Option ElementSegment}
    (made : mentionSegment space mentioned = .ok segment) :
    List.Forall₂ (DeclaresFuncs space.Names) (if mentioned.isEmpty then [] else [mentioned])
      segment.toList := by
  rw [mentionSegment] at made
  by_cases nothing : mentioned.isEmpty = true
  · rw [if_pos nothing] at made ⊢
    cases made
    exact .nil
  · rw [if_neg nothing] at made ⊢
    obtain ⟨init, linked, same⟩ := Except.bind_eq_ok.mp made
    cases same
    refine .cons ⟨rfl, rfl, forall₂_of_mapM linked fun id code h => ?_⟩ .nil
    obtain ⟨n, numbered, same⟩ := Except.bind_eq_ok.mp h
    exact ⟨n, IndexSpace.names_of_index numbered, (Except.ok.inj same).symm⟩

/-! ## Signatures -/

theorem forall₂_getElem? {α β : Type} {R : α → β → Prop} {as : List α} {bs : List β}
    (h : List.Forall₂ R as bs) {i : Nat} {a : α} (found : as[i]? = some a) :
    ∃ y, bs[i]? = some y ∧ R a y := by
  induction h generalizing i with
  | nil => cases found
  | cons first _ ih =>
      cases i with
      | zero =>
          cases found
          exact ⟨_, rfl, first⟩
      | succ i => exact ih found

/-- The type index of a function is the number of its signature. -/
def HasSignature (b : ModuleBuilder) (N : Reference → UInt32 → Prop) (entity : Entity)
    (typeIndex : UInt32) : Prop :=
  ∃ decl, b.funcs[entity.id]? = some decl ∧ N (.signature decl.type) typeIndex

/-- Items of which nothing becomes can be left out before. -/
theorem filterMap_of_filter {α β : Type} {f : α → Option β} (p : α → Bool)
    (nothing : ∀ a, p a = false → f a = none) (items : List α) :
    items.filterMap f = (items.filter p).filterMap f := by
  rw [List.filterMap_filter]
  refine List.filterMap_congr fun a _ => ?_
  cases chosen : p a with
  | true => simp
  | false => simp [nothing a chosen]

/-- What is picked from the imports of a class goes along with the entities
that they bring in. -/
theorem forall₂_picked {α : Type} {S : Entity → α → Prop} {pick : Import → Option α}
    {kind : ExternKind}
    (imports : List.Forall₂ (b.ImportsAs space.Names) ((space.ofKind kind).filter b.isImported)
      (m.importsOf kind))
    (picked : ∀ entity i, entity.kind = kind → b.ImportsAs space.Names entity i →
      ∃ a, pick i = some a ∧ S entity a)
    (others : ∀ i, i.type.kind ≠ kind → pick i = none) :
    List.Forall₂ S ((space.ofKind kind).filter b.isImported) (m.imports.filterMap pick) := by
  have own : ((space.ofKind kind).filter b.isImported).filter (·.kind == kind) =
      (space.ofKind kind).filter b.isImported := by
    rw [List.filter_eq_self]
    intro entity member
    exact (List.mem_filter.mp (List.mem_filter.mp member).1).2
  have nothing : ∀ i : Import, (i.type.kind == kind) = false → pick i = none := fun i other =>
    others i (beq_eq_false_iff_ne.mp other)
  rw [filterMap_of_filter _ nothing, ← own]
  refine forall₂_filterMap (fun entity i made => ?_) imports
  have sameKind := importsAs_kind made
  by_cases ofKind : entity.kind = kind
  · exact .inl ⟨beq_iff_eq.mpr ofKind, picked entity i ofKind made⟩
  · refine .inr ⟨beq_eq_false_iff_ne.mpr ofKind, others i ?_⟩
    rw [sameKind]
    exact ofKind

theorem hasSignature_of_imports
    (imports : List.Forall₂ (b.ImportsAs space.Names) ((space.ofKind .func).filter b.isImported)
      (m.importsOf .func)) :
    List.Forall₂ (b.HasSignature space.Names) ((space.ofKind .func).filter b.isImported)
      m.importedFuncTypes := by
  refine forall₂_picked imports (fun entity i isFunc made => ?_) fun i other => ?_
  · obtain ⟨kind, id⟩ := entity
    cases isFunc
    obtain ⟨decl, name, n, found, -, named, rfl⟩ := made
    exact ⟨n, rfl, decl, found, named⟩
  · cases type : i.type with
    | func =>
        rw [type] at other
        exact absurd rfl other
    | _ => rfl

theorem hasSignature_of_funcs {entities : List Entity} {funcs : List Func}
    (defined : List.Forall₂ (b.DefinesFunc space.Names) entities funcs) :
    List.Forall₂ (b.HasSignature space.Names) entities (funcs.map (·.typeIndex)) := by
  rw [List.forall₂_map_right_iff]
  refine defined.imp fun entity f made => ?_
  obtain ⟨decl, body, found, -, named, -⟩ := made
  exact ⟨decl, found, named⟩

/-- The type at the place of a function is the signature that it was declared with. -/
theorem funcType?_of_realized
    (imports : ∀ kind, List.Forall₂ (b.ImportsAs space.Names)
      ((space.ofKind kind).filter b.isImported) (m.importsOf kind))
    (funcs : List.Forall₂ (b.DefinesFunc space.Names)
      ((space.ofKind .func).filter (! b.isImported ·)) m.funcs)
    (importsFirst : (space.ofKind .func).filter b.isImported ++
      (space.ofKind .func).filter (! b.isImported ·) = space.ofKind .func)
    (types : m.types = space.types) (few : m.types.length ≤ 2 ^ 32) {i : Nat} {entity : Entity}
    {decl : FuncDecl} (place : (space.ofKind .func)[i]? = some entity)
    (declared : b.funcs[entity.id]? = some decl) : m.funcType? i = some decl.type := by
  -- The type indices of a module stand in the order of the numbers of its functions.
  have typed : List.Forall₂ (b.HasSignature space.Names) (space.ofKind .func)
      (m.importedFuncTypes ++ m.funcs.map (·.typeIndex)) :=
    importsFirst ▸ List.rel_append (hasSignature_of_imports (imports .func))
      (hasSignature_of_funcs funcs)
  obtain ⟨typeIndex, found, decl', declared', signature⟩ := forall₂_getElem? typed place
  cases declared.symm.trans declared'
  have numbered : NumberOf m.types decl.type typeIndex := types ▸ signature
  rw [Module.funcType?, Module.funcTypeIndex?, found]
  exact numbered.getElem?_toNat few

/-! ## Assembling -/

theorem start_of_mapM {start : Option FuncHandle} {found : Option UInt32}
    (made : start.mapM (fun handle => space.index (.func handle.id)) = .ok found) :
    Option.Rel (fun handle n => space.Names (.func handle.id) n) start found := by
  cases start with
  | none =>
      cases made
      exact .none
  | some handle =>
      have applied : (some <$> space.index (.func handle.id)) = .ok found := made
      cases numbered : space.index (.func handle.id) with
      | error e =>
          rw [numbered] at applied
          cases applied
      | ok n =>
          rw [numbered] at applied
          cases applied
          exact .some (IndexSpace.names_of_index numbered)

theorem assemble_realizes (built : b.BodiesBuilt) (assembled : b.assemble roots reach = .ok m) :
    b.Realizes roots reach.mentioned (b.indexSpace reach) m := by
  simp only [assemble, Except.bind_eq_ok, Except.pure_eq_ok, Except.ok.injEq] at assembled
  obtain ⟨funcs, madeFuncs, tables, madeTables, memories, madeMemories, globals, madeGlobals,
    exports, madeExports, start, madeStart, filled, madeFilled, declared, madeDeclared,
    data, madeData, rfl⟩ := assembled
  -- The four classes are assembled alike, and put together they give all parts.
  have ofClass : ∀ {kind : ExternKind} {parts : List Part},
      b.partsOf (b.indexSpace reach) kind = .ok parts →
        List.Forall₂ (b.Describes (b.indexSpace reach).Names)
          ((b.indexSpace reach).ofKind kind) parts :=
    fun made => forall₂_of_mapM made fun _ _ => describes_of_part built
  have described : List.Forall₂ (b.Describes (b.indexSpace reach).Names)
      (b.indexSpace reach).byKind (funcs ++ tables ++ memories ++ globals) :=
    List.rel_append (List.rel_append (List.rel_append (ofClass madeFuncs) (ofClass madeTables))
      (ofClass madeMemories)) (ofClass madeGlobals)
  -- The order of the functions is that of their numbers.
  have importsFirst := (b.ofKind_split reach .func).symm
  have imports := importsAs_of_describes described
  have defined := definesFunc_of_describes described
  exact {
    imports
    funcs := defined
    tables := definesTable_of_describes described
    memories := definesMemory_of_describes described
    globals := definesGlobal_of_describes described
    signatures := fun few i entity decl place found =>
      funcType?_of_realized imports defined importsFirst rfl few place found
    exports := by
      refine forall₂_of_mapM madeExports fun root item h => ?_
      obtain ⟨n, numbered, same⟩ := Except.bind_eq_ok.mp h
      cases same
      exact ⟨rfl, rfl, IndexSpace.names_of_index numbered⟩
    start := start_of_mapM madeStart
    elements := by
      refine ⟨filled.filterMap id, declared.toList, ?_, ?_, declaresFuncs_of_segment madeDeclared⟩
      · show (filled ++ [declared]).filterMap id = _
        rw [List.filterMap_append]
        cases declared <;> rfl
      · exact forall₂_filterMap (fun entity segment h => h)
          (forall₂_of_mapM madeFilled fun _ _ => fillsTable_of_segment)
    data := forall₂_filterMap (fun entity segment h => h)
      (forall₂_of_mapM madeData fun _ _ => fillsMemory_of_segment) }

/-- The numbers of a module are those that `indexSpace` gives out. -/
theorem numbers_of_realizes {mentioned : List Nat} (followed : b.reach roots = .ok reach)
    (realized : b.Realizes roots mentioned (b.indexSpace reach) m) :
    b.Numbers reach.entities (b.indexSpace reach) m where
  nodup := b.ofKind_nodup reach
  known := mem_entities_of_reach followed
  mem kind entity := by
    rw [mem_ofKind_indexSpace]
    exact and_congr_right fun _ => and_iff_right_of_imp (mem_entities_of_reach followed entity)
  ordered kind := by
    refine ⟨b.importedOf reach kind, b.definedOf reach kind, b.ofKind_indexSpace reach kind,
      fun _ => isImported_of_mem, fun _ => not_isImported_of_mem, b.importedOf_pairwise reach kind,
      b.definedOf_pairwise reach kind, ?_, ?_⟩
    · rw [← filter_isImported_indexSpace]
      exact (realized.imports kind).length_eq
    · rw [← filter_isDefined_indexSpace]
      cases kind with
      | func => exact realized.funcs.length_eq
      | table => exact realized.tables.length_eq
      | memory => exact realized.memories.length_eq
      | global => exact realized.globals.length_eq

theorem build_eq_ok : b.build roots = .ok m ↔ firstRepeated [] (roots.exports.map (·.1)) = none ∧
    ∃ reach, b.reach roots = .ok reach ∧ b.assemble roots reach = .ok m := by
  rw [build]
  cases firstRepeated [] (roots.exports.map (·.1)) with
  | some name => simp
  | none => simp [Except.bind_eq_ok]

/-- In a built module each entity that was reached has one number in its class,
imports first, the place of that number holds what the entity was declared as,
and every reference has the number of the entity whose handle was given. -/
theorem build_realizes (reached : b.Reached) (done : b.build roots = .ok m) :
    ∃ found, b.reach roots = .ok found ∧ b.Numbers found.entities (b.indexSpace found) m ∧
      b.Realizes roots found.mentioned (b.indexSpace found) m := by
  obtain ⟨-, found, followed, assembled⟩ := build_eq_ok.mp done
  have realized := assemble_realizes reached.bodiesBuilt assembled
  exact ⟨found, followed, numbers_of_realizes followed realized, realized⟩

/-! ## An example -/

/-- A function that calls an imported one. -/
def callsImport : ModuleBuilder where
  funcs := [
    ⟨⟨[.i32], []⟩, .imported ⟨"m", "f"⟩⟩,
    ⟨⟨[], []⟩, .defined ⟨[], [
      ⟨InstrSet.constant "i32.const" (InstrSet.byte 0x41) .i32 .i32, [], [], [.i32],
        .literal (.i32 7)⟩,
      ⟨⟨"call", InstrSet.byte 0x10, .index, none, .call, .index⟩, [.func 0], [.i32], [],
        .literal .none⟩]⟩⟩]

theorem callsImport_reached : callsImport.Reached := by
  let start := (ModuleBuilder.importFunc {} ⟨"m", "f"⟩ ⟨[.i32], []⟩).2
  let act : Construction Unit Unit := do
    let _ ← Construction.instr "call" (.func ⟨0, ⟨[.i32], []⟩⟩) [.i32 7]
  have done : start.func ⟨[], []⟩ () act = (.ok (⟨1, ⟨[], []⟩⟩, callsImport), ()) := rfl
  exact (Reached.empty.importFunc _ _).func (.bind (.instr _ _ _) fun _ => .pure ()) done

theorem callsImport_build : callsImport.build { exports := [("run", ⟨.func, 1⟩)] } = .ok {
    types := [⟨[.i32], []⟩, ⟨[], []⟩]
    imports := [⟨"m", "f", .func 0⟩]
    funcs := [⟨1, [], [.mk "i32.const" (.i32 7), .mk "call" (.index 0)]⟩]
    exports := [⟨"run", .func, 1⟩] } := by
  have followed : callsImport.follow {} [.entity ⟨.func, 1⟩] =
      .ok { entities := [⟨.func, 0⟩, ⟨.func, 1⟩] } := follow_pair rfl rfl rfl
  exact build_eq_ok.mpr ⟨rfl, _, Except.bind_eq_ok.mpr ⟨_, followed, rfl⟩, rfl⟩

theorem build_realizes_callsImport : ∃ m found,
    callsImport.build { exports := [("run", ⟨.func, 1⟩)] } = .ok m ∧
    callsImport.reach { exports := [("run", ⟨.func, 1⟩)] } = .ok found ∧
    callsImport.Numbers found.entities (callsImport.indexSpace found) m ∧
    callsImport.Realizes { exports := [("run", ⟨.func, 1⟩)] } found.mentioned
      (callsImport.indexSpace found) m := by
  obtain ⟨found, followed, numbered, realized⟩ :=
    build_realizes callsImport_reached callsImport_build
  exact ⟨_, found, callsImport_build, followed, numbered, realized⟩

/-! ## A number made by hand -/

/-- A function whose code calls by a number that was written with it. -/
def callsNumber : ModuleBuilder where
  funcs := [
    ⟨⟨[], []⟩, .defined ⟨[], [
      ⟨⟨"call", InstrSet.byte 0x10, .index, some ⟨[], []⟩, .constant, .literal⟩, [], [], [],
        .literal (.index 5)⟩]⟩⟩]

theorem callsNumber_scripted : callsNumber.Scripted := by
  let d : InstrDef := ⟨"call", InstrSet.byte 0x10, .index, some ⟨[], []⟩, .constant, .literal⟩
  have done : ModuleBuilder.func {} ⟨[], []⟩ () (Script.single d (.literal (.index 5))).run =
      (.ok (⟨0, ⟨[], []⟩⟩, callsNumber), ()) := rfl
  exact Scripted.empty.func _ done

theorem callsNumber_build : callsNumber.build { exports := [("run", ⟨.func, 0⟩)] } = .ok {
    types := [⟨[], []⟩]
    funcs := [⟨0, [], [.mk "call" (.index 5)]⟩]
    exports := [⟨"run", .func, 0⟩] } := by
  have followed : callsNumber.follow {} [.entity ⟨.func, 0⟩] =
      .ok { entities := [⟨.func, 0⟩] } := follow_single rfl
  exact build_eq_ok.mpr ⟨rfl, _, Except.bind_eq_ok.mpr ⟨_, followed, rfl⟩, rfl⟩

/-- Code made by hand can call what is not in the module. -/
theorem not_forall_scripted_calls_within : ¬∀ (b : ModuleBuilder) (roots : Roots) (m : Module),
    b.Scripted → roots.Within b → b.build roots = .ok m → ∀ f ∈ m.funcs, ∀ n : UInt32,
      .mk "call" (.index n) ∈ f.body → n.toNat < m.importedFuncCount + m.funcs.length := by
  intro within
  have own : Roots.Within { exports := [("run", ⟨.func, 0⟩)] } callsNumber :=
    Roots.within_single List.mem_cons_self
  have inside := within callsNumber _ _ callsNumber_scripted own callsNumber_build _
    List.mem_cons_self 5 List.mem_cons_self
  revert inside
  decide

end ModuleBuilder

end Wasm
