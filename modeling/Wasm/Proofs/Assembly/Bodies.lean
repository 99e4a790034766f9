import Wasm.Proofs.Assembly.Built
import Wasm.Proofs.Assembly.Search
import Wasm.Proofs.Body.Walked

/-!
# The bodies of a built module

Every function that a module defines has the body of a declaration, linked by
the numbers of the module. So a walk through its code goes along with a walk
through the calls that wrote the body.
-/

namespace Wasm

namespace IndexSpace

variable {space : IndexSpace}

/-- The numbers by which a body was linked are those of its references. -/
theorem numbers_of_linkBody {drafts : List Draft} {code : List Instr}
    (linked : space.linkBody drafts = .ok code) :
    ∃ indices, List.Forall₂ space.Names (Draft.allReferences drafts) indices ∧
      Draft.linkAll indices drafts = .ok code := by
  obtain ⟨indices, numbered, linkedAll⟩ := Except.bind_eq_ok.mp linked
  exact ⟨indices, (Except.mapM_eq_ok.mp numbered).imp fun _ _ => names_of_index, linkedAll⟩

end IndexSpace

namespace ModuleBuilder

variable {b : ModuleBuilder} {roots : Roots} {reach : Reach} {space : IndexSpace} {m : Module}
  {entity : Entity} {f : Func}

/-- The code of `f` is the body of a defined function with numbers for its
references. -/
def LinksFunc (b : ModuleBuilder) (space : IndexSpace) (entity : Entity) (f : Func) : Prop :=
  ∃ decl body, b.funcs[entity.id]? = some decl ∧ decl.content = .defined body ∧
    space.linkBody body.code = .ok f.body

/-- The calls that wrote the body of a defined function. -/
def WrittenBy (b : ModuleBuilder) (entity : Entity) (calls : List Call) : Prop :=
  ∃ decl body, b.funcs[entity.id]? = some decl ∧ decl.content = .defined body ∧
    FuncBody.BuiltBy decl.type calls body

theorem linksFunc_of_part (made : b.part space entity = .ok (.func f)) :
    b.LinksFunc space entity f := by
  obtain ⟨kind, id⟩ := entity
  unfold part at made
  cases kind with
  | func =>
      simp only at made
      split at made
      · rename_i decl found
        obtain ⟨typeIndex, -, made⟩ := Except.bind_eq_ok.mp made
        split at made
        · cases made
        · rename_i body content
          obtain ⟨code, linked, same⟩ := Except.bind_eq_ok.mp made
          cases same
          exact ⟨decl, body, found, content, linked⟩
        · cases made
      · cases made
  | table | memory =>
      simp only at made
      split at made
      · split at made <;> cases made
      · cases made
  | global =>
      simp only at made
      split at made
      · split at made
        · cases made
        · obtain ⟨code, -, same⟩ := Except.bind_eq_ok.mp made
          cases same
      · cases made

/-- The bodies of a module are those of its defined functions. -/
theorem linksFuncs_of_assemble (built : b.BodiesBuilt)
    (assembled : b.assemble roots reach = .ok m) :
    List.Forall₂ (b.LinksFunc (b.indexSpace reach))
      (((b.indexSpace reach).ofKind .func).filter (! b.isImported ·)) m.funcs := by
  simp only [assemble, Except.bind_eq_ok, Except.pure_eq_ok, Except.ok.injEq] at assembled
  obtain ⟨funcs, madeFuncs, tables, madeTables, memories, madeMemories, globals, madeGlobals,
    exports, -, start, -, filled, -, declared, -, data, -, rfl⟩ := assembled
  have made : List.Forall₂ (fun entity part => b.part (b.indexSpace reach) entity = .ok part)
      (b.indexSpace reach).byKind (funcs ++ tables ++ memories ++ globals) :=
    List.rel_append (List.rel_append (List.rel_append (Except.mapM_eq_ok.mp madeFuncs)
      (Except.mapM_eq_ok.mp madeTables)) (Except.mapM_eq_ok.mp madeMemories))
      (Except.mapM_eq_ok.mp madeGlobals)
  rw [← IndexSpace.filter_byKind]
  refine forall₂_filterMap (fun entity part made => ?_) made
  -- Whether a part is a function is told by what it describes.
  have described := describes_of_part built made
  cases part with
  | func f => exact .inl ⟨by simp [described.1, described.2.1], f, rfl, linksFunc_of_part made⟩
  | imported | table | memory | global => exact .inr ⟨by simp_all [Describes], rfl⟩

/-- A module names signatures by their places in the index space. -/
theorem types_of_assemble (assembled : b.assemble roots reach = .ok m) :
    m.types = (b.indexSpace reach).types := by
  simp only [assemble, Except.bind_eq_ok, Except.pure_eq_ok, Except.ok.injEq] at assembled
  obtain ⟨_, -, _, -, _, -, _, -, _, -, _, -, _, -, _, -, _, -, rfl⟩ := assembled
  rfl

namespace LinksFunc

variable {calls : List Call}

/-- The code goes along with the calls, whichever numbers it is read with. -/
theorem walk {N : Reference → UInt32 → Prop} (links : b.LinksFunc space entity f)
    (numbers : ∀ r n, space.Names r n → N r n) (written : b.WrittenBy entity calls) :
    ∃ decl body, b.funcs[entity.id]? = some decl ∧ decl.content = .defined body ∧
      Call.Walk N (Call.everywhere calls) (Draft.allReferences body.code)
        (Instr.everywhere f.body) ∧
      Call.AllDenote N calls f.body := by
  obtain ⟨decl, body, found, defined, linked⟩ := links
  obtain ⟨decl', body', found', defined', built⟩ := written
  cases found.symm.trans found'
  cases defined.symm.trans defined'
  obtain ⟨indices, numbered, linkedAll⟩ := IndexSpace.numbers_of_linkBody linked
  have known := numbered.imp numbers
  exact ⟨decl, body, found, defined,
    Call.walk_of_linkAll calls body.code indices f.body built.allMake known linkedAll,
    Call.allDenote_of_linkAll calls body.code indices f.body built.allMake known linkedAll⟩

theorem exists_written (links : b.LinksFunc space entity f) (built : b.BodiesBuilt) :
    ∃ calls, b.WrittenBy entity calls := by
  obtain ⟨decl, body, found, defined, -⟩ := links
  obtain ⟨calls, byCalls⟩ := built decl (List.mem_of_getElem? found) body defined
  exact ⟨calls, decl, body, found, defined, byCalls⟩

end LinksFunc

/-! ## An example

A block takes a reference to an import and calls a function in a table. The
signature of the block is that of the function, and the call has one that
nothing else has.
-/

namespace Dispatch

/-- The signature of the function and of the block in it. -/
def type : FuncType := ⟨[], [.funcRef, .i32]⟩

def table : TableHandle := ⟨0, { element := .funcRef, limits := { min := 1 } }⟩

def refFunc : Draft := ⟨⟨"ref.func", InstrSet.byte 0xD2, .index, none, .refFunc, .refFunc⟩,
  [.func 0, .funcMention 0], [], [.funcRef], .literal .none⟩

def const : Draft := ⟨InstrSet.constant "i32.const" (InstrSet.byte 0x41) .i32 .i32, [], [], [.i32],
  .literal (.i32 0)⟩

def callIndirect : Draft :=
  ⟨⟨"call_indirect", InstrSet.byte 0x11, .callIndirect, none, .callIndirect, .callIndirect⟩,
    [.table 0, .signature ⟨[], [.i32]⟩], [.i32], [.i32], .literal .none⟩

def block : Draft := ⟨⟨"block", InstrSet.byte 0x02, .block, none, .block, .block⟩,
  [.signature type, .func 0, .funcMention 0, .table 0, .signature ⟨[], [.i32]⟩], [],
  [.funcRef, .i32], .block type [refFunc, const, callIndirect]⟩

/-- The body before the first instruction in the block, between the two, and
behind the second one. -/
def opened : Context := ((Context.forFunction type).enter .block type).2

def between : Context := (opened.push [.funcRef]).2.write refFunc

def called : Context :=
  (({ between.write const with varsMade := 2 } : Context).push [.i32]).2.write callIndirect

/-- The body behind the block. -/
def closed : Context :=
  (({ Context.forFunction type with labelsMade := 2, varsMade := 3 } : Context).push
    [.funcRef, .i32]).2.write block

def inside : Construction Unit Unit := do
  let _ ← Construction.instr "ref.func" (.func ⟨0, ⟨[], []⟩⟩) []
  let _ ← Construction.instr "call_indirect" (.callIndirect table ⟨[], [.i32]⟩) [.i32 0]

theorem inside_eq : inside ⟨opened, ()⟩ = .ok () ⟨called, ()⟩ := by
  have first : Construction.instr "ref.func" (.func ⟨0, ⟨[], []⟩⟩) [] ⟨opened, ()⟩ =
      .ok [⟨0, .funcRef⟩] ⟨between, ()⟩ := rfl
  have second : Construction.instr "call_indirect" (.callIndirect table ⟨[], [.i32]⟩) [.i32 0]
      ⟨between, ()⟩ = .ok [⟨2, .i32⟩] ⟨called, ()⟩ := rfl
  exact EStateM.bind_eq_ok.mpr ⟨_, _, first, EStateM.bind_eq_ok.mpr ⟨_, _, second, rfl⟩⟩

theorem block_eq : Construction.block type (fun _ => inside) ⟨Context.forFunction type, ()⟩ =
    .ok [⟨3, .funcRef⟩, ⟨4, .i32⟩] ⟨closed, ()⟩ :=
  Construction.structured_eq_ok.mpr ⟨_, ⟨1⟩, ⟨opened, ()⟩, _, [refFunc, const, callIndirect], _,
    rfl, rfl, inside_eq, rfl, rfl⟩

end Dispatch

def dispatching : ModuleBuilder where
  funcs := [⟨⟨[], []⟩, .imported ⟨"m", "f"⟩⟩, ⟨Dispatch.type, .defined ⟨[], [Dispatch.block]⟩⟩]
  tables := [{ type := Dispatch.table.type }]

theorem dispatching_reached : dispatching.Reached := by
  let start : ModuleBuilder := { dispatching with funcs := [⟨⟨[], []⟩, .imported ⟨"m", "f"⟩⟩] }
  let act : Construction Unit Unit := do
    let _ ← Construction.block Dispatch.type fun _ => Dispatch.inside
  have stored : (importFunc {} ⟨"m", "f"⟩ ⟨[], []⟩).2.table Dispatch.table.type none =
      .ok (Dispatch.table, start) := addTable_eq_ok.mpr ⟨rfl, rfl, Nat.zero_le _, rfl, rfl⟩
  have built : FuncBody.construct Dispatch.type () act = (.ok ⟨[], [Dispatch.block]⟩, ()) :=
    FuncBody.construct_eq_ok.mpr
      ⟨_, EStateM.bind_eq_ok.mpr ⟨_, _, Dispatch.block_eq, rfl⟩, rfl, rfl, rfl⟩
  have done : start.func Dispatch.type () act = (.ok (⟨1, Dispatch.type⟩, dispatching), ()) :=
    func_eq_ok.mpr ⟨_, built, rfl⟩
  obtain ⟨calls, inner⟩ : ∃ calls, Construction.Program Dispatch.inside calls :=
    ⟨_, .bind (.instr _ _ _) fun _ => .bind (.instr _ _ _) fun _ => .pure ()⟩
  exact ((Reached.empty.importFunc _ _).table stored).func
    (.bind (.block fun _ => inner) fun _ => .pure ()) done

theorem dispatching_reach : dispatching.reach { exports := [("run", ⟨.func, 1⟩)] } = .ok {
    entities := [⟨.table, 0⟩, ⟨.func, 0⟩, ⟨.func, 1⟩]
    mentioned := [0] } := by
  have followed : dispatching.follow {} [.entity ⟨.func, 1⟩] =
      .ok { entities := [⟨.table, 0⟩, ⟨.func, 0⟩, ⟨.func, 1⟩], mentioned := [0] } :=
    follow_of_ends (.next (.reached rfl rfl) (.next .signature (.next (.reached rfl rfl)
      (.next .mentioned (.next (.reached rfl rfl) (.next .signature .none)))))) .done
  exact Except.bind_eq_ok.mpr ⟨_, followed, rfl⟩

/-- The function is mentioned inside the block, and so are two of the types. -/
theorem dispatching_build : dispatching.build { exports := [("run", ⟨.func, 1⟩)] } = .ok {
    types := [⟨[], []⟩, Dispatch.type, ⟨[], [.i32]⟩]
    imports := [⟨"m", "f", .func 0⟩]
    funcs := [⟨1, [], [.mk "block" (.block (.funcType 1) [.mk "ref.func" (.index 0),
      .mk "i32.const" (.i32 0), .mk "call_indirect" (.callIndirect 2 0)])]⟩]
    tables := [Dispatch.table.type]
    exports := [⟨"run", .func, 1⟩]
    elements := [⟨.declarative, .funcRef, [[.mk "ref.func" (.index 0)]]⟩] } :=
  build_eq_ok.mpr ⟨rfl, _, dispatching_reach, rfl⟩

end ModuleBuilder

end Wasm
