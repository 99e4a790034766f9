import Wasm.Assembly.IndexSpace

/-!
# Building a module

The last step: the entities that the roots need get their numbers, and every
declaration becomes an import or a definition of the module with all its
references resolved. The contents of tables and memories become segments
that start at zero, and functions that code makes references to are declared
in a segment of their own.
-/

namespace Wasm

namespace ModuleBuilder

/-! ## Imports and definitions -/

/-- What a declaration becomes. -/
inductive Part where
  | imported (i : Import)
  | func (f : Func)
  | table (type : TableType)
  | memory (type : MemoryType)
  | global (g : Global)
deriving Inhabited

/-- An import of the given type. -/
def importPart (name : ImportName) (type : ImportType) : Part :=
  .imported { moduleName := name.moduleName, name := name.name, type }

/-- The part of a module that an entity becomes. -/
def part (b : ModuleBuilder) (space : IndexSpace) (entity : Entity) : Except BuildError Part :=
  let unknown := linkFault (.reference (.entity entity))
  match entity.kind with
  | .func =>
    match b.funcs[entity.id]? with
    | some decl => do
      let typeIndex ← space.index (.signature decl.type)
      match decl.content with
      | .imported name => return importPart name (.func typeIndex)
      | .defined body =>
        return .func { typeIndex, locals := body.locals, body := ← space.linkBody body.code }
      | .pending => throw (.undefinedFunction entity.id)
    | none => unknown
  | .table =>
    match b.tables[entity.id]? with
    | some decl =>
      match decl.importName with
      | some name => return importPart name (.table decl.type)
      | none => return .table decl.type
    | none => unknown
  | .memory =>
    match b.memories[entity.id]? with
    | some decl =>
      match decl.importName with
      | some name => return importPart name (.memory decl.type)
      | none => return .memory decl.type
    | none => unknown
  | .global =>
    match b.globals[entity.id]? with
    | some decl =>
      match decl.content with
      | .imported name => return importPart name (.global decl.type)
      | .defined init => return .global { type := decl.type, init := ← space.linkConst init }
    | none => unknown

/-- The parts of all entities of a class. -/
def partsOf (b : ModuleBuilder) (space : IndexSpace) (kind : ExternKind) :
    Except BuildError (List Part) :=
  (space.ofKind kind).mapM (b.part space)

/-! ## Segments -/

/-- The offset of every segment. -/
def zeroOffset : List Instr := [.mk "i32.const" (.i32 0)]

/-- The segment that fills a table, if it starts with entries. -/
def tableSegment (b : ModuleBuilder) (space : IndexSpace) (entity : Entity) :
    Except BuildError (Option ElementSegment) :=
  match b.tables[entity.id]? with
  | some decl =>
    match decl.elements with
    | some elements => do
      let index ← space.index (.entity entity)
      let init ← elements.mapM space.linkConst
      return some { mode := .active index zeroOffset, type := decl.type.element, init }
    | none => return none
  | none => return none

/-- The segment that declares functions which code makes references to. -/
def mentionSegment (space : IndexSpace) (mentioned : List Nat) :
    Except BuildError (Option ElementSegment) :=
  if mentioned.isEmpty then return none
  else do
    let init ← mentioned.mapM fun id => do
      return [Instr.mk "ref.func" (.index (← space.index (.func id)))]
    return some { mode := .declarative, type := .funcRef, init }

/-- The segment that fills a memory, if it starts with data. -/
def memorySegment (b : ModuleBuilder) (space : IndexSpace) (entity : Entity) :
    Except BuildError (Option DataSegment) :=
  match b.memories[entity.id]? with
  | some decl =>
    match decl.data with
    | some init => do
      let index ← space.index (.entity entity)
      return some { mode := .active index zeroOffset, init }
    | none => return none
  | none => return none

/-! ## The module -/

/-- The first name that occurs a second time. -/
def firstRepeated : (seen names : List String) → Option String
  | _, [] => none
  | seen, name :: rest =>
    if seen.contains name then some name else firstRepeated (name :: seen) rest

/-- The export of an entity under a name. -/
def exportItem (space : IndexSpace) (name : String) (entity : Entity) :
    Except BuildError Export :=
  return { name, kind := entity.kind, index := ← space.index (.entity entity) }

/-- The module made of the entities that were reached. -/
def assemble (b : ModuleBuilder) (roots : Roots) (reach : Reach) : Except BuildError Module := do
  let space := b.indexSpace reach
  let funcs ← b.partsOf space .func
  let tables ← b.partsOf space .table
  let memories ← b.partsOf space .memory
  let globals ← b.partsOf space .global
  let exports ← roots.exports.mapM fun (name, entity) => exportItem space name entity
  let start ← roots.start.mapM fun handle => space.index (.func handle.id)
  let filled ← (space.ofKind .table).mapM (b.tableSegment space)
  let declared ← mentionSegment space reach.mentioned
  let data ← (space.ofKind .memory).mapM (b.memorySegment space)
  let parts := funcs ++ tables ++ memories ++ globals
  return {
    types := space.types
    imports := parts.filterMap fun | .imported i => some i | _ => none
    funcs := parts.filterMap fun | .func f => some f | _ => none
    tables := parts.filterMap fun | .table type => some type | _ => none
    memories := parts.filterMap fun | .memory type => some type | _ => none
    globals := parts.filterMap fun | .global g => some g | _ => none
    exports
    start
    elements := (filled ++ [declared]).filterMap id
    data := data.filterMap id }

/-- The module that the roots ask for. -/
def build (b : ModuleBuilder) (roots : Roots) : Except BuildError Module :=
  match firstRepeated [] (roots.exports.map (·.1)) with
  | some name => .error (.duplicateExport name)
  | none => do
    let reach ← b.reach roots
    b.assemble roots reach

end ModuleBuilder

end Wasm
