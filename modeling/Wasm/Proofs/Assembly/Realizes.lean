import Mathlib.Algebra.Group.Nat.Defs
import Wasm.Proofs.Assembly.Numbering
import Wasm.Proofs.Assembly.Reached
import Wasm.Proofs.Body.Linked

/-!
# A built module realizes its declarations

In a built module there are numbers where the client gave handles. Here is
what it means that they are the right ones: each position of a class holds
what its entity was declared as, and whatever refers to an entity has the
number of that entity, at any depth of any body.
-/

namespace Wasm

/-! ## What a declaration becomes -/

/-- The class of an import. -/
def ImportType.kind : ImportType → ExternKind
  | .func _ => .func
  | .table _ => .table
  | .memory _ => .memory
  | .global _ => .global

namespace Module

/-- The imports of a class, in order. -/
def importsOf (m : Module) (kind : ExternKind) : List Import :=
  m.imports.filter (·.type.kind == kind)

/-- The number of definitions of a class. -/
def definitionCount (m : Module) : ExternKind → Nat
  | .func => m.funcs.length
  | .table => m.tables.length
  | .memory => m.memories.length
  | .global => m.globals.length

end Module

/-- The code of a constant expression, with numbers for its handles. -/
def ConstExpr.Denotes (N : Reference → UInt32 → Prop) : ConstExpr → List Instr → Prop
  | .i32 value, code => code = [.mk "i32.const" (.i32 value)]
  | .i64 value, code => code = [.mk "i64.const" (.i64 value)]
  | .f32 value, code => code = [.mk "f32.const" (.f32 value)]
  | .f64 value, code => code = [.mk "f64.const" (.f64 value)]
  | .v128 value, code => code = [.mk "v128.const" (.v128 value)]
  | .refNull type, code => code = [.mk "ref.null" (.refType type)]
  | .refFunc handle, code => ∃ n, N (.func handle.id) n ∧ code = [.mk "ref.func" (.index n)]
  | .globalGet handle, code =>
      ∃ n, N (.global handle.id) n ∧ code = [.mk "global.get" (.index n)]

namespace ModuleBuilder

variable (b : ModuleBuilder) (N : Reference → UInt32 → Prop)

/-- `i` brings in what `entity` was declared as, under the names of the declaration. -/
def ImportsAs (entity : Entity) (i : Import) : Prop :=
  match entity.kind with
  | .func => ∃ decl name n, b.funcs[entity.id]? = some decl ∧ decl.content = .imported name ∧
      N (.signature decl.type) n ∧ i = ⟨name.moduleName, name.name, .func n⟩
  | .table => ∃ decl name, b.tables[entity.id]? = some decl ∧ decl.importName = some name ∧
      i = ⟨name.moduleName, name.name, .table decl.type⟩
  | .memory => ∃ decl name, b.memories[entity.id]? = some decl ∧ decl.importName = some name ∧
      i = ⟨name.moduleName, name.name, .memory decl.type⟩
  | .global => ∃ decl name, b.globals[entity.id]? = some decl ∧ decl.content = .imported name ∧
      i = ⟨name.moduleName, name.name, .global decl.type⟩

/-- `f` has the signature and the locals of a defined function, and as its code
what the calls stand for that built the body. -/
def DefinesFunc (entity : Entity) (f : Func) : Prop :=
  ∃ decl body, b.funcs[entity.id]? = some decl ∧ decl.content = .defined body ∧
    N (.signature decl.type) f.typeIndex ∧ f.locals = body.locals ∧
    (∃ calls, FuncBody.BuiltBy decl.type calls body) ∧
    ∀ calls, FuncBody.BuiltBy decl.type calls body → Call.AllDenote N calls f.body

def DefinesTable (entity : Entity) (type : TableType) : Prop :=
  ∃ decl, b.tables[entity.id]? = some decl ∧ decl.importName = none ∧ type = decl.type

def DefinesMemory (entity : Entity) (type : MemoryType) : Prop :=
  ∃ decl, b.memories[entity.id]? = some decl ∧ decl.importName = none ∧ type = decl.type

def DefinesGlobal (entity : Entity) (g : Global) : Prop :=
  ∃ decl init, b.globals[entity.id]? = some decl ∧ decl.content = .defined init ∧
    g.type = decl.type ∧ init.Denotes N g.init

/-- The segment of a table that was declared with entries. -/
def FillsTable (entity : Entity) (segment : ElementSegment) : Prop :=
  ∃ decl elements n, b.tables[entity.id]? = some decl ∧ decl.elements = some elements ∧
    N (.entity entity) n ∧ segment.mode = .active n zeroOffset ∧
    segment.type = decl.type.element ∧ List.Forall₂ (ConstExpr.Denotes N) elements segment.init

/-- The segment of a memory that was declared with data. -/
def FillsMemory (entity : Entity) (segment : DataSegment) : Prop :=
  ∃ decl data n, b.memories[entity.id]? = some decl ∧ decl.data = some data ∧
    N (.entity entity) n ∧ segment.mode = .active n zeroOffset ∧ segment.init = data

/-- The segment that lists functions for their references. -/
def DeclaresFuncs (ids : List Nat) (segment : ElementSegment) : Prop :=
  segment.mode = .declarative ∧ segment.type = .funcRef ∧
    List.Forall₂ (fun id code => ∃ n, N (.func id) n ∧ code = [.mk "ref.func" (.index n)])
      ids segment.init

/-! ## The numbering -/

/-- In each class, `space` lists the entities that were reached: each of them
once, imports first, both parts as they were declared, and as many of each as
the module has. -/
structure Numbers (reached : List Entity) (space : IndexSpace) (m : Module) : Prop where
  nodup : ∀ kind, (space.ofKind kind).Nodup
  known : ∀ entity ∈ reached, entity ∈ b.entities
  mem : ∀ kind entity, entity ∈ space.ofKind kind ↔ entity.kind = kind ∧ entity ∈ reached
  ordered : ∀ kind, ∃ imported defined, space.ofKind kind = imported ++ defined ∧
    (∀ entity ∈ imported, b.isImported entity = true) ∧
    (∀ entity ∈ defined, b.isImported entity = false) ∧
    imported.Pairwise (·.id < ·.id) ∧ defined.Pairwise (·.id < ·.id) ∧
    imported.length = (m.importsOf kind).length ∧ defined.length = m.definitionCount kind

/-- Every position of `m` holds what the entity of that number was declared as,
and every number in `m` is that of the entity whose handle was given. -/
structure Realizes (roots : Roots) (mentioned : List Nat) (space : IndexSpace) (m : Module) :
    Prop where
  imports : ∀ kind, List.Forall₂ (b.ImportsAs space.Names)
    ((space.ofKind kind).filter b.isImported) (m.importsOf kind)
  funcs : List.Forall₂ (b.DefinesFunc space.Names)
    ((space.ofKind .func).filter (! b.isImported ·)) m.funcs
  tables : List.Forall₂ b.DefinesTable ((space.ofKind .table).filter (! b.isImported ·)) m.tables
  memories : List.Forall₂ b.DefinesMemory
    ((space.ofKind .memory).filter (! b.isImported ·)) m.memories
  globals : List.Forall₂ (b.DefinesGlobal space.Names)
    ((space.ofKind .global).filter (! b.isImported ·)) m.globals
  /-- The signature of each function, unless there are too many for their numbers. -/
  signatures : m.types.length ≤ 2 ^ 32 → ∀ (i : Nat) (entity : Entity) (decl : FuncDecl),
    (space.ofKind .func)[i]? = some entity → b.funcs[entity.id]? = some decl →
    m.funcType? i = some decl.type
  exports : List.Forall₂ (fun root e => e.name = root.1 ∧ e.kind = root.2.kind ∧
    space.Names (.entity root.2) e.index) roots.exports m.exports
  start : Option.Rel (fun handle n => space.Names (.func handle.id) n) roots.start m.start
  elements : ∃ filled declared, m.elements = filled ++ declared ∧
    List.Forall₂ (b.FillsTable space.Names) ((space.ofKind .table).filter fun entity =>
      (b.tables[entity.id]?.bind (·.elements)).isSome) filled ∧
    List.Forall₂ (DeclaresFuncs space.Names)
      (if mentioned.isEmpty then [] else [mentioned]) declared
  data : List.Forall₂ (b.FillsMemory space.Names) ((space.ofKind .memory).filter fun entity =>
    (b.memories[entity.id]?.bind (·.data)).isSome) m.data

end ModuleBuilder

end Wasm
