import Wasm.Assembly.Reach
import Wasm.Body.Link

/-!
# Index spaces

The numbers of a module: for each class the entities that belong to it,
imports first and otherwise in the order of declaration, and the signatures
in the order in which they are first used.
-/

namespace Wasm

/-- The entities of a module in the order of their numbers. -/
structure IndexSpace where
  entities : List Entity := []
  types : List FuncType := []
deriving Inhabited

namespace IndexSpace

/-- The entities of one class. -/
def ofKind (space : IndexSpace) (kind : ExternKind) : List Entity :=
  space.entities.filter (·.kind == kind)

/-- The number of a reference. The two marks have no number of their own and
take zero. -/
def index? (space : IndexSpace) : Reference → Option Nat
  | .entity e => (space.ofKind e.kind).idxOf? e
  | .signature type => space.types.idxOf? type
  | .memoryUse | .funcMention _ => some 0

/-- The number of a reference, which must have one. -/
def index (space : IndexSpace) (reference : Reference) : Except BuildError UInt32 :=
  match space.index? reference with
  | some i => .ok (UInt32.ofNat i)
  | none => linkFault (.reference reference)

/-- The code of a body, with every reference replaced by its number. -/
def linkBody (space : IndexSpace) (body : List Draft) : Except BuildError (List Instr) := do
  let indices ← (Draft.allReferences body).mapM space.index
  Draft.linkAll indices body

/-- A constant expression as code. -/
def linkConst (space : IndexSpace) : ConstExpr → Except BuildError (List Instr)
  | .i32 value => .ok [.mk "i32.const" (.i32 value)]
  | .i64 value => .ok [.mk "i64.const" (.i64 value)]
  | .f32 value => .ok [.mk "f32.const" (.f32 value)]
  | .f64 value => .ok [.mk "f64.const" (.f64 value)]
  | .v128 value => .ok [.mk "v128.const" (.v128 value)]
  | .refNull type => .ok [.mk "ref.null" (.refType type)]
  | .refFunc handle => return [.mk "ref.func" (.index (← space.index (.func handle.id)))]
  | .globalGet handle => return [.mk "global.get" (.index (← space.index (.global handle.id)))]

end IndexSpace

namespace ModuleBuilder

/-- Whether an entity of the builder is an import. -/
def isImported (b : ModuleBuilder) (entity : Entity) : Bool :=
  match entity.kind with
  | .func => (b.funcs[entity.id]?.map (·.content.isImported)).getD false
  | .global => (b.globals[entity.id]?.map (·.content.isImported)).getD false
  | .table => (b.tables[entity.id]?.bind (·.importName)).isSome
  | .memory => (b.memories[entity.id]?.bind (·.importName)).isSome

/-- The entities of a module in the order of their numbers. -/
def order (b : ModuleBuilder) (reach : Reach) : List Entity :=
  let reached := b.entities.filter reach.entities.contains
  reached.filter b.isImported ++ reached.filter (! b.isImported ·)

/-- The declaration of an entity, if it is a function. -/
def funcDecl? (b : ModuleBuilder) (entity : Entity) : Option FuncDecl :=
  if entity.kind = .func then b.funcs[entity.id]? else none

/-- The signatures that a body names by number, outer ones first. -/
def bodySignatures (decl : FuncDecl) : List FuncType :=
  match decl.content with
  | .defined body => (Draft.allReferences body.code).filterMap fun
    | .signature type => some type
    | _ => none
  | _ => []

/-- The signatures of a module, each one once: those of the functions in
their order, then those that their bodies name. -/
def signatures (b : ModuleBuilder) (order : List Entity) : List FuncType :=
  let decls := order.filterMap b.funcDecl?
  (decls.map (·.type) ++ decls.flatMap bodySignatures).eraseDups

/-- The numbers of a module with the given entities. -/
def indexSpace (b : ModuleBuilder) (reach : Reach) : IndexSpace :=
  let order := b.order reach
  { entities := order, types := b.signatures order }

end ModuleBuilder

end Wasm
