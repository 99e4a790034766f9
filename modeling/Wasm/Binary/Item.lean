import Wasm.Binary.Code
import Wasm.Module

/-!
# The items of sections

Imports, globals, exports, segments and function bodies, each with its
writer and its reader. Where the format has several spellings, such as the
eight kinds of element segments, the reader takes all of them and the writer
keeps to one.
-/

namespace Wasm

namespace ExternKind

def toByte : ExternKind → UInt8
  | .func => 0x00
  | .table => 0x01
  | .memory => 0x02
  | .global => 0x03

def ofByte? (byte : UInt8) : Option ExternKind :=
  match byte.toNat with
  | 0x00 => some .func
  | 0x01 => some .table
  | 0x02 => some .memory
  | 0x03 => some .global
  | _ => none

end ExternKind

namespace Decoder

/-- The byte for a class of entities. -/
def externKind : Decoder ExternKind := do
  let start ← offset
  let b ← byte
  match ExternKind.ofByte? b with
  | some kind => return kind
  | none => failAt start (.invalidExternalKind b)

end Decoder

/-! ## Imports and exports -/

def ImportType.encode : ImportType → Bytes
  | .func typeIndex => ExternKind.func.toByte :: Codec.u32.encode typeIndex
  | .table type => ExternKind.table.toByte :: Codec.tableType.encode type
  | .memory type => ExternKind.memory.toByte :: Codec.memoryType.encode type
  | .global type => ExternKind.global.toByte :: Codec.globalType.encode type

def Import.encode (i : Import) : Bytes :=
  Codec.string.encode i.moduleName ++ Codec.string.encode i.name ++ i.type.encode

def Export.encode (e : Export) : Bytes :=
  Codec.string.encode e.name ++ e.kind.toByte :: Codec.u32.encode e.index

namespace Decoder

def importType : Decoder ImportType := do
  match ← externKind with
  | .func => return .func (← Codec.u32.decode)
  | .table => return .table (← Codec.tableType.decode)
  | .memory => return .memory (← Codec.memoryType.decode)
  | .global => return .global (← Codec.globalType.decode)

def importItem : Decoder Import := do
  let moduleName ← Codec.string.decode
  let name ← Codec.string.decode
  return { moduleName, name, type := ← importType }

def exportItem : Decoder Export := do
  let name ← Codec.string.decode
  let kind ← externKind
  return { name, kind, index := ← Codec.u32.decode }

end Decoder

/-! ## Globals -/

def Global.encode (g : Global) : Except LookupError Bytes := do
  let init ← encodeExpr g.init
  return Codec.globalType.encode g.type ++ init

def Decoder.global : Decoder Global := do
  let type ← Codec.globalType.decode
  return { type, init := ← expr }

/-! ## Element segments

A flag says what follows. Its lowest bit marks a segment that is not active,
the next one an explicit table (or a declarative segment), and the third one
entries that are expressions rather than function numbers.
-/

/-- Expressions behind their number. -/
def encodeExprs (exprs : List (List Instr)) : Except LookupError Bytes := do
  let bodies ← exprs.mapM encodeExpr
  return Codec.u32.encode (UInt32.ofNat exprs.length) ++ bodies.flatten

/-- Entries are always written as expressions, and the table is written
unless it is the first one and holds functions. -/
def ElementSegment.encode (segment : ElementSegment) : Except LookupError Bytes := do
  let header ← match segment.mode with
    | .active tableIndex start => do
      let start ← encodeExpr start
      if tableIndex = 0 ∧ segment.type = .funcRef then
        pure (Codec.u32.encode 4 ++ start)
      else
        pure (Codec.u32.encode 6 ++ Codec.u32.encode tableIndex ++ start ++
          Codec.valType.encode segment.type)
    | .passive => pure (Codec.u32.encode 5 ++ Codec.valType.encode segment.type)
    | .declarative => pure (Codec.u32.encode 7 ++ Codec.valType.encode segment.type)
  let entries ← encodeExprs segment.init
  return header ++ entries

namespace Decoder

/-- The only kind of entries that are written as numbers. -/
def functionEntries : UInt8 := 0x00

/-- The mode of an element segment with the given flags. -/
def elementMode (start : Nat) (flags : UInt32) : Decoder ElementMode :=
  match flags.toNat with
  | 0 | 4 => return .active 0 (← expr)
  | 2 | 6 => return .active (← Codec.u32.decode) (← expr)
  | 1 | 5 => return .passive
  | 3 | 7 => return .declarative
  | _ => failAt start (.invalidElementFlags flags)

/-- The entry type of an element segment with the given flags. -/
def elementType (flags : UInt32) : Decoder ValType :=
  if flags = 0 ∨ flags = 4 then return .funcRef
  else if 4 ≤ flags then Codec.refType
  else do
    expect functionEntries
    return .funcRef

/-- A function number as the expression that makes a reference to it. -/
def functionEntry : Decoder (List Instr) :=
  return [.mk "ref.func" (.index (← Codec.u32.decode))]

def elementSegment : Decoder ElementSegment := do
  let start ← offset
  let flags ← Codec.u32.decode
  let mode ← elementMode start flags
  let type ← elementType flags
  let init ← Codec.counted "element entries" Bound.elementEntries
    (if 4 ≤ flags then expr else functionEntry)
  return { mode, type, init }

end Decoder

/-! ## Data segments -/

/-- The memory is written unless it is the first one. -/
def DataSegment.encode (segment : DataSegment) : Except LookupError Bytes := do
  let header ← match segment.mode with
    | .active memoryIndex start => do
      let start ← encodeExpr start
      if memoryIndex = 0 then pure (Codec.u32.encode 0 ++ start)
      else pure (Codec.u32.encode 2 ++ Codec.u32.encode memoryIndex ++ start)
    | .passive => pure (Codec.u32.encode 1)
  return header ++ Codec.byteVector.encode segment.init

namespace Decoder

/-- The mode of a data segment with the given flags. -/
def dataMode (start : Nat) (flags : UInt32) : Decoder DataMode :=
  match flags.toNat with
  | 0 => return .active 0 (← expr)
  | 1 => return .passive
  | 2 => return .active (← Codec.u32.decode) (← expr)
  | _ => failAt start (.invalidDataFlags flags)

def dataSegment : Decoder DataSegment := do
  let start ← offset
  let mode ← dataMode start (← Codec.u32.decode)
  return { mode, init := ← Codec.byteVector.decode }

end Decoder

/-! ## Function bodies

Locals are declared in runs of equal types. The writer makes the runs as
long as they can be; the reader takes any runs and adds them up.
-/

/-- The longest runs of equal types, with their lengths. -/
def localRuns : List ValType → List (Nat × ValType)
  | [] => []
  | type :: rest =>
    match localRuns rest with
    | (n, other) :: runs =>
      if type = other then (n + 1, other) :: runs else (1, type) :: (n, other) :: runs
    | [] => [(1, type)]

/-- The locals that runs declare. -/
def expandRuns (runs : List (Nat × ValType)) : List ValType :=
  runs.flatMap fun (n, type) => List.replicate n type

/-- The locals and the code of a function. -/
def Func.encodeBody (f : Func) : Except LookupError Bytes := do
  let body ← encodeExpr f.body
  let encodeRun := fun ((n, type) : Nat × ValType) =>
    Codec.u32.encode (UInt32.ofNat n) ++ Codec.valType.encode type
  return Codec.byteVector.encode (Codec.encodeList encodeRun (localRuns f.locals) ++ body)

namespace Decoder

/-- `n` runs of locals, of which there are `total` so far. -/
def runs : (n : Nat) → (total : Nat) → Decoder (List (Nat × ValType))
  | 0, _ => return []
  | n + 1, total => do
    let start ← offset
    let length ← Codec.u32.decode
    let type ← Codec.valType.decode
    let total := total + length.toNat
    if Bound.locals.toNat < total then
      failAt start (.limitExceeded "locals" total Bound.locals)
    else
      let rest ← runs n total
      return (length.toNat, type) :: rest

/-- The locals and the code of a function, which must fill the size in front
of them exactly. -/
def functionBody : Decoder (List ValType × List Instr) := do
  let size ← Codec.u32.decode
  let start ← offset
  if ← hasAtLeast size.toNat then
    let n ← Codec.count "local declarations" Bound.locals
    let runs ← runs n 0
    let body ← expr
    let consumed := (← offset) - start
    if consumed = size.toNat then return (expandRuns runs, body)
    else fail (.sizeMismatch size.toNat consumed)
  else fail .unexpectedEnd

end Decoder

/-! ## Custom sections -/

def CustomSection.encode (custom : CustomSection) : Bytes :=
  Codec.string.encode custom.name ++ custom.data

def Decoder.customSection : Decoder CustomSection := do
  let name ← Codec.string.decode
  return { name, data := ← allBytes }

end Wasm
