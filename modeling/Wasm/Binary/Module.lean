import Wasm.Binary.Item

/-!
# Binary modules

A binary module is a header and a sequence of sections. The encoder writes
every section that has content, in wire order, and the custom sections last.
The decoder takes custom sections anywhere, requires the others in wire
order, and reads each section through a cursor that ends where the section
ends, so that no section can take bytes from the next one.
-/

namespace Wasm

/-- The first bytes of every binary module. -/
def magic : Bytes := [0x00, 0x61, 0x73, 0x6D]

/-- The version of the format, which follows as four bytes. -/
def formatVersion : UInt32 := 1

/-! ## Writing -/

/-- Why a module has no binary form. -/
inductive EncodeError where
  | unknownInstruction (cause : LookupError)
  | dataCountMismatch (declared : UInt32) (segments : Nat)
deriving DecidableEq, Inhabited, Repr

namespace EncodeError

def message : EncodeError → String
  | .unknownInstruction cause => "cannot encode instruction: " ++ cause.message
  | .dataCountMismatch declared segments =>
      "invalid state: data count " ++ toString declared.toNat ++ " but " ++
        toString segments ++ " data segments"

/-- The error behind this one. -/
def cause? : EncodeError → Option LookupError
  | .unknownInstruction cause => some cause
  | .dataCountMismatch .. => none

/-- A failed look-up as a reason that code cannot be written. -/
def ofLookup {α : Type} (result : Except LookupError α) : Except EncodeError α :=
  result.mapError .unknownInstruction

end EncodeError

/-- A section with its id and size. -/
def encodeSection (id : SectionId) (content : Bytes) : Bytes :=
  id :: Codec.byteVector.encode content

namespace Module

/-- A section that holds a vector, left out if the vector is empty. -/
def vectorSection {α : Type} (kind : SectionKind) (encode : α → Bytes) (items : List α) :
    Bytes :=
  if items.isEmpty then [] else encodeSection kind.id (Codec.encodeList encode items)

/-- The same for items that hold code. -/
def codeSection {α : Type} (kind : SectionKind) (encode : α → Except LookupError Bytes)
    (items : List α) : Except EncodeError Bytes :=
  if items.isEmpty then .ok []
  else do
    let contents ← EncodeError.ofLookup (items.mapM encode)
    return encodeSection kind.id (Codec.encodeList id contents)

/-- A section that holds one number, left out if there is none. -/
def numberSection (kind : SectionKind) (value : Option UInt32) : Bytes :=
  match value with
  | none => []
  | some value => encodeSection kind.id (Codec.u32.encode value)

/-- The data count, which must be right if it is stated. -/
def dataCountSection (m : Module) : Except EncodeError Bytes :=
  match m.dataCount with
  | some count =>
    if count.toNat = m.data.length then .ok (numberSection .dataCount m.dataCount)
    else .error (.dataCountMismatch count m.data.length)
  | none => .ok []

/-- The binary form of a module. -/
def encode (m : Module) : Except EncodeError Bytes := do
  let globals ← codeSection .globals Global.encode m.globals
  let elements ← codeSection .elements ElementSegment.encode m.elements
  let dataCount ← m.dataCountSection
  let code ← codeSection .code Func.encodeBody m.funcs
  let data ← codeSection .data DataSegment.encode m.data
  return magic ++ Bytes.littleEndian 4 formatVersion.toNat ++
    vectorSection .types Codec.funcType.encode m.types ++
    vectorSection .imports Import.encode m.imports ++
    vectorSection .functions (fun f => Codec.u32.encode f.typeIndex) m.funcs ++
    vectorSection .tables Codec.tableType.encode m.tables ++
    vectorSection .memories Codec.memoryType.encode m.memories ++
    globals ++
    vectorSection .exports Export.encode m.exports ++
    numberSection .start m.start ++
    elements ++ dataCount ++ code ++ data ++
    m.customs.flatMap fun custom => encodeSection SectionKind.custom.id custom.encode

end Module

/-! ## Reading -/

/-- The sections read so far. Signatures and bodies of functions come in two
sections and are joined at the end. -/
structure SectionContents where
  result : Module := {}
  funcTypes : List UInt32 := []
  bodies : List (List ValType × List Instr) := []
  /-- The place in the wire order of the last section that has one. -/
  lastOrder : UInt8 := 0
deriving Inhabited

namespace Decoder

/-- The magic bytes and the version. -/
def header : Decoder Unit := do
  let lead ← if ← hasAtLeast magic.length then bytes magic.length else pure []
  unless lead = magic do failAt 0 .badMagic
  let start ← offset
  let version := UInt32.ofNat (Bytes.toNatLE (← bytes 4))
  unless version = formatVersion do failAt start (.unknownVersion version)

/-- The content of a section, added to what was read before. -/
def sectionContent (s : SectionContents) : SectionKind → Decoder SectionContents
  | .custom => do
    let custom ← customSection
    return { s with result := { s.result with customs := s.result.customs ++ [custom] } }
  | .types => do
    let types ← Codec.counted "types" Bound.types Codec.funcType.decode
    return { s with result := { s.result with types } }
  | .imports => do
    let imports ← Codec.counted "imports" Bound.imports importItem
    return { s with result := { s.result with imports } }
  | .functions => do
    let funcTypes ← Codec.counted "functions" Bound.functions Codec.u32.decode
    return { s with funcTypes }
  | .tables => do
    let tables ← Codec.counted "tables" Bound.tables Codec.tableType.decode
    return { s with result := { s.result with tables } }
  | .memories => do
    let memories ← Codec.counted "memories" Bound.memories Codec.memoryType.decode
    return { s with result := { s.result with memories } }
  | .globals => do
    let globals ← Codec.counted "globals" Bound.globals global
    return { s with result := { s.result with globals } }
  | .exports => do
    let exports ← Codec.counted "exports" Bound.exports exportItem
    return { s with result := { s.result with exports } }
  | .start => do
    let start ← Codec.u32.decode
    return { s with result := { s.result with start := some start } }
  | .elements => do
    let elements ← Codec.counted "element segments" Bound.elementSegments elementSegment
    return { s with result := { s.result with elements } }
  | .dataCount => do
    let count ← Codec.u32.decode
    return { s with result := { s.result with dataCount := some count } }
  | .code => do
    let bodies ← Codec.counted "function bodies" Bound.functions functionBody
    return { s with bodies }
  | .data => do
    let data ← Codec.counted "data segments" Bound.dataSegments dataSegment
    return { s with result := { s.result with data } }

/-- Checks the place of a section, and remembers it. -/
def checkOrder (start : Nat) (id : SectionId) (s : SectionContents) :
    Decoder SectionContents :=
  if id = SectionKind.custom.id then return s
  else if id.order ≤ s.lastOrder then failAt start (.sectionOutOfOrder id)
  else return { s with lastOrder := id.order }

/-- One section. -/
def nextSection (s : SectionContents) : Decoder SectionContents := do
  let start ← offset
  let id ← byte
  let size ← Codec.u32.decode
  if ← hasAtLeast size.toNat then
    let s ← checkOrder start id s
    match SectionId.kind? id with
    | some kind => within size.toNat id (sectionContent s kind)
    | none => failAt start (.unknownSection id)
  else failAtEnd

/-- All sections to the end of the input. Each one takes at least two bytes,
so as much fuel as there is input suffices. -/
def sections : (fuel : Nat) → SectionContents → Decoder SectionContents
  | 0, _ => failAtEnd
  | fuel + 1, s => do
    if ← hasAtLeast 1 then sections fuel (← nextSection s) else return s

/-- Joins the signatures of functions with their bodies. -/
def joinFuncs (s : SectionContents) : Decoder Module :=
  if s.funcTypes.length = s.bodies.length then
    let funcs := (s.funcTypes.zip s.bodies).map fun (typeIndex, locals, body) =>
      { typeIndex, locals, body }
    return { s.result with funcs }
  else fail (.functionCodeMismatch s.funcTypes.length s.bodies.length)

/-- A whole module. -/
def wholeModule : Decoder Module := do
  header
  let fuel ← remaining
  joinFuncs (← sections (fuel + 1) {})

end Decoder

/-- Reads a binary module. -/
def Module.decode (input : Bytes) : Except DecodeError Module :=
  match Decoder.wholeModule (Cursor.ofInput input) with
  | .ok m _ => .ok m
  | .error e _ => .error e

end Wasm
