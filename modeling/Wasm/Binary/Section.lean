/-!
# Sections

A binary module is a sequence of sections, each with an id byte. Apart from
custom sections, which may stand anywhere, they follow one wire order. It is
the order of the ids but for the data count, which stands between the
elements and the code that its number lets a reader check.
-/

namespace Wasm

/-- The sections of the format. -/
inductive SectionKind where
  | custom
  | types
  | imports
  | functions
  | tables
  | memories
  | globals
  | exports
  | start
  | elements
  | code
  | data
  | dataCount
deriving DecidableEq, Inhabited, Repr

namespace SectionKind

def id : SectionKind → UInt8
  | .custom => 0
  | .types => 1
  | .imports => 2
  | .functions => 3
  | .tables => 4
  | .memories => 5
  | .globals => 6
  | .exports => 7
  | .start => 8
  | .elements => 9
  | .code => 10
  | .data => 11
  | .dataCount => 12

/-- The name of a section in messages. -/
def name : SectionKind → String
  | .custom => "custom"
  | .types => "type"
  | .imports => "import"
  | .functions => "function"
  | .tables => "table"
  | .memories => "memory"
  | .globals => "global"
  | .exports => "export"
  | .start => "start"
  | .elements => "element"
  | .code => "code"
  | .data => "data"
  | .dataCount => "data count"

/-- The place in the wire order. -/
def order : SectionKind → UInt8
  | .dataCount => 10
  | .code => 11
  | .data => 12
  | kind => kind.id

end SectionKind

/-- An id byte, which need not be that of a section of the format. -/
abbrev SectionId := UInt8

namespace SectionId

def kind? (id : SectionId) : Option SectionKind :=
  match id.toNat with
  | 0 => some .custom
  | 1 => some .types
  | 2 => some .imports
  | 3 => some .functions
  | 4 => some .tables
  | 5 => some .memories
  | 6 => some .globals
  | 7 => some .exports
  | 8 => some .start
  | 9 => some .elements
  | 10 => some .code
  | 11 => some .data
  | 12 => some .dataCount
  | _ => none

def name (id : SectionId) : String :=
  match id.kind? with
  | some kind => kind.name
  | none => "unknown"

/-- The place in the wire order; unknown sections come last. -/
def order (id : SectionId) : UInt8 :=
  match id.kind? with
  | some kind => kind.order
  | none => id

end SectionId

end Wasm
