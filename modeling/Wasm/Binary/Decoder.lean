import Wasm.Binary.Error
import Wasm.Bytes

/-!
# Decoders

A decoder reads from a cursor: the bytes that are left, and their offset in
the whole input. It either returns a value and a cursor further on, or a
fault at an offset together with the place where reading stopped. No decoder
looks behind the cursor, and a section is read through a cursor that ends
where the section ends.
-/

namespace Wasm

/-- A position in the input and what follows it. -/
structure Cursor where
  offset : Nat
  rest : Bytes
  /-- The section that errors are reported in. -/
  sectionId : Option SectionId := none
deriving DecidableEq, Inhabited, Repr

namespace Cursor

/-- A cursor at an offset of the input; an offset past the end means the end. -/
def ofInput (input : Bytes) (offset : Nat := 0) : Cursor :=
  ⟨min offset input.length, input.drop offset, none⟩

/-- The offset just behind the input. -/
def endOffset (c : Cursor) : Nat := c.offset + c.rest.length

/-- The cursor after the next `n` bytes. -/
def skip (c : Cursor) (n : Nat) : Cursor :=
  { c with offset := c.offset + n, rest := c.rest.drop n }

end Cursor

/-- A reader of values from a cursor. -/
abbrev Decoder := EStateM DecodeError Cursor

namespace Decoder

/-- Fails at a given offset. -/
def failAt {α : Type} (offset : Nat) (fault : DecodeFault) : Decoder α := fun c =>
  .error ⟨offset, c.sectionId, fault⟩ c

/-- Fails at the cursor. -/
def fail {α : Type} (fault : DecodeFault) : Decoder α := fun c =>
  .error ⟨c.offset, c.sectionId, fault⟩ c

/-- Fails because the input ends too early. -/
def failAtEnd {α : Type} : Decoder α := fun c =>
  .error ⟨c.endOffset, c.sectionId, .unexpectedEnd⟩ c

/-- The offset of the cursor. -/
def offset : Decoder Nat := fun c => .ok c.offset c

/-- The number of bytes that are left. -/
def remaining : Decoder Nat := fun c => .ok c.rest.length c

/-- Whether `n` more bytes are left. -/
def hasAtLeast (n : Nat) : Decoder Bool := fun c => .ok (Bytes.hasAtLeast n c.rest) c

/-- Reports later errors in a section. -/
def setSection (id : Option SectionId) : Decoder Unit := fun c =>
  .ok () { c with sectionId := id }

/-- The next byte, which stays unread. -/
def peek : Decoder UInt8 := fun c =>
  match c.rest with
  | [] => fail .unexpectedEnd c
  | b :: _ => .ok b c

/-- The next byte. -/
def byte : Decoder UInt8 := fun c =>
  match c.rest with
  | [] => fail .unexpectedEnd c
  | b :: rest => .ok b { c with offset := c.offset + 1, rest }

/-- The next `n` bytes; where fewer are left, none is read. -/
def bytes (n : Nat) : Decoder Bytes := fun c =>
  if Bytes.hasAtLeast n c.rest then .ok (c.rest.take n) (c.skip n) else failAtEnd c

/-- All bytes that are left. -/
def allBytes : Decoder Bytes := fun c => .ok c.rest (c.skip c.rest.length)

/-- The next byte, which must be `expected`. -/
def expect (expected : UInt8) : Decoder Unit := do
  let start ← offset
  let found ← byte
  unless found = expected do failAt start (.unexpectedByte expected found)

/-- A list of `n` items, one after the other. -/
def list {α : Type} (item : Decoder α) : Nat → Decoder (List α)
  | 0 => pure []
  | n + 1 => do
    let head ← item
    let tail ← list item n
    return head :: tail

/-- Runs a decoder on the next `size` bytes alone, with errors reported in
section `id`. It must read all of them. The caller has checked that they are
there. -/
def within {α : Type} (size : Nat) (id : SectionId) (content : Decoder α) : Decoder α :=
  fun c =>
    match content { c with rest := c.rest.take size, sectionId := some id } with
    | .error e _ => .error e c
    | .ok a inner =>
      if inner.offset = c.offset + size then .ok a (c.skip size)
      else fail (.sizeMismatch size (inner.offset - c.offset)) inner

end Decoder

end Wasm
