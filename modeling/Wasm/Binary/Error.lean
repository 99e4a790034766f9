import Wasm.Binary.Section
import Wasm.InstrSet.Opcode

/-!
# Decode errors

A failed decoding names its cause, the offset of the byte where it was
detected, and the section that was being read, where there is one.
-/

namespace Wasm

/-- Why input is not a binary module. -/
inductive DecodeFault where
  | unexpectedEnd
  | integerTooLong
  | integerTooLarge
  | invalidUtf8
  | badMagic
  | unknownVersion (version : UInt32)
  | invalidValueType (byte : UInt8)
  | unexpectedByte (expected found : UInt8)
  | invalidLimits (flags : UInt8)
  | invalidMutability (byte : UInt8)
  | invalidExternalKind (byte : UInt8)
  | invalidBlockType
  | unknownSection (id : SectionId)
  | sectionOutOfOrder (id : SectionId)
  | sizeMismatch (declared consumed : Nat)
  | functionCodeMismatch (functions bodies : Nat)
  | limitExceeded (what : String) (count : Nat) (limit : UInt32)
  | invalidElementFlags (flags : UInt32)
  | invalidDataFlags (flags : UInt32)
  | unexpectedElse
  | unknownInstruction (cause : LookupError)
deriving DecidableEq, Inhabited, Repr

def DecodeFault.message : DecodeFault → String
  | .unexpectedEnd => "unexpected end of input"
  | .integerTooLong => "integer representation too long"
  | .integerTooLarge => "integer too large"
  | .invalidUtf8 => "invalid utf-8 sequence"
  | .badMagic => "magic header not detected"
  | .unknownVersion version => "unknown binary version " ++ toString version.toNat
  | .invalidValueType byte => "invalid value type " ++ Text.hexByte byte
  | .unexpectedByte expected found =>
      "expected " ++ Text.hexByte expected ++ ", found " ++ Text.hexByte found
  | .invalidLimits flags => "invalid limits flags " ++ Text.hexByte flags
  | .invalidMutability byte => "invalid mutability " ++ Text.hexByte byte
  | .invalidExternalKind byte => "invalid external kind " ++ Text.hexByte byte
  | .invalidBlockType => "invalid block type"
  | .unknownSection id => "unknown section id " ++ toString id.toNat
  | .sectionOutOfOrder id => "section " ++ toString id.toNat ++ " out of order"
  | .sizeMismatch declared consumed =>
      "section size mismatch: declared " ++ toString declared ++ " bytes, consumed " ++
        toString consumed
  | .functionCodeMismatch functions bodies =>
      "function and code section have inconsistent lengths (" ++ toString functions ++
        " vs " ++ toString bodies ++ ")"
  | .limitExceeded what count limit =>
      "too many " ++ what ++ ": " ++ toString count ++ " exceeds limit " ++
        toString limit.toNat
  | .invalidElementFlags flags => "invalid element segment flags " ++ toString flags.toNat
  | .invalidDataFlags flags => "invalid data segment flags " ++ toString flags.toNat
  | .unexpectedElse => "unexpected else outside of if"
  | .unknownInstruction cause => cause.message

/-- A fault at a place in the input. -/
structure DecodeError where
  offset : Nat
  sectionId : Option SectionId
  fault : DecodeFault
deriving DecidableEq, Inhabited, Repr

def DecodeError.message (error : DecodeError) : String :=
  let place := match error.sectionId with
    | some id => " in " ++ id.name ++ " section"
    | none => ""
  "malformed binary at offset " ++ Text.hexNat error.offset ++ place ++ ": " ++
    error.fault.message

end Wasm
