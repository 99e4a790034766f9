import Wasm.Body.Value
import Wasm.InstrSet.Opcode

/-!
# Build errors

Why code or a declaration is rejected. Every error is a cause with the values
that belong to it; the wording is in the `message` functions alone.
-/

namespace Wasm

/-- Why a reference has no number, or why numbers do not fit the code that
waits for them. -/
inductive LinkFault where
  | reference (r : Reference)
  | wrongCount (name : String) (expected found : Nat)
  | missingBlockType (name : String) (type : FuncType)
  | tooFewForBodies (name : String) (found : Nat)
  | tooFewRemain (name : String) (needed found : Nat)
  | leftOver (count : Nat)
  /-- Reported by whoever writes the body. -/
  | reported (what : String)
deriving DecidableEq, Inhabited, Repr

def LinkFault.message : LinkFault → String
  | .reference r => r.text
  | .wrongCount name expected found =>
      name ++ " expects " ++ toString expected ++ " resolved dependencies, got " ++
        toString found
  | .missingBlockType name type => name ++ " block type " ++ type.text
  | .tooFewForBodies name found =>
      name ++ " bodies need more than " ++ toString found ++ " indices"
  | .tooFewRemain name needed found =>
      name ++ " has " ++ toString needed ++ " dependencies but only " ++ toString found ++
        " indices remain"
  | .leftOver count => toString count ++ " indices left over after resolving the body"
  | .reported what => what

/-- Why an operand cannot be used. -/
inductive OperandFault where
  | stackAfterExplicit
  | notInPlace (var : StackVar) (position : Nat)
  | notOneValue
  | referenceNeedsType
deriving DecidableEq, Inhabited, Repr

def OperandFault.message : OperandFault → String
  | .stackAfterExplicit => "stack operands must precede explicit ones"
  | .notInPlace var position =>
      var.text ++ " is not at operand position " ++ toString position ++
        " (already consumed or out of order)"
  | .notOneValue => "does not produce exactly one value"
  | .referenceNeedsType => "reference operands need select.typed"

/-- Why the arguments of an instruction or declaration are not acceptable. -/
inductive ArgumentFault where
  | notTaken (what : String)
  | noSignature
  | wrongLiteral (text : String)
  | noLaneShape
  | noMemoryShape
  | notFuncTable
  | arityMismatch (target : Target) (arity expected : Nat)
  | notReference (type : ValType)
  | copyMismatch (source destination : ValType)
  | structured
  | noParam (index : UInt32) (count : Nat)
  | bodyCaptured
  | noBlockCaptured
  | noConditionalCaptured
  | foreignFunc
  | alreadyDefined (id : Nat)
  | mutableGlobal
  | definedGlobal
  | wrongElement (found table : ValType)
  | tooManyElements (count : Nat) (slots : UInt32)
  | sharedWithoutMaximum
  | tooMuchData (length : Nat) (pages : UInt32)
deriving DecidableEq, Inhabited, Repr

def ArgumentFault.message : ArgumentFault → String
  | .notTaken what => "does not take " ++ what
  | .noSignature => "has no fixed signature"
  | .wrongLiteral text => "literal" ++ text ++ " has the wrong type"
  | .noLaneShape => "has no lane immediate"
  | .noMemoryShape => "has no memory argument"
  | .notFuncTable => "table does not hold funcref"
  | .arityMismatch target arity expected =>
      "target " ++ target.text ++ " has arity " ++ toString arity ++ ", default has " ++
        toString expected
  | .notReference type => type.text ++ " is not a reference type"
  | .copyMismatch source destination =>
      "cannot copy " ++ source.text ++ " elements into a " ++ destination.text ++ " table"
  | .structured => "structured instructions are built with block, loop, if_ or if_else"
  | .noParam index count =>
      "index " ++ toString index.toNat ++ " but the function has " ++ toString count ++
        " parameters"
  | .bodyCaptured => "captured a body instead of an immediate"
  | .noBlockCaptured => "did not capture a block body"
  | .noConditionalCaptured => "did not capture if bodies"
  | .foreignFunc => "function belongs to another builder"
  | .alreadyDefined id => "function " ++ toString id ++ " already has a body"
  | .mutableGlobal => "constant expressions cannot read mutable globals"
  | .definedGlobal => "constant expressions can only read imported globals"
  | .wrongElement found table => found.text ++ " element in a " ++ table.text ++ " table"
  | .tooManyElements count slots =>
      toString count ++ " elements do not fit in " ++ toString slots.toNat ++ " slots"
  | .sharedWithoutMaximum => "shared memory needs a maximum"
  | .tooMuchData length pages =>
      toString length ++ " bytes of data do not fit in " ++ toString pages.toNat ++ " pages"

/-- Why a body or a module cannot be built. -/
inductive BuildError where
  | stackType (instruction : String) (expected found : List ValType)
  | unbalancedStack (construct : String) (expected found : List ValType)
  | unknownInstruction (cause : LookupError)
  | unresolved (fault : LinkFault)
  | unknownLabel (target : Target)
  | unknownLocal (handle : LocalHandle)
  | immutableGlobal
  | badAlignment (instruction : String) (align natural : UInt32)
  | invalidLane (instruction : String) (lane lanes : UInt8)
  | invalidOperand (instruction : String) (fault : OperandFault)
  | invalidArguments (subject : String) (fault : ArgumentFault)
  | duplicateExport (name : String)
  | undefinedFunction (id : Nat)
  | missingMemory
deriving DecidableEq, Inhabited, Repr

def BuildError.message : BuildError → String
  | .stackType instruction expected found =>
      "type mismatch in " ++ instruction ++ ": expected [" ++ ValType.listText expected ++
        "], stack has [" ++ ValType.listText found ++ "]"
  | .unbalancedStack construct expected found =>
      "unbalanced stack at end of " ++ construct ++ ": expected [" ++
        ValType.listText expected ++ "], got [" ++ ValType.listText found ++ "]"
  | .unknownInstruction cause => cause.message
  | .unresolved fault => "unresolved dependency: " ++ fault.message
  | .unknownLabel target => "unknown branch target " ++ target.text
  | .unknownLocal handle =>
      "local " ++ toString handle.index.toNat ++ " of type " ++ handle.type.text ++
        " is not declared in this function"
  | .immutableGlobal => "cannot set immutable global"
  | .badAlignment instruction align natural =>
      "invalid alignment 2^" ++ toString align.toNat ++ " for " ++ instruction ++
        " (natural alignment 2^" ++ toString natural.toNat ++ ")"
  | .invalidLane instruction lane lanes =>
      "lane " ++ toString lane.toNat ++ " out of range for " ++ instruction ++ " (" ++
        toString lanes.toNat ++ " lanes)"
  | .invalidOperand instruction fault =>
      "invalid operand for " ++ instruction ++ ": " ++ fault.message
  | .invalidArguments subject fault =>
      "invalid arguments for " ++ subject ++ ": " ++ fault.message
  | .duplicateExport name => "duplicate export name " ++ Text.quoted name
  | .undefinedFunction id =>
      "function " ++ toString id ++ " was declared but never defined"
  | .missingMemory => "code accesses memory but the module declares none"

end Wasm
