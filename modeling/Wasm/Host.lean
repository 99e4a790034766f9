import Wasm.Binary.Module

/-!
# Hosts

A host runs modules. It takes a module in binary form and gives back an
instance or an error of its own kind, into which it also puts the reasons
why a module has no binary form.
-/

namespace Wasm

/-- Something that accepts binary modules, with effects in `m`. -/
structure Host (m : Type → Type) (ε ι : Type) where
  load : Bytes → ExceptT ε m ι
  ofEncodeError : EncodeError → ε

/-- Hands a module to a host. A module without a binary form does not reach
it. -/
def Module.instantiate {m : Type → Type} [Monad m] {ε ι : Type} (host : Host m ε ι)
    (mod : Module) : ExceptT ε m ι :=
  match mod.encode with
  | .ok bytes => host.load bytes
  | .error e => throw (host.ofEncodeError e)

end Wasm
