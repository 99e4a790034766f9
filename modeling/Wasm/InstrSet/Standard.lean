import Wasm.InstrSet.Atomic
import Wasm.InstrSet.Control
import Wasm.InstrSet.Lookup
import Wasm.InstrSet.Numeric
import Wasm.InstrSet.Storage
import Wasm.InstrSet.Vector

/-!
# The standard instruction set

All instructions that code can use. The encoder, the decoder and the stack
checker look mnemonics and opcodes up here and nowhere else.
-/

namespace Wasm.InstrSet

/-- The instructions in listing order. -/
def standard : InstrSet := ⟨control ++ storage ++ numeric ++ vectors ++ atomics⟩

end Wasm.InstrSet
