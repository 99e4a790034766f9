/-!
# Bounds of the decoder

Counts that are read from the input are held against these bounds before
anything is built from them, so that a malformed length fails at once.
-/

namespace Wasm.Bound

def types : UInt32 := 1000000

def imports : UInt32 := 100000

def functions : UInt32 := 1000000

def tables : UInt32 := 100000

def memories : UInt32 := 100000

def globals : UInt32 := 1000000

def exports : UInt32 := 100000

def elementSegments : UInt32 := 100000

def dataSegments : UInt32 := 100000

/-- Items of a vector that has no bound of its own. -/
def vectorItems : UInt32 := 10000000

/-- Entries of one element segment. -/
def elementEntries : UInt32 := 10000000

/-- Parameters, and results, of one signature. -/
def valueTypes : UInt32 := 1000

/-- Locals of one function, over all its declarations. -/
def locals : UInt32 := 50000

/-- Structured instructions inside each other. -/
def nesting : UInt32 := 1024

/-- Labels of one branch table. -/
def branchLabels : UInt32 := 65536

/-- Types of one typed select. -/
def selectTypes : UInt32 := 1

end Wasm.Bound
