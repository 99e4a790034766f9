import Wasm.Assembly.Build
import Wasm.Body.Shorthand
import Wasm.Host
import Wasm.Instr.Linear
import Wasm.Proofs.Binary.Integers
import Wasm.Proofs.Binary.Values
import Wasm.Proofs.Binary.Code
import Wasm.Proofs.Binary.Items
import Wasm.Proofs.Binary.RoundTrip
import Wasm.Proofs.Binary.Image
import Wasm.Proofs.Binary.Spelling
import Wasm.Proofs.Binary.Compositional
import Wasm.Proofs.Binary.Local
import Wasm.Proofs.Binary.LocalRuns
import Wasm.Proofs.Binary.Exactly
import Wasm.Proofs.Binary.Unspelt
import Wasm.Proofs.Binary.UnspeltSigned
import Wasm.Proofs.Binary.Shortest
import Wasm.Proofs.Binary.ParseTrees
import Wasm.Proofs.Binary.Wire
import Wasm.Proofs.Binary.Delimited
import Wasm.Proofs.Binary.Grammar
import Wasm.Proofs.Binary.Transparent
import Wasm.Proofs.Binary.Writable
import Wasm.Proofs.Binary.Unwritable
import Wasm.Proofs.Binary.Bounded
import Wasm.Proofs.Binary.Streams
import Wasm.Proofs.Binary.Sited
import Wasm.Proofs.Binary.Persistent
import Wasm.Proofs.Binary.Confined
import Wasm.Proofs.Binary.Fault
import Wasm.Proofs.Binary.Settled
import Wasm.Proofs.Binary.SettledItems
import Wasm.Proofs.InstrSet.Indexed
import Wasm.Proofs.Body.Program
import Wasm.Proofs.Body.Steps
import Wasm.Proofs.Body.Recorded
import Wasm.Proofs.Body.Effects
import Wasm.Proofs.Body.Linked
import Wasm.Proofs.Body.Linkable
import Wasm.Proofs.Body.Directly
import Wasm.Proofs.Body.Counted
import Wasm.Proofs.Body.ByHand
import Wasm.Proofs.Body.Everywhere
import Wasm.Proofs.Body.Renaming
import Wasm.Proofs.Body.Mirrored
import Wasm.Proofs.Body.Undo
import Wasm.Proofs.Body.Session
import Wasm.Proofs.Body.Covered
import Wasm.Proofs.Body.Branches
import Wasm.Proofs.Body.Accounted
import Wasm.Proofs.Body.Labels
import Wasm.Proofs.Body.Walked
import Wasm.Proofs.Body.Fresh
import Wasm.Proofs.Body.Operands
import Wasm.Proofs.Body.NetEffect
import Wasm.Proofs.Body.Shorthands
import Wasm.Proofs.Body.Flat
import Wasm.Proofs.Body.Flattened
import Wasm.Proofs.Body.Script
import Wasm.Proofs.Body.Simulated
import Wasm.Proofs.Body.Upright
import Wasm.Proofs.Body.Held
import Wasm.Proofs.Assembly.Reached
import Wasm.Proofs.Assembly.Accepted
import Wasm.Proofs.Assembly.Numbering
import Wasm.Proofs.Assembly.Realizes
import Wasm.Proofs.Assembly.Assembled
import Wasm.Proofs.Assembly.Built
import Wasm.Proofs.Assembly.Written
import Wasm.Proofs.Assembly.Oversized
import Wasm.Proofs.Assembly.Closure
import Wasm.Proofs.Assembly.Complete
import Wasm.Proofs.Assembly.Outcome
import Wasm.Proofs.Assembly.Renamed
import Wasm.Proofs.Assembly.Inserted
import Wasm.Proofs.Assembly.Scripted
import Wasm.Proofs.Assembly.Handles
import Wasm.Proofs.Assembly.Owned
import Wasm.Proofs.Assembly.Spared
import Wasm.Proofs.Assembly.Search
import Wasm.Proofs.Assembly.Content
import Wasm.Proofs.Assembly.Bodies
import Wasm.Proofs.Assembly.Sliced
import Wasm.Proofs.Assembly.Signatures
import Wasm.Proofs.Assembly.Mentions
import Wasm.Proofs.Assembly.Declared
import Wasm.Proofs.Assembly.Initialized
import Wasm.Proofs.Validation.Algorithm
import Wasm.Proofs.Validation.Follows
import Wasm.Proofs.Validation.Simple
import Wasm.Proofs.Validation.Step
import Wasm.Proofs.Validation.Sound
import Wasm.Proofs.Validation.Replay
import Wasm.Proofs.Validation.Known
import Wasm.Proofs.Validation.Granted
import Wasm.Proofs.Validation.Answers
import Wasm.Proofs.Validation.Leads
import Wasm.Proofs.Validation.Complete
