import Wasm.Proofs.Binary.Image

/-!
# What is decoded and can be written again

The encoder fails for two reasons: a mnemonic that the instruction set does
not know, and a number of data segments that is not the one stated. The
decoder rules out the first one, at every depth of all code. It takes a stated
number as it is, so the second one remains, and nothing else.
-/

namespace Wasm

/-! ## Code of a module -/

/-- The code that says where an active segment starts. -/
def ElementMode.offset : ElementMode → List (List Instr)
  | .active _ start => [start]
  | .passive | .declarative => []

def DataMode.offset : DataMode → List (List Instr)
  | .active _ start => [start]
  | .passive => []

/-- All code of a module: bodies of functions, initial values and offsets. -/
def Module.code (m : Module) : List (List Instr) :=
  m.funcs.map (·.body) ++ m.globals.map (·.init) ++
    m.elements.flatMap (fun segment => segment.mode.offset ++ segment.init) ++
    m.data.flatMap fun segment => segment.mode.offset

mutual

theorem Immediate.knows_mnemonics : (depth : Nat) → (immediate : Immediate) →
    immediate.Representable depth → ∀ name ∈ immediate.mnemonics, InstrSet.Knows name
  | depth, .block _ body, rep => by
      rw [Immediate.mnemonics]
      exact Instr.knows_mnemonics (depth + 1) body rep.2
  | depth, .ifThen _ thenBody, rep => by
      rw [Immediate.mnemonics]
      exact Instr.knows_mnemonics (depth + 1) thenBody rep.2
  | depth, .ifElse _ thenBody elseBody, rep => by
      obtain ⟨-, repThen, repElse⟩ := rep
      rw [Immediate.mnemonics]
      exact List.forall_mem_append.mpr ⟨Instr.knows_mnemonics (depth + 1) thenBody repThen,
        Instr.knows_mnemonics (depth + 1) elseBody repElse⟩
  | _, .none, _ | _, .i32 _, _ | _, .i64 _, _ | _, .f32 _, _ | _, .f64 _, _ | _, .v128 _, _
  | _, .index _, _ | _, .indexPair _ _, _ | _, .memArg _, _ | _, .lane _, _ | _, .shuffle _, _
  | _, .brTable _ _, _ | _, .callIndirect _ _, _ | _, .valTypes _, _ | _, .refType _, _
  | _, .reserved, _ => by simp [Immediate.mnemonics]

/-- Representable code holds known mnemonics only. -/
theorem Instr.knows_mnemonics : (depth : Nat) → (code : List Instr) →
    Instr.AllRepresentable depth code → ∀ name ∈ Instr.mnemonics code, InstrSet.Knows name
  | _, [], _ => by
      rw [Instr.mnemonics]
      exact List.forall_mem_nil _
  | depth, .mk name immediate :: rest, rep => by
      obtain ⟨⟨⟨d, found, -⟩, inner⟩, others⟩ := rep
      rw [Instr.mnemonics]
      exact List.forall_mem_cons.mpr ⟨⟨d, found⟩, List.forall_mem_append.mpr
        ⟨Immediate.knows_mnemonics depth immediate inner,
          Instr.knows_mnemonics depth rest others⟩⟩

end

/-- In a module whose items are representable all code is. -/
theorem Module.ItemsRepresentable.code {m : Module} (rep : m.ItemsRepresentable) :
    ∀ code ∈ m.code, RepresentableExpr code := by
  intro code member
  simp only [Module.code, List.mem_append, List.mem_map, List.mem_flatMap] at member
  rcases member with ((⟨f, inside, rfl⟩ | ⟨g, inside, rfl⟩) | ⟨segment, inside, part⟩) |
    ⟨segment, inside, part⟩
  · exact (rep.funcs f inside).body
  · exact rep.globals g inside
  · have own := rep.elements segment inside
    rcases part with offset | entry
    · have mode := own.mode
      cases place : segment.mode <;> rw [place] at mode offset
      case active => exact List.mem_singleton.mp offset ▸ mode
      all_goals cases offset
    · exact own.init code entry
  · have mode := rep.data segment inside
    cases place : segment.mode <;> rw [place] at mode part
    case active => exact List.mem_singleton.mp part ▸ mode
    case passive => cases part

/-! ## Writing -/

/-- Only the stated number of data segments can keep a representable module
from being written. -/
theorem Module.encode_eq_error {m : Module} {e : EncodeError} (rep : m.ItemsRepresentable)
    (failed : m.encode = .error e) : ∃ count, m.dataCount = some count ∧
      count.toNat ≠ m.data.length ∧ e = .dataCountMismatch count m.data.length := by
  obtain ⟨globals, encodedGlobals, -⟩ := adds_globals rep
  obtain ⟨elements, encodedElements, -⟩ := adds_elements rep
  obtain ⟨code, encodedCode, -⟩ := adds_code rep
  obtain ⟨data, encodedData, -⟩ := adds_data rep
  rw [Module.encode, encodedGlobals, encodedElements, encodedCode, encodedData] at failed
  cases counted : m.dataCountSection with
  | ok dataCount =>
      rw [counted] at failed
      cases failed
  | error e' =>
      rw [counted] at failed
      cases failed
      rw [dataCountSection] at counted
      split at counted
      · rename_i count stated
        split at counted
        · cases counted
        · rename_i wrong
          cases counted
          exact ⟨count, stated, wrong, rfl⟩
      · cases counted

/-- In a decoded module every mnemonic is known, at any depth of any code. The
module can be written exactly if the number of data segments that it states is
right, and this number is all that an error can be about. -/
theorem Module.encode_of_decode {input : Bytes} {m : Module}
    (decoded : Module.decode input = .ok m) :
    (∀ code ∈ m.code, ∀ name ∈ Instr.mnemonics code, InstrSet.Knows name) ∧
      ((∃ bytes, m.encode = .ok bytes) ↔ m.DataCountRight) ∧
      ∀ e, m.encode = .error e → ∃ count, m.dataCount = some count ∧
        count.toNat ≠ m.data.length ∧ e = .dataCountMismatch count m.data.length := by
  have rep := representable_of_decode decoded
  refine ⟨fun code member => Instr.knows_mnemonics 0 code (rep.code code member), ⟨?_, ?_⟩,
    fun e failed => Module.encode_eq_error rep failed⟩
  · rintro ⟨bytes, encoded⟩
    exact dataCountRight_of_encode encoded
  · intro right
    obtain ⟨content, encoded, -⟩ := m.encode_sections rep right
    exact ⟨_, encoded⟩

/-- One data segment, and the number one stated before it. -/
theorem Module.encode_of_decode_counted :
    let lead := magic ++ Bytes.littleEndian 4 formatVersion.toNat
    let m : Module := { dataCount := some 1, data := [{ mode := .passive, init := [7] }] }
    Module.decode (lead ++ [12, 1, 1, 11, 4, 1, 1, 1, 7]) = .ok m ∧
      ∃ bytes, m.encode = .ok bytes := by
  intro lead m
  have decoded : Module.decode (lead ++ [12, 1, 1, 11, 4, 1, 1, 1, 7]) = .ok m := by rfl
  refine ⟨decoded, (Module.encode_of_decode decoded).2.1.mpr ?_⟩
  rintro count ⟨⟩
  rfl

/-- The number one can be stated with no data segment behind it. -/
theorem Module.not_forall_encode_of_decode : ¬∀ (input : Bytes) (m : Module),
    Module.decode input = .ok m → ∃ bytes, m.encode = .ok bytes := by
  intro writable
  have decoded : Module.decode (magic ++ Bytes.littleEndian 4 formatVersion.toNat ++ [12, 1, 1]) =
      .ok { dataCount := some 1 } := by rfl
  obtain ⟨bytes, encoded⟩ := writable _ _ decoded
  cases encoded

end Wasm
