import Mathlib.Algebra.Group.Nat.Defs
import Mathlib.Data.List.Nodup
import Wasm.Bytes
import Wasm.InstrSet.Standard

/-!
# Mnemonics and opcodes are unambiguous

In the standard instruction set no two definitions share a mnemonic or an
opcode, and no byte is an instruction and opens a space as well. A look-up
therefore finds each definition by its own name and by its own opcode, and
not only the first one of several.
-/

namespace Wasm.InstrSet

/-- No look-up can confuse two definitions. -/
structure Unambiguous (set : InstrSet) : Prop where
  names : (set.defs.map (·.name)).Nodup
  opcodes : (set.defs.map (·.opcode)).Nodup
  /-- A byte that opens a space stands for no instruction. -/
  spaces : ∀ d ∈ set.defs, ∀ e ∈ set.defs, ∀ byte,
    d.opcode = .single byte → e.opcode.space? ≠ some byte

/-! ## Look-ups in an unambiguous set -/

theorem mem_of_named {set : InstrSet} {name : String} {d : InstrDef}
    (found : set.named name = .ok d) : d ∈ set.defs ∧ d.name = name := by
  unfold named at found
  split at found
  · rename_i e first
    cases found
    exact ⟨List.mem_of_find?_eq_some first, by simpa using List.find?_some first⟩
  · cases found

theorem mem_of_atByte {set : InstrSet} {byte : UInt8} {d : InstrDef}
    (found : set.atByte byte = .ok (.instr d)) : d ∈ set.defs ∧ d.opcode = .single byte := by
  unfold atByte at found
  split at found
  · cases found
  · split at found
    · rename_i e first
      cases found
      exact ⟨List.mem_of_find?_eq_some first, by simpa using List.find?_some first⟩
    · cases found

theorem eq_of_atByte {set : InstrSet} {byte space : UInt8}
    (found : set.atByte byte = .ok (.space space)) : space = byte := by
  unfold atByte at found
  split at found
  · cases found
    rfl
  · split at found <;> cases found

theorem mem_of_atCode {set : InstrSet} {space : UInt8} {code : UInt32} {d : InstrDef}
    (found : set.atCode space code = .ok d) : d ∈ set.defs ∧ d.opcode = .extended space code := by
  unfold atCode at found
  split at found
  · rename_i e first
    cases found
    exact ⟨List.mem_of_find?_eq_some first, by simpa using List.find?_some first⟩
  · cases found

/-- With distinct keys a search by key finds the member it is meant for. -/
theorem find?_of_nodup {α β : Type} [DecidableEq β] {items : List α} {key : α → β} {item : α}
    (distinct : (items.map key).Nodup) (member : item ∈ items) :
    items.find? (key · == key item) = some item := by
  have some : (items.find? (key · == key item)).isSome = true :=
    List.find?_isSome.mpr ⟨item, member, beq_self_eq_true _⟩
  obtain ⟨other, found⟩ := Option.isSome_iff_exists.mp some
  have same : key other = key item := by simpa using List.find?_some found
  rw [found, List.inj_on_of_nodup_map distinct (List.mem_of_find?_eq_some found) member same]

variable {set : InstrSet} {d : InstrDef}

theorem Unambiguous.named_of_mem (h : set.Unambiguous) (member : d ∈ set.defs) :
    set.named d.name = .ok d := by
  rw [named, find?_of_nodup h.names member]

theorem Unambiguous.atByte_of_single (h : set.Unambiguous) (member : d ∈ set.defs)
    {byte : UInt8} (opcode : d.opcode = .single byte) : set.atByte byte = .ok (.instr d) := by
  have noSpace : set.defs.any (·.opcode.space? == some byte) = false := by
    rw [List.any_eq_false]
    intro e other
    simpa using h.spaces d member e other byte opcode
  have found := find?_of_nodup h.opcodes member
  rw [opcode] at found
  rw [atByte, noSpace, found]
  rfl

theorem atByte_of_extended (member : d ∈ set.defs) {space : UInt8} {code : UInt32}
    (opcode : d.opcode = .extended space code) : set.atByte space = .ok (.space space) := by
  have opens : set.defs.any (·.opcode.space? == some space) = true :=
    List.any_eq_true.mpr ⟨d, member, by simp [opcode, Opcode.space?]⟩
  rw [atByte, if_pos opens]

theorem Unambiguous.atCode_of_extended (h : set.Unambiguous) (member : d ∈ set.defs)
    {space : UInt8} {code : UInt32} (opcode : d.opcode = .extended space code) :
    set.atCode space code = .ok d := by
  have found := find?_of_nodup h.opcodes member
  rw [opcode] at found
  rw [atCode, found]

/-! ## A test for distinct keys

Comparing all pairs of a few hundred definitions is slow, so the keys are
put one after the other into a set of numbers, which is itself a number: the
one whose bits at the members are set.
-/

/-- Whether the keys are pairwise different and not in the set `seen`. -/
def allNew : (keys : List Nat) → (seen : Nat) → Bool
  | [], _ => true
  | key :: rest, seen => !seen.testBit key && allNew rest (seen ||| 2 ^ key)

theorem nodup_of_allNew {keys : List Nat} {seen : Nat} (new : allNew keys seen = true) :
    keys.Nodup ∧ ∀ key ∈ keys, seen.testBit key = false := by
  induction keys generalizing seen with
  | nil => simp
  | cons key rest ih =>
      simp only [allNew, Bool.and_eq_true, Bool.not_eq_true'] at new
      obtain ⟨distinct, others⟩ := ih new.2
      simp only [Nat.testBit_or, Nat.testBit_two_pow, Bool.or_eq_false_iff,
        decide_eq_false_iff_not] at others
      refine ⟨List.nodup_cons.mpr ⟨fun again => (others key again).2 rfl, distinct⟩, ?_⟩
      intro other member
      rcases List.mem_cons.mp member with rfl | later
      · exact new.1
      · exact (others other later).1

/-- Distinct keys belong to distinct items. -/
theorem nodup_of_keys {α : Type} {items : List α} (key : α → Nat)
    (new : allNew (items.map key) 0 = true) : items.Nodup :=
  List.Nodup.of_map key (nodup_of_allNew new).1

/-! ## The standard set -/

/-- The bytes of a mnemonic as one number, cut down to a modulus that still
tells the mnemonics of the standard set apart. -/
def nameKey (name : String) : Nat := Bytes.toNatLE name.toByteArray.data.toList % 20025

/-- An opcode as one number; the spaces of the standard set are the last ones. -/
def opcodeKey : Opcode → Nat
  | .single byte => byte.toNat
  | .extended space code => 512 * (space.toNat - 0xFB) + code.toNat

/-- Whether an opcode is a byte below the spaces, or lies in one of these. -/
def isRegular : Opcode → Bool
  | .single byte => byte < Opcode.miscSpace
  | .extended space _ => Opcode.miscSpace ≤ space

/-- The keys are computed once for the whole set. -/
theorem standard_keys : allNew ((standard.defs.map (·.name)).map nameKey) 0 = true ∧
    allNew ((standard.defs.map (·.opcode)).map opcodeKey) 0 = true ∧
    standard.defs.all (isRegular ·.opcode) = true := by
  decide +kernel

theorem standard_names : (standard.defs.map (·.name)).Nodup :=
  nodup_of_keys nameKey standard_keys.1

theorem standard_opcodes : (standard.defs.map (·.opcode)).Nodup :=
  nodup_of_keys opcodeKey standard_keys.2.1

theorem standard_isRegular : ∀ d ∈ standard.defs, isRegular d.opcode = true :=
  List.all_eq_true.mp standard_keys.2.2

theorem standard_unambiguous : standard.Unambiguous where
  names := standard_names
  opcodes := standard_opcodes
  spaces := by
    intro d member e other byte single opens
    have below := standard_isRegular d member
    have above := standard_isRegular e other
    cases opcode : e.opcode with
    | single => simp [opcode, Opcode.space?] at opens
    | extended space code =>
        simp only [opcode, Opcode.space?, Option.some.injEq] at opens
        subst opens
        simp only [single, opcode, isRegular, decide_eq_true_eq, UInt8.lt_iff_toNat_lt,
          UInt8.le_iff_toNat_le] at below above
        omega

end Wasm.InstrSet

namespace Wasm

/-! ## Mnemonics of code -/

mutual

/-- The mnemonics in the bodies of a structured instruction, at any depth. -/
def Immediate.mnemonics : Immediate → List String
  | .block _ body => Instr.mnemonics body
  | .ifThen _ thenBody => Instr.mnemonics thenBody
  | .ifElse _ thenBody elseBody => Instr.mnemonics thenBody ++ Instr.mnemonics elseBody
  | _ => []

/-- The mnemonics of code, at any depth. -/
def Instr.mnemonics : List Instr → List String
  | [] => []
  | .mk name immediate :: rest => name :: (immediate.mnemonics ++ Instr.mnemonics rest)

end

/-- The instruction set has a definition for the mnemonic. -/
def InstrSet.Knows (name : String) : Prop := ∃ d, standard.named name = .ok d

end Wasm
