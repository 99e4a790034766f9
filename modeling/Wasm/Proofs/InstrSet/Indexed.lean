import Mathlib.Data.List.FinRange
import Wasm.Binary.Code
import Wasm.Proofs.Binary.Values
import Wasm.Proofs.InstrSet.Distinct

/-!
# Looking up instructions in an index

To search the whole list for each instruction is slow. An index is filled in one
pass over the definitions, one table for each kind of key, and a key that is
there already keeps its definition. So the index finds what a search from the
front finds, in any list: mnemonics and opcodes may be repeated, and a byte may
be an instruction of one definition and open a space for another, in any order.
-/

namespace Wasm

/-- Where the definitions of a list of `n` are found. The tables hold places in the list. -/
structure InstrIndex (n : Nat) where
  byName : Std.HashMap String (Fin n) := ∅
  byByte : Std.HashMap UInt8 (Fin n) := ∅
  byCode : Std.HashMap (UInt8 × UInt32) (Fin n) := ∅
  spaces : Std.HashSet UInt8 := ∅

/-- What a first opcode byte stands for. -/
inductive InstrIndex.Entry (n : Nat) where
  | instr (place : Fin n)
  /-- A code of this space follows. -/
  | space (byte : UInt8)

namespace InstrIndex

variable {n : Nat}

/-- Enters a definition. -/
def add (index : InstrIndex n) (place : Fin n) (d : InstrDef) : InstrIndex n :=
  let index := { index with byName := index.byName.insertIfNew d.name place }
  match d.opcode with
  | .single byte => { index with byByte := index.byByte.insertIfNew byte place }
  | .extended space code =>
    { index with
      spaces := index.spaces.insert space
      byCode := index.byCode.insertIfNew (space, code) place }

/-- What was found, or what is missing. -/
def answer {α : Type} (missing : LookupError) : Option α → Except LookupError α
  | some a => .ok a
  | none => .error missing

/-- The place of a mnemonic. -/
def named (index : InstrIndex n) (name : String) : Except LookupError (Fin n) :=
  answer (.unknownName name) index.byName[name]?

/-- What an opcode that starts with `byte` stands for. -/
def atByte (index : InstrIndex n) (byte : UInt8) : Except LookupError (Entry n) :=
  if byte ∈ index.spaces then .ok (.space byte)
  else (answer (.unknownByte byte) index.byByte[byte]?).map .instr

/-- The place of a code in a space. -/
def atCode (index : InstrIndex n) (space : UInt8) (code : UInt32) : Except LookupError (Fin n) :=
  answer (.unknownCode space code) index.byCode[(space, code)]?

/-- The place of the instruction whose first byte `byte` was read at `start`. -/
def decode (index : InstrIndex n) (start : Nat) (byte : UInt8) : Decoder (Fin n) :=
  match index.atByte byte with
  | .error e => Decoder.failAt start (.unknownInstruction e)
  | .ok (.instr place) => return place
  | .ok (.space space) => do
    let code ← Codec.u32.decode
    match index.atCode space code with
    | .error e => Decoder.failAt start (.unknownInstruction e)
    | .ok place => return place

/-- Reads an opcode. -/
def opcode (index : InstrIndex n) : Decoder (Fin n) := do
  let start ← Decoder.offset
  let byte ← Decoder.byte
  index.decode start byte

/-- The entry of a byte with the definition itself in place of where it stands. -/
def Entry.definition (defs : Fin n → InstrDef) : Entry n → OpcodeEntry
  | .instr place => .instr (defs place)
  | .space byte => .space byte

@[simp] theorem answer_eq_ok {α : Type} {missing : LookupError} {found : Option α} {a : α} :
    answer missing found = .ok a ↔ found = some a := by
  cases found <;> simp [answer]

@[simp] theorem answer_eq_error {α : Type} {missing e : LookupError} {found : Option α} :
    answer missing found = .error e ↔ found = none ∧ e = missing := by
  cases found <;> simp [answer, eq_comm]

theorem map_answer {α β : Type} {missing : LookupError} {found : Option α} {f : α → β} :
    (answer missing found).map f = answer missing (found.map f) := by
  cases found <;> rfl

/-- What is read behind the first byte: nothing, or a code. -/
theorem decode_eq_ok {index : InstrIndex n} {start : Nat} {byte : UInt8} {place : Fin n}
    {c c' : Cursor} : index.decode start byte c = .ok place c' ↔
      index.atByte byte = .ok (.instr place) ∧ c' = c ∨
        ∃ space code, index.atByte byte = .ok (.space space) ∧
          Codec.u32.decode c = .ok code c' ∧ index.atCode space code = .ok place := by
  rw [decode]
  cases answered : index.atByte byte with
  | error e => simp [Decoder.failAt]
  | ok entry =>
      cases entry with
      | instr found => simp [pure, EStateM.pure, eq_comm]
      | space space =>
          simp only [EStateM.bind_eq_ok, Except.ok.injEq, reduceCtorEq, false_and, false_or,
            InstrIndex.Entry.space.injEq]
          constructor
          · rintro ⟨code, c₁, read, result⟩
            cases located : index.atCode space code with
            | error e => simp [located, Decoder.failAt] at result
            | ok found =>
                simp only [located] at result
                cases result
                exact ⟨space, code, rfl, read, located⟩
          · rintro ⟨_, code, rfl, read, located⟩
            refine ⟨code, c', read, ?_⟩
            rw [located]
            rfl

/-! ## One pass -/

/-- The index of some places: for each key it has the first of them. -/
structure Covers (index : InstrIndex n) (defs : Fin n → InstrDef) (places : List (Fin n)) :
    Prop where
  byName : ∀ name, index.byName[name]? = places.find? fun place => (defs place).name == name
  byByte : ∀ byte,
    index.byByte[byte]? = places.find? fun place => (defs place).opcode == .single byte
  byCode : ∀ space code, index.byCode[(space, code)]? =
    places.find? fun place => (defs place).opcode == .extended space code
  spaces : ∀ byte, byte ∈ index.spaces ↔
    ∃ place ∈ places, (defs place).opcode.space? = some byte

theorem getElem?_insertIfNew_eq_or {κ ν : Type} [BEq κ] [LawfulBEq κ] [Hashable κ]
    {table : Std.HashMap κ ν} {key sought : κ} {value : ν} :
    (table.insertIfNew key value)[sought]? =
      table[sought]?.or (if key == sought then some value else none) := by
  rw [Std.HashMap.getElem?_insertIfNew]
  by_cases same : key = sought
  · subst same
    by_cases known : key ∈ table
    · simp [known]
    · simp [known]
  · simp [same]

theorem Covers.add {index : InstrIndex n} {defs : Fin n → InstrDef} {places : List (Fin n)}
    (h : index.Covers defs places) (place : Fin n) :
    (index.add place (defs place)).Covers defs (places ++ [place]) := by
  have named : ∀ name, (index.byName.insertIfNew (defs place).name place)[name]? =
      (places ++ [place]).find? fun place => (defs place).name == name := fun name => by
    rw [getElem?_insertIfNew_eq_or, List.find?_append, List.find?_singleton, h.byName]
  cases opcode : (defs place).opcode with
  | single b =>
      simp only [InstrIndex.add, opcode]
      refine ⟨named, fun byte => ?_, fun space code => ?_, fun byte => ?_⟩
      · simp [getElem?_insertIfNew_eq_or, h.byByte, opcode]
      · simp [h.byCode, opcode]
      · simp [h.spaces, opcode, Opcode.space?]
  | extended s c =>
      simp only [InstrIndex.add, opcode]
      refine ⟨named, fun byte => ?_, fun space code => ?_, fun byte => ?_⟩
      · simp [h.byByte, opcode]
      · simp [getElem?_insertIfNew_eq_or, h.byCode, opcode]
      · simp [h.spaces, opcode, Opcode.space?, or_comm]

theorem Covers.foldl {index : InstrIndex n} {defs : Fin n → InstrDef} {before : List (Fin n)}
    (h : index.Covers defs before) (places : List (Fin n)) :
    (places.foldl (fun index place => index.add place (defs place)) index).Covers defs
      (before ++ places) := by
  induction places generalizing index before with
  | nil => rwa [List.append_nil]
  | cons place places ih =>
      rw [List.append_cons]
      exact ih (h.add place)

theorem covers_empty {defs : Fin n → InstrDef} : ({} : InstrIndex n).Covers defs [] := by
  constructor <;> simp

end InstrIndex

namespace InstrSet

open Decoder

/-- The index of all definitions, entered from the front. -/
def index (set : InstrSet) : InstrIndex set.defs.length :=
  (List.finRange set.defs.length).foldl (fun index place => index.add place (set.defs.get place)) {}

theorem covers_index (set : InstrSet) :
    set.index.Covers set.defs.get (List.finRange set.defs.length) :=
  InstrIndex.covers_empty.foldl _

/-! ## Searching from the front -/

/-- The first place of a definition with the property. -/
def FirstAt (set : InstrSet) (P : InstrDef → Prop) (place : Fin set.defs.length) : Prop :=
  P (set.defs.get place) ∧ ∀ earlier < place, ¬P (set.defs.get earlier)

section

variable {set : InstrSet} {p : InstrDef → Bool} {P : InstrDef → Prop}

theorem find?_places_eq_some (test : ∀ d, p d = true ↔ P d) {place : Fin set.defs.length} :
    (List.finRange set.defs.length).find? (fun place => p (set.defs.get place)) = some place ↔
      set.FirstAt P place := by
  rw [← Fin.find?_eq_find?_finRange, Fin.find?_eq_some_iff, FirstAt]
  simp only [← test, Bool.not_eq_true]

theorem find?_places_eq_none (test : ∀ d, p d = true ↔ P d) :
    (List.finRange set.defs.length).find? (fun place => p (set.defs.get place)) = none ↔
      ∀ d ∈ set.defs, ¬P d := by
  rw [← Fin.find?_eq_find?_finRange, Fin.find?_eq_none_iff, List.forall_mem_iff_get]
  simp only [← test, Bool.not_eq_true]

/-- The definition that is found stands at the place that is found. -/
theorem find?_eq_map_places (set : InstrSet) (p : InstrDef → Bool) : set.defs.find? p =
    ((List.finRange set.defs.length).find? fun place => p (set.defs.get place)).map
      set.defs.get := by
  conv_lhs => rw [← List.map_get_finRange set.defs, List.find?_map]
  rfl

end

/-- A byte opens a space for some definition. -/
def Opens (set : InstrSet) (byte : UInt8) : Prop := ∃ d ∈ set.defs, d.opcode.space? = some byte

theorem atByte_of_opens {set : InstrSet} {byte : UInt8} (opens : set.Opens byte) :
    set.index.atByte byte = .ok (.space byte) := by
  obtain ⟨place, inside⟩ := List.exists_mem_iff_get.mp opens
  exact if_pos ((set.covers_index.spaces byte).mpr ⟨place, List.mem_finRange place, inside⟩)

theorem atByte_of_not_opens {set : InstrSet} {byte : UInt8} (closed : ¬set.Opens byte) :
    set.index.atByte byte = (InstrIndex.answer (.unknownByte byte) ((List.finRange _).find?
      fun place => (set.defs.get place).opcode == .single byte)).map .instr := by
  rw [InstrIndex.atByte, if_neg, set.covers_index.byByte]
  intro known
  obtain ⟨place, -, inside⟩ := (set.covers_index.spaces byte).mp known
  exact closed ⟨_, set.defs.get_mem place, inside⟩

/-! ## What the index answers -/

/-- No definition in front has the same opcode and, where the opcode is a byte,
no definition at all has this byte for its space. -/
structure OwnsOpcode (set : InstrSet) (place : Fin set.defs.length) : Prop where
  first : ∀ earlier < place, (set.defs.get earlier).opcode ≠ (set.defs.get place).opcode
  alone : ∀ byte, (set.defs.get place).opcode = .single byte → ¬set.Opens byte

/-- The index of a set answers what a search from the front answers: with the
first definition of a mnemonic or an opcode, unless the byte opens a space for
any definition, or with what is missing. An opcode that was written for a
definition leads back to it where the definition owns the opcode. -/
structure Indexed (set : InstrSet) : Prop where
  named_ok : ∀ {name place}, set.index.named name = .ok place ↔ set.FirstAt (·.name = name) place
  named_error : ∀ {name e}, set.index.named name = .error e ↔
    (∀ d ∈ set.defs, d.name ≠ name) ∧ e = .unknownName name
  atCode_ok : ∀ {space code place}, set.index.atCode space code = .ok place ↔
    set.FirstAt (·.opcode = .extended space code) place
  atCode_error : ∀ {space code e}, set.index.atCode space code = .error e ↔
    (∀ d ∈ set.defs, d.opcode ≠ .extended space code) ∧ e = .unknownCode space code
  atByte_space : ∀ {byte space}, set.index.atByte byte = .ok (.space space) ↔
    set.Opens byte ∧ space = byte
  atByte_instr : ∀ {byte place}, set.index.atByte byte = .ok (.instr place) ↔
    ¬set.Opens byte ∧ set.FirstAt (·.opcode = .single byte) place
  atByte_error : ∀ {byte e}, set.index.atByte byte = .error e ↔
    ¬set.Opens byte ∧ (∀ d ∈ set.defs, d.opcode ≠ .single byte) ∧ e = .unknownByte byte
  named_eq : ∀ name, set.named name = (set.index.named name).map set.defs.get
  atCode_eq : ∀ space code, set.atCode space code = (set.index.atCode space code).map set.defs.get
  atByte_eq : ∀ byte, set.atByte byte =
    (set.index.atByte byte).map (InstrIndex.Entry.definition set.defs.get)
  opcode_ok : ∀ {place offset rest id c'},
    set.index.opcode ⟨offset, (set.defs.get place).opcode.encode ++ rest, id⟩ = .ok place c' ↔
      set.OwnsOpcode place ∧ c' = ⟨offset + (set.defs.get place).opcode.encode.length, rest, id⟩

section

variable {set : InstrSet}

theorem index_named (name : String) : set.index.named name =
    InstrIndex.answer (.unknownName name) ((List.finRange _).find?
      fun place => (set.defs.get place).name == name) := by
  rw [InstrIndex.named, set.covers_index.byName]

theorem index_atCode (space : UInt8) (code : UInt32) : set.index.atCode space code =
    InstrIndex.answer (.unknownCode space code) ((List.finRange _).find?
      fun place => (set.defs.get place).opcode == .extended space code) := by
  rw [InstrIndex.atCode, set.covers_index.byCode]

theorem index_atCode_eq_ok {space : UInt8} {code : UInt32} {place : Fin set.defs.length} :
    set.index.atCode space code = .ok place ↔
      set.FirstAt (·.opcode = .extended space code) place := by
  rw [index_atCode, InstrIndex.answer_eq_ok, find?_places_eq_some fun _ => beq_iff_eq]

theorem index_atByte_eq_space {byte space : UInt8} :
    set.index.atByte byte = .ok (.space space) ↔ set.Opens byte ∧ space = byte := by
  by_cases opens : set.Opens byte
  · simp [atByte_of_opens opens, opens, eq_comm]
  · simp [atByte_of_not_opens opens, opens, Except.map_eq_ok]

theorem index_atByte_eq_instr {byte : UInt8} {place : Fin set.defs.length} :
    set.index.atByte byte = .ok (.instr place) ↔
      ¬set.Opens byte ∧ set.FirstAt (·.opcode = .single byte) place := by
  by_cases opens : set.Opens byte
  · simp [atByte_of_opens opens, opens]
  · rw [atByte_of_not_opens opens, ← find?_places_eq_some fun _ => beq_iff_eq]
    simp [opens, Except.map_eq_ok]

/-- A byte that is written for a definition may open a space when it is read,
but no code of a space is found at this definition. -/
theorem index_opcode_single {place : Fin set.defs.length} {byte : UInt8}
    (single : (set.defs.get place).opcode = .single byte) {offset : Nat} {rest : Bytes}
    {id : Option SectionId} {c' : Cursor} :
    set.index.opcode ⟨offset, byte :: rest, id⟩ = .ok place c' ↔
      (¬set.Opens byte ∧ set.FirstAt (·.opcode = .single byte) place) ∧
        c' = ⟨offset + 1, rest, id⟩ := by
  have noCode : ∀ space code, set.index.atCode space code ≠ .ok place := by
    intro space code located
    have extended : (set.defs.get place).opcode = .extended space code :=
      (index_atCode_eq_ok.mp located).1
    rw [single] at extended
    cases extended
  have first : set.index.opcode ⟨offset, byte :: rest, id⟩ =
    set.index.decode offset byte ⟨offset + 1, rest, id⟩ := rfl
  rw [first, InstrIndex.decode_eq_ok, index_atByte_eq_instr]
  simp only [noCode, and_false, exists_false, or_false]

theorem index_opcode_extended {place : Fin set.defs.length} {space : UInt8} {code : UInt32}
    (extended : (set.defs.get place).opcode = .extended space code) {offset : Nat} {rest : Bytes}
    {id : Option SectionId} {c' : Cursor} :
    set.index.opcode ⟨offset, space :: (Codec.u32.encode code ++ rest), id⟩ = .ok place c' ↔
      set.FirstAt (·.opcode = .extended space code) place ∧
        c' = ⟨offset + 1 + (Codec.u32.encode code).length, rest, id⟩ := by
  have opens : set.Opens space :=
    ⟨_, set.defs.get_mem place, by rw [extended, Opcode.space?]⟩
  have first : set.index.opcode ⟨offset, space :: (Codec.u32.encode code ++ rest), id⟩ =
    set.index.decode offset space ⟨offset + 1, Codec.u32.encode code ++ rest, id⟩ := rfl
  rw [first, InstrIndex.decode_eq_ok, Codec.reads_u32 code (offset + 1) rest id,
    atByte_of_opens opens, ← index_atCode_eq_ok]
  constructor
  · rintro (⟨instr, -⟩ | ⟨_, _, entry, read, located⟩)
    · cases instr
    · cases entry
      cases read
      exact ⟨located, rfl⟩
  · rintro ⟨located, rfl⟩
    exact .inr ⟨space, code, rfl, rfl, located⟩

theorem ownsOpcode_iff {place : Fin set.defs.length} : set.OwnsOpcode place ↔
    (∀ byte, (set.defs.get place).opcode = .single byte → ¬set.Opens byte) ∧
      set.FirstAt (·.opcode = (set.defs.get place).opcode) place :=
  ⟨fun h => ⟨h.alone, rfl, h.first⟩, fun h => ⟨h.2.2, h.1⟩⟩

end

theorem indexed (set : InstrSet) : set.Indexed where
  named_ok := by
    intro name place
    rw [index_named, InstrIndex.answer_eq_ok, find?_places_eq_some fun _ => beq_iff_eq]
  named_error := by
    intro name e
    rw [index_named, InstrIndex.answer_eq_error, find?_places_eq_none fun _ => beq_iff_eq]
  atCode_ok := index_atCode_eq_ok
  atCode_error := by
    intro space code e
    rw [index_atCode, InstrIndex.answer_eq_error, find?_places_eq_none fun _ => beq_iff_eq]
  atByte_space := index_atByte_eq_space
  atByte_instr := index_atByte_eq_instr
  atByte_error := by
    intro byte e
    by_cases opens : set.Opens byte
    · simp [atByte_of_opens opens, opens]
    · rw [atByte_of_not_opens opens, Except.map_eq_error, InstrIndex.answer_eq_error,
        find?_places_eq_none fun _ => beq_iff_eq]
      exact (and_iff_right opens).symm
  named_eq := by
    intro name
    rw [index_named, InstrIndex.map_answer, ← find?_eq_map_places set (·.name == name), named]
    cases set.defs.find? (·.name == name) <;> rfl
  atCode_eq := by
    intro space code
    rw [index_atCode, InstrIndex.map_answer,
      ← find?_eq_map_places set (·.opcode == .extended space code), atCode]
    cases set.defs.find? (·.opcode == .extended space code) <;> rfl
  atByte_eq := by
    intro byte
    have test : (set.defs.any (·.opcode.space? == some byte) = true) = set.Opens byte := by
      simp [Opens]
    rw [atByte]
    by_cases opens : set.Opens byte
    · rw [if_pos (test ▸ opens), atByte_of_opens opens]
      rfl
    · rw [if_neg (test ▸ opens), atByte_of_not_opens opens,
        find?_eq_map_places set (·.opcode == .single byte)]
      cases (List.finRange set.defs.length).find? fun place =>
        (set.defs.get place).opcode == .single byte <;> rfl
  opcode_ok := by
    intro place offset rest id c'
    rw [ownsOpcode_iff]
    cases opcode : (set.defs.get place).opcode with
    | single byte =>
        rw [Opcode.encode, List.singleton_append, index_opcode_single opcode, List.length_singleton]
        simp only [Opcode.single.injEq, forall_eq']
    | extended space code =>
        rw [Opcode.encode, List.cons_append, index_opcode_extended opcode, List.length_cons,
          Nat.add_right_comm, Nat.add_assoc]
        simp only [reduceCtorEq, false_implies, implies_true, true_and]

/-- What stands at the place that the index leads to. -/
theorem map_decode (set : InstrSet) (start : Nat) (byte : UInt8) :
    set.defs.get <$> set.index.decode start byte =
      (match set.atByte byte with
      | .error e => failAt start (.unknownInstruction e)
      | .ok (.instr d) => pure d
      | .ok (.space space) => do
        let code ← Codec.u32.decode
        match set.atCode space code with
        | .error e => failAt start (.unknownInstruction e)
        | .ok d => pure d) := by
  rw [(indexed set).atByte_eq, InstrIndex.decode]
  cases set.index.atByte byte with
  | error e => rfl
  | ok entry =>
      cases entry with
      | instr place => rfl
      | space space =>
          simp only [Except.map, InstrIndex.Entry.definition, map_bind, (indexed set).atCode_eq]
          refine congrArg _ (funext fun code => ?_)
          cases set.index.atCode space code <;> rfl

end InstrSet

/-- The decoder of code reads opcodes as with the index of the standard instructions. -/
theorem Decoder.definition_eq_index (start : Nat) (byte : UInt8) : definition start byte =
    InstrSet.standard.defs.get <$> InstrSet.standard.index.decode start byte := by
  have decoded := InstrSet.map_decode InstrSet.standard start byte
  revert decoded
  unfold definition
  -- The two agree for any set of instructions, so the standard one is not looked into.
  generalize InstrSet.standard = set
  exact fun decoded => decoded.symm

/-- The index of any list of definitions answers like a search from the front,
and code is decoded as with the index of the standard list. -/
theorem InstrSet.indexed_and_decoded : (∀ set : InstrSet, set.Indexed) ∧
    ∀ start byte, Decoder.definition start byte =
      InstrSet.standard.defs.get <$> InstrSet.standard.index.decode start byte :=
  ⟨indexed, Decoder.definition_eq_index⟩

end Wasm
