import Wasm.Proofs.Binary.Writable

/-!
# What keeps a module from being written

A module can be built with mnemonics that the instruction set does not know
and with a number of data segments that is not the right one. All these faults
are listed here in the order in which the encoder comes by them: code section
by code section, in a section item by item, and in code each instruction before
its bodies. The encoder fails if the list is not empty, and then with its head.
-/

namespace Wasm

open Except

/-! ## Unknown mnemonics -/

namespace InstrSet

instance (name : String) : Decidable (Knows name) :=
  match found : standard.named name with
  | .ok d => isTrue ⟨d, found⟩
  | .error _ => isFalse fun ⟨_, known⟩ => nomatch found.symm.trans known

/-- The failed look-ups among these, in their order. -/
def unknown (names : List String) : List LookupError :=
  (names.filter fun name => ¬Knows name).map .unknownName

theorem unknown_append (names others : List String) :
    unknown (names ++ others) = unknown names ++ unknown others := by
  rw [unknown, List.filter_append, List.map_append, unknown, unknown]

theorem unknown_cons (name : String) (names : List String) :
    unknown (name :: names) = unknown [name] ++ unknown names :=
  unknown_append [name] names

theorem unknown_flatMap {α : Type} (items : List α) (names : α → List String) :
    unknown (items.flatMap names) = items.flatMap fun a => unknown (names a) := by
  simp only [unknown, List.filter_flatMap, List.map_flatMap]

theorem unknown_ne_nil {names : List String} :
    unknown names ≠ [] ↔ ∃ name ∈ names, ¬Knows name := by
  simp [unknown]

theorem reports_named (name : String) : (standard.named name).Reports (unknown [name]) := by
  by_cases known : Knows name
  · obtain ⟨d, found⟩ := known
    have none : unknown [name] = [] := by simp [unknown, show Knows name from ⟨d, found⟩]
    rw [found, none]
    exact .done d
  · have one : unknown [name] = [.unknownName name] := by simp [unknown, known]
    rw [one, named]
    cases found : standard.defs.find? (·.name == name) with
    | none => exact .failed _ []
    | some d =>
        absurd known
        exact ⟨d, by rw [named, found]⟩

end InstrSet

/-! ## Code -/

mutual

theorem Immediate.reports_encode : (immediate : Immediate) →
    immediate.encode.Reports (InstrSet.unknown immediate.mnemonics)
  | .block type body => by
      rw [Immediate.encode, Immediate.mnemonics]
      exact (Instr.reports_encodeAll body).bind_pure _
  | .ifThen type thenBody => by
      rw [Immediate.encode, Immediate.mnemonics]
      exact (Instr.reports_encodeAll thenBody).bind_pure _
  | .ifElse type thenBody elseBody => by
      rw [Immediate.encode, Immediate.mnemonics, InstrSet.unknown_append]
      apply (Instr.reports_encodeAll thenBody).bind
      intro bytes
      exact (Instr.reports_encodeAll elseBody).bind_pure _
  | .none | .i32 _ | .i64 _ | .f32 _ | .f64 _ | .v128 _ | .index _ | .indexPair _ _ | .memArg _
  | .lane _ | .shuffle _ | .brTable _ _ | .callIndirect _ _ | .valTypes _ | .refType _
  | .reserved => .done _

/-- Code is written in the order in which it stands: an instruction before its
bodies, and what follows behind them. -/
theorem Instr.reports_encodeAll : (code : List Instr) →
    (Instr.encodeAll code).Reports (InstrSet.unknown (Instr.mnemonics code))
  | [] => .done []
  | .mk name immediate :: rest => by
      have first : (Instr.encode (.mk name immediate)).Reports
          (InstrSet.unknown (name :: immediate.mnemonics)) := by
        rw [Instr.encode, InstrSet.unknown_cons]
        apply (InstrSet.reports_named name).bind
        intro definition
        exact (Immediate.reports_encode immediate).bind_pure _
      rw [Instr.encodeAll, Instr.mnemonics, ← List.cons_append, InstrSet.unknown_append]
      apply first.bind
      intro bytes
      exact (Instr.reports_encodeAll rest).bind_pure _

end

theorem reports_encodeExpr (code : List Instr) :
    (encodeExpr code).Reports (InstrSet.unknown (Instr.mnemonics code)) :=
  (Instr.reports_encodeAll code).bind_pure _

/-! ## Items with code -/

/-- The unknown mnemonics of several pieces of code. -/
def unknownIn (codes : List (List Instr)) : List LookupError :=
  InstrSet.unknown (codes.flatMap Instr.mnemonics)

theorem unknownIn_append (codes others : List (List Instr)) :
    unknownIn (codes ++ others) = unknownIn codes ++ unknownIn others := by
  rw [unknownIn, List.flatMap_append, InstrSet.unknown_append, unknownIn, unknownIn]

theorem unknownIn_flatMap {α : Type} (items : List α) (codes : α → List (List Instr)) :
    unknownIn (items.flatMap codes) = items.flatMap fun a => unknownIn (codes a) := by
  rw [unknownIn, List.flatMap_assoc, InstrSet.unknown_flatMap]
  rfl

theorem unknownIn_ne_nil {codes : List (List Instr)} : unknownIn codes ≠ [] ↔
    ∃ code ∈ codes, ∃ name ∈ Instr.mnemonics code, ¬InstrSet.Knows name := by
  rw [unknownIn, InstrSet.unknown_ne_nil]
  simp only [List.mem_flatMap]
  constructor
  · rintro ⟨name, ⟨code, member, inside⟩, unknown⟩
    exact ⟨code, member, name, inside, unknown⟩
  · rintro ⟨code, member, name, inside, unknown⟩
    exact ⟨name, ⟨code, member, inside⟩, unknown⟩

theorem unknownIn_singleton (code : List Instr) :
    unknownIn [code] = InstrSet.unknown (Instr.mnemonics code) := by
  rw [unknownIn, List.flatMap_singleton]

theorem Global.reports_encode (g : Global) : g.encode.Reports (unknownIn [g.init]) := by
  rw [Global.encode, unknownIn_singleton]
  exact (reports_encodeExpr g.init).bind_pure _

theorem reports_encodeExprs (codes : List (List Instr)) :
    (encodeExprs codes).Reports (unknownIn codes) := by
  rw [encodeExprs, unknownIn, InstrSet.unknown_flatMap]
  exact (Reports.mapM codes reports_encodeExpr).bind_pure _

/-- The offset of a segment comes before its entries. -/
theorem ElementSegment.reports_encode (segment : ElementSegment) :
    segment.encode.Reports (unknownIn (segment.mode.offset ++ segment.init)) := by
  have entries (header : Bytes) : (do
      let entries ← encodeExprs segment.init
      return header ++ entries).Reports (unknownIn segment.init) :=
    (reports_encodeExprs segment.init).bind_pure _
  rw [ElementSegment.encode, unknownIn_append]
  cases segment.mode with
  | active tableIndex start =>
      rw [ElementMode.offset, unknownIn_singleton]
      apply (reports_encodeExpr start).bind
      intro bytes
      split <;> exact entries _
  | passive | declarative => exact entries _

theorem DataSegment.reports_encode (segment : DataSegment) :
    segment.encode.Reports (unknownIn segment.mode.offset) := by
  rw [DataSegment.encode]
  cases segment.mode with
  | active memoryIndex start =>
      rw [DataMode.offset, unknownIn_singleton, ← List.append_nil (InstrSet.unknown _)]
      apply (reports_encodeExpr start).bind
      intro bytes
      split <;> exact .done _
  | passive => exact .done _

theorem Func.reports_encodeBody (f : Func) : f.encodeBody.Reports (unknownIn [f.body]) := by
  rw [Func.encodeBody, unknownIn_singleton]
  exact (reports_encodeExpr f.body).bind_pure _

/-! ## Modules -/

theorem reports_codeSection {α : Type} (kind : SectionKind) {encode : α → Except LookupError Bytes}
    {codes : α → List (List Instr)} (items : List α)
    (each : ∀ a, (encode a).Reports (unknownIn (codes a))) :
    (Module.codeSection kind encode items).Reports
      ((unknownIn (items.flatMap codes)).map EncodeError.unknownInstruction) := by
  rw [Module.codeSection, unknownIn_flatMap]
  by_cases empty : items = []
  · subst empty
    exact .done []
  · rw [if_neg (by simpa using empty)]
    exact ((Reports.mapM items each).mapError EncodeError.unknownInstruction).bind_pure _

namespace Module

/-- A stated number of data segments that is wrong. -/
def countFault (m : Module) : List EncodeError :=
  match m.dataCount with
  | some count => if count.toNat = m.data.length then []
    else [.dataCountMismatch count m.data.length]
  | none => []

theorem countFault_ne_nil {m : Module} :
    m.countFault ≠ [] ↔ ∃ count, m.dataCount = some count ∧ count.toNat ≠ m.data.length := by
  cases stated : m.dataCount with
  | none => simp [countFault, stated]
  | some count => simp [countFault, stated]

theorem reports_dataCountSection (m : Module) : m.dataCountSection.Reports m.countFault := by
  rw [dataCountSection, countFault]
  cases m.dataCount with
  | none => exact .done []
  | some count =>
      by_cases right : count.toNat = m.data.length
      · simp only [if_pos right]
        exact .done _
      · simp only [if_neg right]
        exact .failed _ []

/-- The code that is written before the number of data segments. -/
def earlyCode (m : Module) : List (List Instr) :=
  m.globals.map (·.init) ++
    m.elements.flatMap fun segment => segment.mode.offset ++ segment.init

/-- The code that is written behind the number of data segments. -/
def lateCode (m : Module) : List (List Instr) :=
  m.funcs.map (·.body) ++ m.data.flatMap fun segment => segment.mode.offset

theorem mem_code_iff {m : Module} {code : List Instr} :
    code ∈ m.code ↔ code ∈ m.earlyCode ∨ code ∈ m.lateCode := by
  simp only [Module.code, earlyCode, lateCode, List.mem_append]
  constructor
  · rintro (((body | init) | element) | data)
    · exact .inr (.inl body)
    · exact .inl (.inl init)
    · exact .inl (.inr element)
    · exact .inr (.inr data)
  · rintro ((init | element) | (body | data))
    · exact .inl (.inl (.inr init))
    · exact .inl (.inr element)
    · exact .inl (.inl (.inl body))
    · exact .inr data

/-- All faults of a module, in the order of its binary form. -/
def faults (m : Module) : List EncodeError :=
  (unknownIn m.earlyCode).map EncodeError.unknownInstruction ++ m.countFault ++
    (unknownIn m.lateCode).map EncodeError.unknownInstruction

theorem faults_ne_nil {m : Module} : m.faults ≠ [] ↔
    (∃ code ∈ m.code, ∃ name ∈ Instr.mnemonics code, ¬InstrSet.Knows name) ∨
      ∃ count, m.dataCount = some count ∧ count.toNat ≠ m.data.length := by
  rw [faults, ne_eq, List.append_eq_nil_iff, List.append_eq_nil_iff, List.map_eq_nil_iff,
    List.map_eq_nil_iff, not_and_or, not_and_or, ← ne_eq, ← ne_eq, ← ne_eq, unknownIn_ne_nil,
    countFault_ne_nil, unknownIn_ne_nil]
  simp only [mem_code_iff, or_and_right, exists_or]
  exact or_right_comm

/-- The sections that cannot fail are left out here: they add no faults. -/
theorem reports_encode (m : Module) : m.encode.Reports m.faults := by
  have globals := reports_codeSection .globals m.globals Global.reports_encode
  have elements := reports_codeSection .elements m.elements ElementSegment.reports_encode
  have code := reports_codeSection .code m.funcs Func.reports_encodeBody
  have data := reports_codeSection .data m.data DataSegment.reports_encode
  rw [← List.map_eq_flatMap] at globals code
  rw [encode, faults, earlyCode, lateCode]
  simp only [unknownIn_append, List.map_append, List.append_assoc]
  apply globals.bind
  intro globalBytes
  apply elements.bind
  intro elementBytes
  apply m.reports_dataCountSection.bind
  intro countBytes
  apply code.bind
  intro codeBytes
  exact data.bind_pure _

/-- A module cannot be written exactly if some mnemonic in its code is unknown
or the number of data segments that it states is wrong. The error is about the
fault that comes first in the binary form. -/
theorem encode_eq_error_iff (m : Module) :
    ((∃ e, m.encode = .error e) ↔
      (∃ code ∈ m.code, ∃ name ∈ Instr.mnemonics code, ¬InstrSet.Knows name) ∨
        ∃ count, m.dataCount = some count ∧ count.toNat ≠ m.data.length) ∧
      ∀ e, m.encode = .error e ↔ m.faults.head? = some e := by
  have reports := m.reports_encode
  constructor
  · rw [reports.exists_error_iff, faults_ne_nil]
  · intro e
    exact reports.eq_error_iff

/-- The number of data segments is looked at before the functions, and an
instruction before its bodies. -/
example :
    let body : List Instr := [.mk "unless" (.ifElse .empty [.plain "i32.inc"] [.plain "i32.dec"])]
    let m : Module := { dataCount := some 1, funcs := [{ typeIndex := 0, locals := [], body }] }
    m.faults = [.dataCountMismatch 1 0, .unknownInstruction (.unknownName "unless"),
      .unknownInstruction (.unknownName "i32.inc"),
      .unknownInstruction (.unknownName "i32.dec")] := by
  decide +kernel

end Module

end Wasm
