import Wasm.Proofs.Binary.Items

/-!
# Modules are read back

The loop over the sections is followed with a relation that composes: some
bytes, read as sections, lead from the contents read before to the contents
read afterwards. Each section of a module adds one field or nothing, and the
places in the wire order only ever grow.
-/

namespace Wasm

open Decoder

/-! ## The loop over sections -/

/-- Reading `bytes` as whole sections takes the contents `s` to `s'`, with one
unit of fuel a section. -/
def ReadsSections (bytes : Bytes) (s s' : SectionContents) : Prop :=
  ∃ n ≤ bytes.length, ∀ (fuel offset : Nat) (rest : Bytes) (id : Option SectionId),
    sections (fuel + n) s ⟨offset, bytes ++ rest, id⟩ =
      sections fuel s' ⟨offset + bytes.length, rest, id⟩

theorem ReadsSections.nil (s : SectionContents) : ReadsSections [] s s :=
  ⟨0, Nat.le_refl 0, fun _ _ _ _ => rfl⟩

theorem ReadsSections.append {bytes₁ bytes₂ : Bytes} {s s₁ s₂ : SectionContents}
    (first : ReadsSections bytes₁ s s₁) (second : ReadsSections bytes₂ s₁ s₂) :
    ReadsSections (bytes₁ ++ bytes₂) s s₂ := by
  obtain ⟨n₁, few₁, h₁⟩ := first
  obtain ⟨n₂, few₂, h₂⟩ := second
  refine ⟨n₂ + n₁, by rw [List.length_append]; omega, ?_⟩
  intro fuel offset rest id
  rw [← Nat.add_assoc, List.append_assoc, h₁, h₂, List.length_append, Nat.add_assoc]

/-- One section. -/
theorem ReadsSections.single {bytes : Bytes} {s s' : SectionContents} (nonempty : bytes ≠ [])
    (h : Reads (nextSection s) bytes s') : ReadsSections bytes s s' := by
  have positive := List.length_pos_iff.mpr nonempty
  refine ⟨1, positive, ?_⟩
  intro fuel offset rest id
  have there : Bytes.hasAtLeast 1 (bytes ++ rest) = true := by
    rw [Bytes.hasAtLeast_iff, List.length_append]
    omega
  rw [sections, hasAtLeast_bind, there, if_pos rfl, bind_ok (h offset rest id)]

/-- At the end of the input the loop returns what it has. -/
theorem sections_end (fuel offset : Nat) (s : SectionContents) (id : Option SectionId) :
    sections (fuel + 1) s ⟨offset, [], id⟩ = .ok s ⟨offset, [], id⟩ := rfl

/-! ## One section -/

theorem kind?_id (kind : SectionKind) : SectionId.kind? kind.id = some kind := by
  cases kind <;> rfl

theorem order_id (kind : SectionKind) : SectionId.order kind.id = kind.order := by
  cases kind <;> rfl

/-- A section passes the check of the order behind sections of earlier places. -/
theorem checkOrder_of_lt {kind : SectionKind} {before : UInt8} (ordered : kind ≠ .custom)
    (earlier : before < kind.order) {s : SectionContents} (start : Nat) :
    checkOrder start kind.id { s with lastOrder := before } =
      pure { s with lastOrder := kind.order } := by
  -- Custom sections alone pass it wherever they stand.
  have notCustom : kind.id ≠ SectionKind.custom.id := by
    revert ordered
    cases kind <;> decide
  rw [checkOrder, if_neg notCustom, order_id, if_neg (UInt8.not_le.mpr earlier)]

/-- The content of a section is shorter than the section. -/
theorem length_content_lt {id : SectionId} {content : Bytes}
    (size : (encodeSection id content).length < 2 ^ 32) : content.length < 2 ^ 32 := by
  simp only [encodeSection, Codec.byteVector, List.length_cons, List.length_append] at size
  omega

/-- A section that may stand where it does is read by the reader of its kind,
however its size is spelt. -/
theorem reads_section {kind : SectionKind} {size content : Bytes} {s s₁ s' : SectionContents}
    (placed : ∀ start, checkOrder start kind.id s = pure s₁) (small : content.length < 2 ^ 32)
    (sized : Reads Codec.u32.decode size (UInt32.ofNat content.length))
    (h : ReadsAll (sectionContent s₁ kind) content s') :
    Reads (nextSection s) (kind.id :: (size ++ content)) s' := by
  have toNat := UInt32.toNat_ofNat_of_lt' small
  refine Reads.atOffset fun start => Reads.byteBind ?_
  refine Reads.bind sized (Reads.atLeast (by rw [toNat]) ?_)
  rw [if_pos rfl, placed, pure_bind, kind?_id, toNat]
  exact Reads.within h

/-- The same for a section as it is written. -/
theorem reads_nextSection {kind : SectionKind} {content : Bytes} {s s₁ s' : SectionContents}
    (placed : ∀ start, checkOrder start kind.id s = pure s₁)
    (size : (encodeSection kind.id content).length < 2 ^ 32)
    (h : ReadsAll (sectionContent s₁ kind) content s') :
    Reads (nextSection s) (encodeSection kind.id content) s' :=
  reads_section placed (length_content_lt size) (Codec.reads_u32 _) h

/-- `bytes` hold a section of the kind, or nothing, and take `s` to `s'`
wherever the section may stand. -/
def Adds (kind : SectionKind) (bytes : Bytes) (s s' : SectionContents) : Prop :=
  ∀ before < kind.order, ∃ after ≤ kind.order,
    ReadsSections bytes { s with lastOrder := before } { s' with lastOrder := after }

theorem Adds.nothing (kind : SectionKind) (s : SectionContents) : Adds kind [] s s :=
  fun before earlier => ⟨before, UInt8.le_of_lt earlier, ReadsSections.nil _⟩

/-- The reader of a kind of section puts what `d` reads into a field of the
contents, whatever the place in the order. -/
def Stores {β : Type} (kind : SectionKind) (d : Decoder β)
    (field : SectionContents → β → SectionContents) : Prop :=
  ∀ s place, sectionContent { s with lastOrder := place } kind =
    (do let value ← d; return { field s value with lastOrder := place })

section Fields

variable {β : Type} {kind : SectionKind} {d : Decoder β} {s : SectionContents}

theorem Adds.single {content : Bytes} {value : β} (field : SectionContents → β → SectionContents)
    (stores : Stores kind d field) (ordered : kind ≠ .custom)
    (size : (encodeSection kind.id content).length < 2 ^ 32) (h : Reads d content value) :
    Adds kind (encodeSection kind.id content) s (field s value) := by
  intro before earlier
  have read : ReadsAll (sectionContent { s with lastOrder := kind.order } kind) content
      { field s value with lastOrder := kind.order } := by
    rw [stores]
    exact h.bindPure.all
  refine ⟨kind.order, UInt8.le_refl _, ReadsSections.single (List.cons_ne_nil _ _) ?_⟩
  exact reads_nextSection (checkOrder_of_lt ordered earlier) size read

/-- A vector that is left out when it is empty. -/
theorem adds_vectorSection {α : Type} {encode : α → Bytes} {items : List α} {value : β}
    (field : SectionContents → β → SectionContents) (stores : Stores kind d field)
    (ordered : kind ≠ .custom)
    (size : (Module.vectorSection kind encode items).length < 2 ^ 32)
    (unchanged : items = [] → field s value = s)
    (h : (Codec.encodeList encode items).length < 2 ^ 32 →
      Reads d (Codec.encodeList encode items) value) :
    Adds kind (Module.vectorSection kind encode items) s (field s value) := by
  rw [Module.vectorSection] at size ⊢
  by_cases empty : items = []
  · rw [unchanged empty, empty]
    exact Adds.nothing kind s
  · rw [List.isEmpty_eq_false_iff.mpr empty] at size ⊢
    exact Adds.single field stores ordered size (h (length_content_lt size))

end Fields

theorem codeSection_of_ne_nil {α : Type} {kind : SectionKind}
    {encode : α → Except LookupError Bytes} {items : List α} {content : Bytes}
    (nonempty : items ≠ []) (encoded : encodeCounted encode items = .ok content) :
    Module.codeSection kind encode items = .ok (encodeSection kind.id content) := by
  obtain ⟨contents, each, same⟩ := Except.bind_eq_ok.mp encoded
  cases same
  have number : contents.length = items.length := (Except.mapM_eq_ok.mp each).length_eq.symm
  rw [Module.codeSection, List.isEmpty_eq_false_iff.mpr nonempty, each]
  simp only [Bool.false_eq_true, if_false, EncodeError.ofLookup, Except.mapError, Except.ok_bind,
    Codec.encodeList, number, List.flatMap_id]
  rfl

theorem EncodeError.ofLookup_eq_ok {α : Type} {result : Except LookupError α} {a : α} :
    EncodeError.ofLookup result = .ok a ↔ result = .ok a := by
  cases result <;> simp [EncodeError.ofLookup, Except.mapError]

/-- A section that is written holds the items behind their number. -/
theorem codeSection_eq_ok {α : Type} {kind : SectionKind} {encode : α → Except LookupError Bytes}
    {items : List α} {bytes : Bytes} (nonempty : items ≠ [])
    (encoded : Module.codeSection kind encode items = .ok bytes) :
    ∃ content, encodeCounted encode items = .ok content ∧
      bytes = encodeSection kind.id content := by
  rw [Module.codeSection, List.isEmpty_eq_false_iff.mpr nonempty] at encoded
  obtain ⟨contents, made, same⟩ := Except.bind_eq_ok.mp encoded
  have made := EncodeError.ofLookup_eq_ok.mp made
  have content : encodeCounted encode items =
      .ok (Codec.u32.encode (UInt32.ofNat items.length) ++ contents.flatten) := by
    rw [encodeCounted, made]
    rfl
  have written : Module.codeSection kind encode items = .ok (encodeSection kind.id _) :=
    codeSection_of_ne_nil nonempty content
  rw [Module.codeSection, List.isEmpty_eq_false_iff.mpr nonempty] at written
  exact ⟨_, content, Except.ok.inj (encoded.symm.trans written)⟩

/-- A vector of items that may have no binary form, if each of them has one. -/
theorem adds_codeSection {α β : Type} (kind : SectionKind) {d : Decoder β} (what : String)
    {limit : UInt32} {encode : α → Except LookupError Bytes} {value : α → β} {items : List α}
    (field : SectionContents → List β → SectionContents)
    (stores : Stores kind (Codec.counted what limit d) field) (ordered : kind ≠ .custom)
    (bounded : items.length ≤ limit.toNat)
    (each : ∀ a ∈ items, Recovers d (encode a) (value a)) :
    ∃ bytes, Module.codeSection kind encode items = .ok bytes ∧
      (bytes.length < 2 ^ 32 → ∀ s, field s [] = s →
        Adds kind bytes s (field s (items.map value))) := by
  by_cases empty : items = []
  · refine ⟨[], by rw [empty]; rfl, fun _ s unchanged => ?_⟩
    rw [empty, List.map_nil, unchanged]
    exact Adds.nothing kind s
  · obtain ⟨content, encoded, -, reads⟩ := recovers_counted what bounded each
    refine ⟨_, codeSection_of_ne_nil empty encoded, fun size s _ => ?_⟩
    exact Adds.single field stores ordered size (reads (length_content_lt size))

theorem adds_numberSection {kind : SectionKind} {value : Option UInt32} {s : SectionContents}
    (field : SectionContents → Option UInt32 → SectionContents)
    (stores : Stores kind Codec.u32.decode fun s n => field s (some n)) (ordered : kind ≠ .custom)
    (size : (Module.numberSection kind value).length < 2 ^ 32) (unchanged : field s none = s) :
    Adds kind (Module.numberSection kind value) s (field s value) := by
  cases value with
  | none =>
      rw [unchanged]
      exact Adds.nothing kind s
  | some n =>
      exact Adds.single (fun s n => field s (some n)) stores ordered size (Codec.reads_u32 n)

/-! ## The sections of a module -/

section Sections

variable {m : Module} {s : SectionContents}

theorem adds_types (rep : m.ItemsRepresentable) (fresh : s.result.types = [])
    (size : (Module.vectorSection .types Codec.funcType.encode m.types).length < 2 ^ 32) :
    Adds .types (Module.vectorSection .types Codec.funcType.encode m.types) s
      { s with result := { s.result with types := m.types } } := by
  refine adds_vectorSection (fun s types => { s with result := { s.result with types } })
    (fun _ _ => rfl) (by decide) size (fun empty => by rw [empty, ← fresh]) fun _ => ?_
  refine Codec.reads_counted rep.typeCount ?_ ?_
  · exact fun type _ => List.cons_ne_nil _ _
  · intro type member
    obtain ⟨params, results⟩ := rep.types type member
    exact Codec.reads_funcType params results

theorem adds_imports (rep : m.ItemsRepresentable) (fresh : s.result.imports = [])
    (size : (Module.vectorSection .imports Import.encode m.imports).length < 2 ^ 32) :
    Adds .imports (Module.vectorSection .imports Import.encode m.imports) s
      { s with result := { s.result with imports := m.imports } } := by
  refine adds_vectorSection (fun s imports => { s with result := { s.result with imports } })
    (fun _ _ => rfl) (by decide) size (fun empty => by rw [empty, ← fresh]) fun small => ?_
  refine Codec.reads_counted rep.importCount ?_ ?_
  · exact fun i _ => i.encode_ne_nil
  · intro i member
    have part := Codec.length_encode_le Import.encode member
    exact reads_importItem (rep.imports i member) (by omega)

/-- The section of functions holds the signatures alone; the reader sees a plain
vector of indices. -/
theorem encodeList_typeIndex (funcs : List Func) :
    Codec.encodeList (fun f : Func => Codec.u32.encode f.typeIndex) funcs =
      Codec.encodeList Codec.u32.encode (funcs.map (·.typeIndex)) := by
  simp [Codec.encodeList, List.flatMap_map]

theorem adds_functions (rep : m.ItemsRepresentable) (fresh : s.funcTypes = [])
    (size : (Module.vectorSection .functions (fun f => Codec.u32.encode f.typeIndex)
      m.funcs).length < 2 ^ 32) :
    Adds .functions (Module.vectorSection .functions (fun f => Codec.u32.encode f.typeIndex)
      m.funcs) s { s with funcTypes := m.funcs.map (·.typeIndex) } := by
  refine adds_vectorSection (fun s funcTypes => { s with funcTypes }) (fun _ _ => rfl) (by decide)
    size (fun empty => by rw [empty, List.map_nil, ← fresh]) fun _ => ?_
  have count : (m.funcs.map (·.typeIndex)).length ≤ Bound.functions.toNat := by
    rw [List.length_map]
    exact rep.funcCount
  rw [encodeList_typeIndex]
  refine Codec.reads_counted count ?_ ?_
  · exact fun index _ => Leb128.unsigned_ne_nil index.toNat
  · exact fun index _ => Codec.reads_u32 index

theorem adds_tables (rep : m.ItemsRepresentable) (fresh : s.result.tables = [])
    (size : (Module.vectorSection .tables Codec.tableType.encode m.tables).length < 2 ^ 32) :
    Adds .tables (Module.vectorSection .tables Codec.tableType.encode m.tables) s
      { s with result := { s.result with tables := m.tables } } := by
  refine adds_vectorSection (fun s tables => { s with result := { s.result with tables } })
    (fun _ _ => rfl) (by decide) size (fun empty => by rw [empty, ← fresh]) fun _ => ?_
  refine Codec.reads_counted rep.tableCount ?_ ?_
  · exact fun type _ => List.cons_ne_nil _ _
  · exact fun type member => Codec.reads_tableType (rep.tables type member)

theorem adds_memories (rep : m.ItemsRepresentable) (fresh : s.result.memories = [])
    (size : (Module.vectorSection .memories Codec.memoryType.encode m.memories).length < 2 ^ 32) :
    Adds .memories (Module.vectorSection .memories Codec.memoryType.encode m.memories) s
      { s with result := { s.result with memories := m.memories } } := by
  refine adds_vectorSection (fun s memories => { s with result := { s.result with memories } })
    (fun _ _ => rfl) (by decide) size (fun empty => by rw [empty, ← fresh]) fun _ => ?_
  refine Codec.reads_counted rep.memoryCount ?_ ?_
  · exact fun type _ => Codec.memoryType_ne_nil type
  · exact fun type member => Codec.reads_memoryType (rep.memories type member)

theorem adds_globals (rep : m.ItemsRepresentable) :
    ∃ bytes, Module.codeSection .globals Global.encode m.globals = .ok bytes ∧
      (bytes.length < 2 ^ 32 → ∀ s : SectionContents, s.result.globals = [] →
        Adds .globals bytes s { s with result := { s.result with globals := m.globals } }) := by
  obtain ⟨bytes, encoded, adds⟩ := adds_codeSection .globals "globals"
    (fun s globals => { s with result := { s.result with globals } }) (fun _ _ => rfl) (by decide)
    rep.globalCount fun g member => recovers_global (rep.globals g member)
  rw [List.map_id'] at adds
  exact ⟨bytes, encoded, fun size s fresh => adds size s (by rw [← fresh])⟩

theorem adds_exports (rep : m.ItemsRepresentable) (fresh : s.result.exports = [])
    (size : (Module.vectorSection .exports Export.encode m.exports).length < 2 ^ 32) :
    Adds .exports (Module.vectorSection .exports Export.encode m.exports) s
      { s with result := { s.result with exports := m.exports } } := by
  refine adds_vectorSection (fun s exports => { s with result := { s.result with exports } })
    (fun _ _ => rfl) (by decide) size (fun empty => by rw [empty, ← fresh]) fun small => ?_
  refine Codec.reads_counted rep.exportCount ?_ ?_
  · exact fun e _ => e.encode_ne_nil
  · intro e member
    have part := Codec.length_encode_le Export.encode member
    exact reads_exportItem (by omega)

theorem adds_start (fresh : s.result.start = none)
    (size : (Module.numberSection .start m.start).length < 2 ^ 32) :
    Adds .start (Module.numberSection .start m.start) s
      { s with result := { s.result with start := m.start } } :=
  adds_numberSection (fun s start => { s with result := { s.result with start } })
    (fun _ _ => rfl) (by decide) size (by rw [← fresh])

theorem adds_elements (rep : m.ItemsRepresentable) :
    ∃ bytes, Module.codeSection .elements ElementSegment.encode m.elements = .ok bytes ∧
      (bytes.length < 2 ^ 32 → ∀ s : SectionContents, s.result.elements = [] →
        Adds .elements bytes s { s with result := { s.result with elements := m.elements } }) := by
  obtain ⟨bytes, encoded, adds⟩ := adds_codeSection .elements "element segments"
    (fun s elements => { s with result := { s.result with elements } }) (fun _ _ => rfl)
    (by decide) rep.elementCount
    fun segment member => recovers_elementSegment (rep.elements segment member)
  rw [List.map_id'] at adds
  exact ⟨bytes, encoded, fun size s fresh => adds size s (by rw [← fresh])⟩

theorem adds_dataCount (right : m.DataCountRight) :
    ∃ bytes, m.dataCountSection = .ok bytes ∧
      (bytes.length < 2 ^ 32 → ∀ s : SectionContents, s.result.dataCount = none →
        Adds .dataCount bytes s
          { s with result := { s.result with dataCount := m.dataCount } }) := by
  refine ⟨Module.numberSection .dataCount m.dataCount, ?_, fun size s fresh => ?_⟩
  · rw [Module.dataCountSection]
    cases stated : m.dataCount with
    | none => rfl
    | some count => exact if_pos (right count stated)
  · exact adds_numberSection (fun s dataCount => { s with result := { s.result with dataCount } })
      (fun _ _ => rfl) (by decide) size (by rw [← fresh])

theorem adds_code (rep : m.ItemsRepresentable) :
    ∃ bytes, Module.codeSection .code Func.encodeBody m.funcs = .ok bytes ∧
      (bytes.length < 2 ^ 32 → ∀ s : SectionContents, s.bodies = [] →
        Adds .code bytes s { s with bodies := m.funcs.map fun f => (f.locals, f.body) }) := by
  obtain ⟨bytes, encoded, adds⟩ := adds_codeSection .code "function bodies"
    (fun s bodies => { s with bodies }) (fun _ _ => rfl) (by decide) rep.funcCount
    fun f member => recovers_functionBody (rep.funcs f member)
  exact ⟨bytes, encoded, fun size s fresh => adds size s (by rw [← fresh])⟩

theorem adds_data (rep : m.ItemsRepresentable) :
    ∃ bytes, Module.codeSection .data DataSegment.encode m.data = .ok bytes ∧
      (bytes.length < 2 ^ 32 → ∀ s : SectionContents, s.result.data = [] →
        Adds .data bytes s { s with result := { s.result with data := m.data } }) := by
  obtain ⟨bytes, encoded, adds⟩ := adds_codeSection .data "data segments"
    (fun s data => { s with result := { s.result with data } }) (fun _ _ => rfl) (by decide)
    rep.dataCount fun segment member => recovers_dataSegment (rep.data segment member)
  rw [List.map_id'] at adds
  exact ⟨bytes, encoded, fun size s fresh => adds size s (by rw [← fresh])⟩

/-- Custom sections may stand anywhere; here they stand behind the others. -/
theorem readsSections_customs (customs : List CustomSection) (s : SectionContents)
    (size : (customs.flatMap fun custom =>
      encodeSection SectionKind.custom.id custom.encode).length < 2 ^ 32) :
    ReadsSections
      (customs.flatMap fun custom => encodeSection SectionKind.custom.id custom.encode) s
      { s with result := { s.result with customs := s.result.customs ++ customs } } := by
  induction customs generalizing s with
  | nil =>
      rw [List.append_nil]
      exact ReadsSections.nil s
  | cons custom rest ih =>
      rw [List.flatMap_cons, List.length_append] at size
      have small := length_content_lt (Nat.lt_of_le_of_lt (Nat.le_add_right _ _) size)
      -- A custom section leaves the place in the order as it is.
      have first : Reads (nextSection s) (encodeSection SectionKind.custom.id custom.encode)
          { s with result := { s.result with customs := s.result.customs ++ [custom] } } := by
        refine reads_nextSection (fun start => by rw [checkOrder, if_pos rfl]) (by omega) ?_
        exact (readsAll_customSection small).bindPure
      have others := ih
        { s with result := { s.result with customs := s.result.customs ++ [custom] } } (by omega)
      rw [List.flatMap_cons, List.append_cons]
      exact (ReadsSections.single (List.cons_ne_nil _ _) first).append others

end Sections

/-! ## Whole modules -/

/-- What the sections of a module hold together. -/
def Module.contents (m : Module) (place : UInt8) : SectionContents where
  result := { m with funcs := [] }
  funcTypes := m.funcs.map (·.typeIndex)
  bodies := m.funcs.map fun f => (f.locals, f.body)
  lastOrder := place

/-- Some leading sections, the last of them at `place` or before. -/
def Leads (place : UInt8) (bytes : Bytes) (s : SectionContents) : Prop :=
  ∃ last ≤ place, ReadsSections bytes {} { s with lastOrder := last }

theorem Leads.add {kind : SectionKind} {place : UInt8} {bytes₁ bytes₂ : Bytes}
    {s s' : SectionContents} (first : Leads place bytes₁ s) (next : Adds kind bytes₂ s s')
    (earlier : place < kind.order) : Leads kind.order (bytes₁ ++ bytes₂) s' := by
  obtain ⟨last, within, reads⟩ := first
  obtain ⟨last', within', reads'⟩ := next last (UInt8.lt_of_le_of_lt within earlier)
  exact ⟨last', within', reads.append reads'⟩

/-- A representable module has a binary form: the header, and sections that
lead to the contents of the module. -/
theorem Module.encode_sections {m : Module} (rep : m.ItemsRepresentable)
    (right : m.DataCountRight) :
    ∃ content, m.encode = .ok (magic ++ Bytes.littleEndian 4 formatVersion.toNat ++ content) ∧
      (content.length < 2 ^ 32 → ∃ place, ReadsSections content {} (m.contents place)) := by
  obtain ⟨globals, encodedGlobals, addsGlobals⟩ := adds_globals rep
  obtain ⟨elements, encodedElements, addsElements⟩ := adds_elements rep
  obtain ⟨dataCount, encodedDataCount, addsDataCount⟩ := adds_dataCount right
  obtain ⟨code, encodedCode, addsCode⟩ := adds_code rep
  obtain ⟨data, encodedData, addsData⟩ := adds_data rep
  refine ⟨vectorSection .types Codec.funcType.encode m.types ++
    vectorSection .imports Import.encode m.imports ++
    vectorSection .functions (fun f => Codec.u32.encode f.typeIndex) m.funcs ++
    vectorSection .tables Codec.tableType.encode m.tables ++
    vectorSection .memories Codec.memoryType.encode m.memories ++ globals ++
    vectorSection .exports Export.encode m.exports ++ numberSection .start m.start ++
    elements ++ dataCount ++ code ++ data ++
    m.customs.flatMap fun custom => encodeSection SectionKind.custom.id custom.encode, ?_, ?_⟩
  · rw [Module.encode, encodedGlobals, encodedElements, encodedDataCount, encodedCode, encodedData]
    simp only [Except.ok_bind, Except.pure_eq_ok, List.append_assoc]
  · intro size
    simp only [List.length_append] at size
    have start : Leads 0 [] {} := ⟨0, UInt8.le_refl 0, ReadsSections.nil _⟩
    -- In the order of the wire, where the number of data segments comes before the code.
    have lead := start
      |>.add (adds_types rep rfl (by omega)) (by decide)
      |>.add (adds_imports rep rfl (by omega)) (by decide)
      |>.add (adds_functions rep rfl (by omega)) (by decide)
      |>.add (adds_tables rep rfl (by omega)) (by decide)
      |>.add (adds_memories rep rfl (by omega)) (by decide)
      |>.add (addsGlobals (by omega) _ rfl) (by decide)
      |>.add (adds_exports rep rfl (by omega)) (by decide)
      |>.add (adds_start (m := m) rfl (by omega)) (by decide)
      |>.add (addsElements (by omega) _ rfl) (by decide)
      |>.add (addsDataCount (by omega) _ rfl) (by decide)
      |>.add (addsCode (by omega) _ rfl) (by decide)
      |>.add (addsData (by omega) _ rfl) (by decide)
    obtain ⟨last, -, reads⟩ := lead
    have all := reads.append (readsSections_customs m.customs _ (by omega))
    refine ⟨last, ?_⟩
    rw [Module.contents]
    simpa only [List.append_assoc, List.nil_append] using all

theorem reads_header : Reads header (magic ++ Bytes.littleEndian 4 formatVersion.toNat) () := by
  refine Reads.atLeast (by simp) ?_
  rw [if_pos rfl]
  refine Reads.bind (Reads.bytes magic) ?_
  simp only [↓reduceIte]
  refine Reads.atOffset fun start => ?_
  have version := Codec.reads_bytes (Bytes.length_littleEndian 4 formatVersion.toNat)
  exact version.bind (Reads.pure ())

theorem joinFuncs_contents (m : Module) (place : UInt8) :
    joinFuncs (m.contents place) = pure m := by
  rw [joinFuncs, Module.contents, if_pos (by simp), List.zip_map', List.map_map]
  exact congrArg (fun funcs => (pure { m with funcs } : Decoder Module)) (List.map_id m.funcs)

/-- Behind the header the sections are read with one unit of fuel more than there
are bytes. -/
theorem wholeModule_eq (content : Bytes) :
    wholeModule
      (Cursor.ofInput (magic ++ Bytes.littleEndian 4 formatVersion.toNat ++ content)) =
      (sections (content.length + 1) {} >>= joinFuncs) ⟨8, content, none⟩ := by
  rw [wholeModule, Cursor.ofInput, List.drop_zero, Nat.zero_min,
    bind_ok (reads_header 0 content none), remaining_bind]
  rfl

/-- The header and some sections, read as a module. -/
theorem decode_of_readsSections {m : Module} {content : Bytes} {s : SectionContents}
    (h : ReadsSections content {} s) (joined : joinFuncs s = pure m) :
    Module.decode (magic ++ Bytes.littleEndian 4 formatVersion.toNat ++ content) = .ok m := by
  obtain ⟨n, few, reads⟩ := h
  -- The unit of fuel that is left sees the end.
  have loop := reads (content.length - n + 1) 8 [] none
  rw [List.append_nil, show content.length - n + 1 + n = content.length + 1 by omega,
    sections_end] at loop
  rw [Module.decode, wholeModule_eq, bind_ok loop, joined]
  rfl

/-- What is written for a representable module is read back. -/
theorem decode_of_encode {m : Module} {bytes : Bytes} (rep : m.ItemsRepresentable)
    (right : m.DataCountRight) (encoded : m.encode = .ok bytes) (size : bytes.length < 2 ^ 32) :
    Module.decode bytes = .ok m := by
  obtain ⟨content, encoded', reads⟩ := m.encode_sections rep right
  cases encoded.symm.trans encoded'
  rw [List.length_append] at size
  obtain ⟨place, read⟩ := reads (by omega)
  exact decode_of_readsSections read (joinFuncs_contents m place)

/-- A module that the format can represent has a binary form, and this form is
read back as the same module if its length prefixes have room. -/
theorem Module.decode_encode {m : Module} (rep : m.ItemsRepresentable) (right : m.DataCountRight) :
    ∃ bytes, m.encode = .ok bytes ∧ (bytes.length < 2 ^ 32 → Module.decode bytes = .ok m) := by
  obtain ⟨content, encoded, -⟩ := m.encode_sections rep right
  exact ⟨_, encoded, decode_of_encode rep right encoded⟩

/-- A function with an `if` inside a block, a shared memory, a table with a
segment, and data whose number is stated. -/
def Module.sample : Module where
  types := [{ params := [.i32], results := [.i32] }]
  funcs := [{
    typeIndex := 0
    locals := [.i64, .i64, .f32]
    body := [.mk "block" (.block (.value .i32) [
      .mk "local.get" (.index 0),
      .mk "if" (.ifElse (.value .i32) [.mk "i32.const" (.i32 (-1))] [.mk "unreachable" .none])])]
  }]
  tables := [{ element := .funcRef, limits := { min := 1 } }]
  memories := [{ limits := { min := 1, max := some 200 }, shared := true }]
  exports := [{ name := "f", kind := .func, index := 0 }]
  elements := [{
    mode := .active 0 [.mk "i32.const" (.i32 0)]
    type := .funcRef
    init := [[.mk "ref.func" (.index 0)]]
  }]
  dataCount := some 1
  data := [{ mode := .passive, init := [1, 2, 3] }]
  customs := [{ name := "note", data := [0] }]

theorem Module.decode_encode_sample : Module.sample.ItemsRepresentable ∧
    Module.sample.DataCountRight ∧ ∃ bytes, Module.sample.encode = .ok bytes ∧
      bytes.length < 2 ^ 32 ∧ Module.decode bytes = .ok Module.sample := by
  have rep : Module.sample.ItemsRepresentable := by
    constructor <;> decide +kernel
  have right : Module.sample.DataCountRight := by
    rintro count ⟨⟩
    rfl
  have length : Module.sample.encode.toOption.map List.length = some 92 := by
    decide +kernel
  obtain ⟨bytes, encoded, back⟩ := Module.decode_encode rep right
  have small : bytes.length < 2 ^ 32 := by
    rw [encoded] at length
    have : bytes.length = 92 := Option.some.inj length
    omega
  exact ⟨rep, right, bytes, encoded, small, back small⟩

end Wasm
