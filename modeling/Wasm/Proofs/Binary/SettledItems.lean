import Wasm.Proofs.Binary.RoundTrip
import Wasm.Proofs.Binary.Settled

/-!
# Sections are read back or refused

What is refused in an item ends its section, and what is refused in a section
ends the module. Sections that are not refused are added up as in a module that
is small enough, so the two relations on sections go side by side: some bytes
lead from the contents read before to the contents read afterwards, or to a
refusal.
-/

namespace Wasm

open Decoder

/-! ## Items that may have no binary form -/

/-- Every binary form of an item is settled if its length prefixes hold. -/
def Settled {α : Type} (d : Decoder α) (encoded : Except LookupError Bytes) (a : α) : Prop :=
  ∀ bytes, encoded = .ok bytes → bytes ≠ [] ∧ (bytes.length < 2 ^ 32 → Settles d bytes a)

theorem Recovers.settled {α : Type} {d : Decoder α} {encoded : Except LookupError Bytes} {a : α}
    (h : Recovers d encoded a) : Settled d encoded a := by
  obtain ⟨bytes, done, nonempty, reads⟩ := h
  intro bytes' done'
  cases done.symm.trans done'
  exact ⟨nonempty, fun size => (reads size).settles⟩

theorem settled_all {α β : Type} {d : Decoder α} {encode : β → Except LookupError Bytes}
    {value : β → α} {items : List β} {contents : List Bytes}
    (encoded : List.Forall₂ (fun b bytes => encode b = .ok bytes) items contents)
    (each : ∀ b ∈ items, Settled d (encode b) (value b)) :
    [] ∉ contents ∧ (contents.flatten.length < 2 ^ 32 →
      List.Forall₂ (fun a bytes => Settles d bytes a) (items.map value) contents) := by
  induction encoded with
  | nil => exact ⟨List.not_mem_nil, fun _ => .nil⟩
  | cons first _ ih =>
      obtain ⟨head, tail⟩ := List.forall_mem_cons.mp each
      obtain ⟨nonempty, settles⟩ := head _ first
      obtain ⟨nonemptyTail, settlesTail⟩ := ih tail
      refine ⟨fun member => (List.mem_cons.mp member).elim (nonempty ∘ Eq.symm) nonemptyTail, ?_⟩
      intro size
      rw [List.flatten_cons, List.length_append] at size
      exact .cons (settles (by omega)) (settlesTail (by omega))

theorem settled_counted {α β : Type} {d : Decoder α} {encode : β → Except LookupError Bytes}
    {value : β → α} {items : List β} (what : String) (limit : UInt32)
    (each : ∀ b ∈ items, Settled d (encode b) (value b)) :
    Settled (Codec.counted what limit d) (encodeCounted encode items) (items.map value) := by
  intro bytes encoded
  obtain ⟨contents, made, same⟩ := Except.bind_eq_ok.mp encoded
  cases same
  obtain ⟨nonempty, settles⟩ := settled_all (Except.mapM_eq_ok.mp made) each
  refine ⟨List.append_ne_nil_of_left_ne_nil (Leb128.unsigned_ne_nil _) _, fun size => ?_⟩
  rw [List.length_append] at size
  have number : (items.map value).length = items.length := List.length_map value
  rw [← number]
  exact Codec.settles_countedItems (by omega) nonempty (settles (by omega))

/-! ## Element segments -/

theorem ElementSegment.Front.settles {segment : ElementSegment} {flags : UInt32}
    {modeBytes typeBytes entries : Bytes} (front : segment.Front flags modeBytes typeBytes)
    (h : Settles (Codec.counted "element entries" Bound.elementEntries expr) entries
      segment.init) :
    Settles elementSegment (Codec.u32.encode flags ++ (modeBytes ++ (typeBytes ++ entries)))
      segment := by
  rcases h with reads | refuses
  · exact .inl (front.reads reads)
  · refine .inr (Refuses.atOffset fun start => (Codec.reads_u32 flags).refuses ?_)
    refine (front.readsMode start).refuses (front.readsType.refuses ?_)
    rw [if_pos front.expressions]
    exact refuses.bind

/-- Of a segment only the number of its entries can be too large. -/
theorem settled_elementSegment {segment : ElementSegment} (mode : segment.mode.Representable)
    (isRef : segment.type.isRef = true) (init : ∀ entry ∈ segment.init, RepresentableExpr entry) :
    Settled elementSegment segment.encode segment := by
  intro bytes encoded
  obtain ⟨flags, modeBytes, typeBytes, front⟩ := ElementSegment.exists_front mode isRef
  obtain ⟨contents, made, nonempty, reads⟩ :=
    recovers_all fun code member => recovers_expr (init code member)
  have entries : encodeExprs segment.init =
      .ok (Codec.u32.encode (UInt32.ofNat segment.init.length) ++ contents.flatten) := by
    rw [encodeExprs, made]
    rfl
  cases (front.written _ entries).symm.trans encoded
  refine ⟨by simp [Codec.u32, Leb128.unsigned_ne_nil], fun size => ?_⟩
  simp only [List.length_append] at size
  have each := (reads (by omega)).imp fun _ _ => Reads.settles
  rw [List.map_id'] at each
  simp only [List.append_assoc]
  exact front.settles (Codec.settles_countedItems (by omega) nonempty each)

/-! ## Function bodies -/

/-- Locals beyond the bound are refused at the run that goes beyond it. -/
theorem refuses_runs {items : List (Nat × ValType)} {total : Nat}
    (fits : runTotal items < 2 ^ 32) (within : total ≤ Bound.locals.toNat)
    (beyond : Bound.locals.toNat < total + runTotal items) :
    Refuses (runs items.length total) (items.flatMap encodeRun) := by
  induction items generalizing total with
  | nil =>
      have none : runTotal [] = 0 := rfl
      omega
  | cons run rest ih =>
      obtain ⟨n, type⟩ := run
      have sum : runTotal ((n, type) :: rest) = n + runTotal rest := by simp [runTotal]
      have small : n < 2 ^ 32 := by omega
      have toNat : (UInt32.ofNat n).toNat = n := UInt32.toNat_ofNat_of_lt' small
      rw [List.flatMap_cons, encodeRun, List.append_assoc]
      refine Refuses.atOffset fun start => (Codec.reads_u32 _).refuses ?_
      refine (Codec.reads_valType type).refuses ?_
      simp only [toNat]
      by_cases last : Bound.locals.toNat < total + n
      · rw [if_pos last]
        exact Refuses.failAt last start _
      · rw [if_neg last]
        exact (ih (by omega) (by omega) (by omega)).bind

theorem settles_localDeclarations (items : List (Nat × ValType)) (few : items.length < 2 ^ 32)
    (fits : runTotal items < 2 ^ 32) :
    Settles (Codec.count "local declarations" Bound.locals >>= fun n => runs n 0)
      (Codec.encodeList encodeRun items) items := by
  rw [Codec.encodeList, Codec.encode_length few]
  refine Codec.settles_countBind few (length_le_length_encodeRuns items) ?_
  by_cases bounded : runTotal items ≤ Bound.locals.toNat
  · exact .inl (reads_runs (by omega))
  · exact .inr (refuses_runs fits (Nat.zero_le _) (by omega))

theorem settles_localsAndCode {locals : List ValType} {code : List Instr}
    {declared codeBytes : Bytes}
    (settlesRuns : Settles (Codec.count "local declarations" Bound.locals >>= fun n => runs n 0)
      declared (localRuns locals))
    (settlesCode : Settles expr codeBytes code) :
    Settles localsAndCode (declared ++ codeBytes) (locals, code) := by
  rw [localsAndCode, ← bind_assoc]
  refine settlesRuns.bind ?_
  rw [expandRuns_localRuns]
  exact settlesCode.bindPure

theorem settles_functionBody {content : Bytes} {body : List ValType × List Instr}
    (size : (Codec.byteVector.encode content).length < 2 ^ 32)
    (h : Settles localsAndCode content body) :
    Settles functionBody (Codec.byteVector.encode content) body := by
  rcases h with reads | refuses
  · exact .inl (reads_functionBody size reads)
  · have length : (Codec.byteVector.encode content).length = _ := List.length_append
    have toNat : (UInt32.ofNat content.length).toNat = content.length :=
      UInt32.toNat_ofNat_of_lt' (show content.length < 2 ^ 32 by omega)
    rw [functionBody_eq]
    refine .inr ((Codec.reads_u32 _).refuses (Refuses.atOffset fun start => ?_))
    rw [toNat]
    exact Refuses.atLeast (Nat.le_refl _) refuses.bind

/-- A function whose locals a length can count is read back or refused. -/
theorem settled_functionBody {f : Func} (formed : Instr.AllWellFormed f.body)
    (fits : f.locals.length < 2 ^ 32) :
    Settled functionBody f.encodeBody (f.locals, f.body) := by
  intro bytes encoded
  obtain ⟨code, made, same⟩ := Except.bind_eq_ok.mp encoded
  let declared := Codec.encodeList encodeRun (localRuns f.locals)
  obtain rfl : Codec.byteVector.encode (declared ++ code) = bytes := Except.ok.inj same
  refine ⟨List.append_ne_nil_of_left_ne_nil (Leb128.unsigned_ne_nil _) _, fun size => ?_⟩
  have length : (Codec.byteVector.encode (declared ++ code)).length = _ := List.length_append
  have parts : (declared ++ code).length = _ := List.length_append
  have total : runTotal (localRuns f.locals) = f.locals.length := by
    rw [← length_expandRuns, expandRuns_localRuns]
  have few := length_localRuns_le f.locals
  have settlesRuns := settles_localDeclarations (localRuns f.locals) (by omega) (by omega)
  have settlesCode := settles_expr formed made (by omega)
  exact settles_functionBody size (settles_localsAndCode settlesRuns settlesCode)

/-! ## The loop over sections -/

/-- Reading `bytes` as sections behind the contents `s` ends in a refusal. -/
def RefusesSections (bytes : Bytes) (s : SectionContents) : Prop :=
  ∃ n ≤ bytes.length, ∀ (fuel offset : Nat) (rest : Bytes) (id : Option SectionId),
    ∃ e c, sections (fuel + n) s ⟨offset, bytes ++ rest, id⟩ = .error e c ∧ e.fault.IsLimit

def SettlesSections (bytes : Bytes) (s s' : SectionContents) : Prop :=
  ReadsSections bytes s s' ∨ RefusesSections bytes s

theorem RefusesSections.append {bytes : Bytes} {s : SectionContents} (h : RefusesSections bytes s)
    (more : Bytes) : RefusesSections (bytes ++ more) s := by
  obtain ⟨n, few, refuses⟩ := h
  refine ⟨n, by rw [List.length_append]; omega, fun fuel offset rest id => ?_⟩
  rw [List.append_assoc]
  exact refuses fuel offset (more ++ rest) id

theorem RefusesSections.behind {bytes₁ bytes₂ : Bytes} {s s₁ : SectionContents}
    (h : RefusesSections bytes₂ s₁) (first : ReadsSections bytes₁ s s₁) :
    RefusesSections (bytes₁ ++ bytes₂) s := by
  obtain ⟨n₁, few₁, reads⟩ := first
  obtain ⟨n₂, few₂, refuses⟩ := h
  refine ⟨n₂ + n₁, by rw [List.length_append]; omega, fun fuel offset rest id => ?_⟩
  rw [← Nat.add_assoc, List.append_assoc, reads]
  exact refuses fuel _ rest id

theorem SettlesSections.append {bytes₁ bytes₂ : Bytes} {s s₁ s₂ : SectionContents}
    (first : SettlesSections bytes₁ s s₁) (second : SettlesSections bytes₂ s₁ s₂) :
    SettlesSections (bytes₁ ++ bytes₂) s s₂ := by
  rcases first with reads | refuses
  · exact second.imp reads.append fun refuses => refuses.behind reads
  · exact .inr (refuses.append bytes₂)

/-- One section that is refused. -/
theorem RefusesSections.single {bytes : Bytes} {s : SectionContents} (nonempty : bytes ≠ [])
    (h : Refuses (nextSection s) bytes) : RefusesSections bytes s := by
  have positive := List.length_pos_iff.mpr nonempty
  refine ⟨1, positive, fun fuel offset rest id => ?_⟩
  have there : Bytes.hasAtLeast 1 (bytes ++ rest) = true := by
    rw [Bytes.hasAtLeast_iff, List.length_append]
    omega
  rw [sections, hasAtLeast_bind, there, if_pos rfl]
  exact h.bind offset rest id

/-! ## One section -/

/-- A section is refused by the reader of its kind. -/
theorem refuses_nextSection {kind : SectionKind} {content : Bytes} {s s₁ : SectionContents}
    (placed : ∀ start, checkOrder start kind.id s = pure s₁)
    (size : (encodeSection kind.id content).length < 2 ^ 32)
    (h : Refuses (sectionContent s₁ kind) content) :
    Refuses (nextSection s) (encodeSection kind.id content) := by
  have toNat := UInt32.toNat_ofNat_of_lt' (length_content_lt size)
  refine Refuses.atOffset fun start => Refuses.byteBind ?_
  refine (Codec.reads_u32 _).refuses (Refuses.atLeast (by rw [toNat]) ?_)
  rw [if_pos rfl, placed, pure_bind, kind?_id, toNat]
  exact h.within

/-- `bytes` hold a section of the kind, or nothing, and take `s` to `s'`
wherever the section may stand, or they are refused there. -/
def MayAdd (kind : SectionKind) (bytes : Bytes) (s s' : SectionContents) : Prop :=
  ∀ before < kind.order, ∃ after ≤ kind.order,
    SettlesSections bytes { s with lastOrder := before } { s' with lastOrder := after }

theorem Adds.mayAdd {kind : SectionKind} {bytes : Bytes} {s s' : SectionContents}
    (h : Adds kind bytes s s') : MayAdd kind bytes s s' := by
  intro before earlier
  obtain ⟨after, within, reads⟩ := h before earlier
  exact ⟨after, within, .inl reads⟩

section Fields

variable {β : Type} {kind : SectionKind} {d : Decoder β} {s : SectionContents}

theorem mayAdd_single {content : Bytes} {value : β} (field : SectionContents → β → SectionContents)
    (stores : Stores kind d field) (ordered : kind ≠ .custom)
    (size : (encodeSection kind.id content).length < 2 ^ 32) (h : Settles d content value) :
    MayAdd kind (encodeSection kind.id content) s (field s value) := by
  rcases h with reads | refuses
  · exact (Adds.single field stores ordered size reads).mayAdd
  · intro before earlier
    refine ⟨kind.order, UInt8.le_refl _, .inr (RefusesSections.single (List.cons_ne_nil _ _) ?_)⟩
    refine refuses_nextSection (checkOrder_of_lt ordered earlier) size ?_
    rw [stores]
    exact refuses.bind

theorem mayAdd_vectorSection {α : Type} {encode : α → Bytes} {items : List α} {value : β}
    (field : SectionContents → β → SectionContents) (stores : Stores kind d field)
    (ordered : kind ≠ .custom)
    (size : (Module.vectorSection kind encode items).length < 2 ^ 32)
    (unchanged : items = [] → field s value = s)
    (h : (Codec.encodeList encode items).length < 2 ^ 32 →
      Settles d (Codec.encodeList encode items) value) :
    MayAdd kind (Module.vectorSection kind encode items) s (field s value) := by
  rw [Module.vectorSection] at size ⊢
  by_cases empty : items = []
  · rw [unchanged empty, empty]
    exact (Adds.nothing kind s).mayAdd
  · rw [List.isEmpty_eq_false_iff.mpr empty] at size ⊢
    exact mayAdd_single field stores ordered size (h (length_content_lt size))

end Fields

theorem mayAdd_codeSection {α β : Type} {kind : SectionKind} {d : Decoder β} {what : String}
    {limit : UInt32} {encode : α → Except LookupError Bytes} {items : List α} {bytes : Bytes}
    {s : SectionContents} (value : α → β) (field : SectionContents → List β → SectionContents)
    (stores : Stores kind (Codec.counted what limit d) field) (ordered : kind ≠ .custom)
    (encoded : Module.codeSection kind encode items = .ok bytes) (size : bytes.length < 2 ^ 32)
    (unchanged : field s [] = s) (each : ∀ a ∈ items, Settled d (encode a) (value a)) :
    MayAdd kind bytes s (field s (items.map value)) := by
  by_cases empty : items = []
  · subst empty
    cases encoded
    rw [List.map_nil, unchanged]
    exact (Adds.nothing kind s).mayAdd
  · obtain ⟨content, made, rfl⟩ := codeSection_eq_ok empty encoded
    have settles := (settled_counted what limit each content made).2 (length_content_lt size)
    exact mayAdd_single field stores ordered size settles

/-! ## The sections of a module -/

section Sections

variable {m : Module} {s : SectionContents}

theorem mayAdd_types (fresh : s.result.types = [])
    (size : (Module.vectorSection .types Codec.funcType.encode m.types).length < 2 ^ 32) :
    MayAdd .types (Module.vectorSection .types Codec.funcType.encode m.types) s
      { s with result := { s.result with types := m.types } } := by
  refine mayAdd_vectorSection (fun s types => { s with result := { s.result with types } })
    (fun _ _ => rfl) (by decide) size (fun empty => by rw [empty, ← fresh]) fun small => ?_
  refine Codec.settles_counted small ?_ ?_
  · exact fun type _ => List.cons_ne_nil _ _
  · intro type member
    have part := Codec.length_encode_le Codec.funcType.encode member
    exact Codec.settles_funcType (by omega)

theorem mayAdd_imports (rep : ∀ i ∈ m.imports, i.type.Representable)
    (fresh : s.result.imports = [])
    (size : (Module.vectorSection .imports Import.encode m.imports).length < 2 ^ 32) :
    MayAdd .imports (Module.vectorSection .imports Import.encode m.imports) s
      { s with result := { s.result with imports := m.imports } } := by
  refine mayAdd_vectorSection (fun s imports => { s with result := { s.result with imports } })
    (fun _ _ => rfl) (by decide) size (fun empty => by rw [empty, ← fresh]) fun small => ?_
  refine Codec.settles_counted small ?_ ?_
  · exact fun i _ => i.encode_ne_nil
  · intro i member
    have part := Codec.length_encode_le Import.encode member
    exact (reads_importItem (rep i member) (by omega)).settles

theorem mayAdd_functions (fresh : s.funcTypes = [])
    (size : (Module.vectorSection .functions (fun f => Codec.u32.encode f.typeIndex)
      m.funcs).length < 2 ^ 32) :
    MayAdd .functions (Module.vectorSection .functions (fun f => Codec.u32.encode f.typeIndex)
      m.funcs) s { s with funcTypes := m.funcs.map (·.typeIndex) } := by
  refine mayAdd_vectorSection (fun s funcTypes => { s with funcTypes }) (fun _ _ => rfl)
    (by decide) size (fun empty => by rw [empty, List.map_nil, ← fresh]) fun small => ?_
  rw [encodeList_typeIndex] at small ⊢
  refine Codec.settles_counted small ?_ ?_
  · exact fun index _ => Leb128.unsigned_ne_nil index.toNat
  · exact fun index _ => (Codec.reads_u32 index).settles

theorem mayAdd_tables (rep : ∀ type ∈ m.tables, type.Representable)
    (fresh : s.result.tables = [])
    (size : (Module.vectorSection .tables Codec.tableType.encode m.tables).length < 2 ^ 32) :
    MayAdd .tables (Module.vectorSection .tables Codec.tableType.encode m.tables) s
      { s with result := { s.result with tables := m.tables } } := by
  refine mayAdd_vectorSection (fun s tables => { s with result := { s.result with tables } })
    (fun _ _ => rfl) (by decide) size (fun empty => by rw [empty, ← fresh]) fun small => ?_
  refine Codec.settles_counted small ?_ ?_
  · exact fun type _ => List.cons_ne_nil _ _
  · exact fun type member => (Codec.reads_tableType (rep type member)).settles

theorem mayAdd_memories (rep : ∀ type ∈ m.memories, type.Representable)
    (fresh : s.result.memories = [])
    (size : (Module.vectorSection .memories Codec.memoryType.encode m.memories).length < 2 ^ 32) :
    MayAdd .memories (Module.vectorSection .memories Codec.memoryType.encode m.memories) s
      { s with result := { s.result with memories := m.memories } } := by
  refine mayAdd_vectorSection (fun s memories => { s with result := { s.result with memories } })
    (fun _ _ => rfl) (by decide) size (fun empty => by rw [empty, ← fresh]) fun small => ?_
  refine Codec.settles_counted small ?_ ?_
  · exact fun type _ => Codec.memoryType_ne_nil type
  · exact fun type member => (Codec.reads_memoryType (rep type member)).settles

theorem mayAdd_globals {bytes : Bytes} (rep : ∀ g ∈ m.globals, RepresentableExpr g.init)
    (fresh : s.result.globals = [])
    (encoded : Module.codeSection .globals Global.encode m.globals = .ok bytes)
    (size : bytes.length < 2 ^ 32) :
    MayAdd .globals bytes s { s with result := { s.result with globals := m.globals } } := by
  have adds := mayAdd_codeSection (d := Decoder.global) (s := s) id
    (fun s globals => { s with result := { s.result with globals } }) (fun _ _ => rfl) (by decide)
    encoded size (by rw [← fresh]) fun g member => (recovers_global (rep g member)).settled
  rwa [List.map_id] at adds

theorem mayAdd_exports (fresh : s.result.exports = [])
    (size : (Module.vectorSection .exports Export.encode m.exports).length < 2 ^ 32) :
    MayAdd .exports (Module.vectorSection .exports Export.encode m.exports) s
      { s with result := { s.result with exports := m.exports } } := by
  refine mayAdd_vectorSection (fun s exports => { s with result := { s.result with exports } })
    (fun _ _ => rfl) (by decide) size (fun empty => by rw [empty, ← fresh]) fun small => ?_
  refine Codec.settles_counted small ?_ ?_
  · exact fun e _ => e.encode_ne_nil
  · intro e member
    have part := Codec.length_encode_le Export.encode member
    exact (reads_exportItem (by omega)).settles

theorem mayAdd_elements {bytes : Bytes}
    (rep : ∀ segment ∈ m.elements, segment.mode.Representable ∧ segment.type.isRef = true ∧
      ∀ entry ∈ segment.init, RepresentableExpr entry)
    (fresh : s.result.elements = [])
    (encoded : Module.codeSection .elements ElementSegment.encode m.elements = .ok bytes)
    (size : bytes.length < 2 ^ 32) :
    MayAdd .elements bytes s { s with result := { s.result with elements := m.elements } } := by
  have adds := mayAdd_codeSection (d := elementSegment) (s := s) id
    (fun s elements => { s with result := { s.result with elements } }) (fun _ _ => rfl)
    (by decide) encoded size (by rw [← fresh]) fun segment member =>
      have ⟨mode, isRef, init⟩ := rep segment member
      settled_elementSegment mode isRef init
  rwa [List.map_id] at adds

theorem mayAdd_code {bytes : Bytes}
    (rep : ∀ f ∈ m.funcs, Instr.AllWellFormed f.body ∧ f.locals.length < 2 ^ 32)
    (fresh : s.bodies = [])
    (encoded : Module.codeSection .code Func.encodeBody m.funcs = .ok bytes)
    (size : bytes.length < 2 ^ 32) :
    MayAdd .code bytes s { s with bodies := m.funcs.map fun f => (f.locals, f.body) } :=
  mayAdd_codeSection (d := functionBody) (s := s) _ (fun s bodies => { s with bodies })
    (fun _ _ => rfl) (by decide) encoded size (by rw [← fresh]) fun f member =>
      settled_functionBody (rep f member).1 (rep f member).2

theorem mayAdd_data {bytes : Bytes} (rep : ∀ segment ∈ m.data, segment.mode.Representable)
    (fresh : s.result.data = [])
    (encoded : Module.codeSection .data DataSegment.encode m.data = .ok bytes)
    (size : bytes.length < 2 ^ 32) :
    MayAdd .data bytes s { s with result := { s.result with data := m.data } } := by
  have adds := mayAdd_codeSection (d := dataSegment) (s := s) id
    (fun s data => { s with result := { s.result with data } }) (fun _ _ => rfl) (by decide)
    encoded size (by rw [← fresh]) fun segment member =>
      (recovers_dataSegment (rep segment member)).settled
  rwa [List.map_id] at adds

end Sections

/-! ## Whole modules -/

/-- Some leading sections, the last of them at `place` or before, unless one of
them is refused. -/
def MayLead (place : UInt8) (bytes : Bytes) (s : SectionContents) : Prop :=
  ∃ last ≤ place, SettlesSections bytes {} { s with lastOrder := last }

theorem MayLead.add {kind : SectionKind} {place : UInt8} {bytes₁ bytes₂ : Bytes}
    {s s' : SectionContents} (first : MayLead place bytes₁ s) (next : MayAdd kind bytes₂ s s')
    (earlier : place < kind.order) : MayLead kind.order (bytes₁ ++ bytes₂) s' := by
  obtain ⟨last, within, settles⟩ := first
  obtain ⟨last', within', settles'⟩ := next last (UInt8.lt_of_le_of_lt within earlier)
  exact ⟨last', within', settles.append settles'⟩

/-- The header and some sections are read as a module or refused. -/
theorem decode_of_settlesSections {m : Module} {content : Bytes} {s : SectionContents}
    (h : SettlesSections content {} s) (joined : joinFuncs s = pure m) :
    let input := magic ++ Bytes.littleEndian 4 formatVersion.toNat ++ content
    Module.decode input = .ok m ∨ ∃ e, Module.decode input = .error e ∧ e.fault.IsLimit := by
  rcases h with reads | ⟨n, few, refuses⟩
  · exact .inl (decode_of_readsSections reads joined)
  · obtain ⟨e, c, failed, beyond⟩ := refuses (content.length - n + 1) 8 [] none
    rw [List.append_nil, show content.length - n + 1 + n = content.length + 1 by omega] at failed
    refine .inr ⟨e, ?_, beyond⟩
    rw [Module.decode, wholeModule_eq, EStateM.bind_eq_error.mpr (.inl failed)]

end Wasm
