import Wasm.Proofs.Binary.Code

/-!
# The items of sections are read back

Imports, exports, globals, segments, function bodies and custom sections.
Items with code may have no binary form, so their law, `Recovers`, states
that there is one and that it is read back; the law of a vector of items
follows from the laws of its members.
-/

namespace Wasm

open Decoder

/-! ## Items that may have no binary form -/

/-- There is a binary form, from which `d` reads `a` if its length prefixes hold. -/
def Recovers {α : Type} (d : Decoder α) (encoded : Except LookupError Bytes) (a : α) : Prop :=
  ∃ bytes, encoded = .ok bytes ∧ bytes ≠ [] ∧ (bytes.length < 2 ^ 32 → Reads d bytes a)

theorem recovers_all {α β : Type} {d : Decoder α} {encode : β → Except LookupError Bytes}
    {value : β → α} {items : List β} (each : ∀ b ∈ items, Recovers d (encode b) (value b)) :
    ∃ contents, items.mapM encode = .ok contents ∧ [] ∉ contents ∧
      (contents.flatten.length < 2 ^ 32 →
        List.Forall₂ (fun a bytes => Reads d bytes a) (items.map value) contents) := by
  induction items with
  | nil => exact ⟨[], rfl, by simp, fun _ => .nil⟩
  | cons head tail ih =>
      obtain ⟨bytes, encoded, nonempty, reads⟩ := each head List.mem_cons_self
      obtain ⟨contents, encodedTail, nonemptyTail, readsTail⟩ :=
        ih fun b member => each b (List.mem_cons_of_mem _ member)
      refine ⟨bytes :: contents, ?_, ?_, ?_⟩
      · rw [List.mapM_cons, encoded, encodedTail]
        rfl
      · exact fun member => (List.mem_cons.mp member).elim (nonempty ∘ Eq.symm) nonemptyTail
      · intro size
        rw [List.flatten_cons, List.length_append] at size
        exact .cons (reads (by omega)) (readsTail (by omega))

/-- Items with code behind their number. -/
def encodeCounted {β : Type} (encode : β → Except LookupError Bytes) (items : List β) :
    Except LookupError Bytes := do
  let contents ← items.mapM encode
  return Codec.u32.encode (UInt32.ofNat items.length) ++ contents.flatten

theorem recovers_counted {α β : Type} {d : Decoder α} {encode : β → Except LookupError Bytes}
    {value : β → α} {items : List β} (what : String) {limit : UInt32}
    (bounded : items.length ≤ limit.toNat)
    (each : ∀ b ∈ items, Recovers d (encode b) (value b)) :
    Recovers (Codec.counted what limit d) (encodeCounted encode items) (items.map value) := by
  obtain ⟨contents, encoded, nonempty, reads⟩ := recovers_all each
  refine ⟨Codec.u32.encode (UInt32.ofNat items.length) ++ contents.flatten, ?_, ?_, ?_⟩
  · rw [encodeCounted, encoded]
    rfl
  · exact List.append_ne_nil_of_left_ne_nil (Leb128.unsigned_ne_nil _) _
  · intro size
    rw [List.length_append] at size
    have same : (items.map value).length = items.length := List.length_map value
    rw [← same]
    exact Codec.reads_countedItems (same ▸ bounded) nonempty (reads (by omega))

theorem recovers_expr {code : List Instr} (rep : RepresentableExpr code) :
    Recovers expr (encodeExpr code) code := by
  obtain ⟨bytes, encoded, reads⟩ := reads_expr rep
  refine ⟨bytes, encoded, ?_, fun _ => reads⟩
  obtain ⟨body, _, closed⟩ := Except.bind_eq_ok.mp encoded
  cases closed
  simp

/-! ## Imports and exports -/

theorem reads_externKind (kind : ExternKind) : Reads externKind [kind.toByte] kind := by
  refine Reads.atOffset fun start => Reads.byteBind ?_
  cases kind <;> exact Reads.pure _

theorem reads_importType {type : ImportType} (rep : type.Representable) :
    Reads importType type.encode type := by
  cases type with
  | func index => exact (reads_externKind .func).bind (Codec.reads_u32 index).bindPure
  | table type => exact (reads_externKind .table).bind (Codec.reads_tableType rep).bindPure
  | memory type => exact (reads_externKind .memory).bind (Codec.reads_memoryType rep).bindPure
  | global type => exact (reads_externKind .global).bind (Codec.reads_globalType type).bindPure

theorem reads_importItem {i : Import} (rep : i.type.Representable)
    (size : i.encode.length < 2 ^ 32) : Reads importItem i.encode i := by
  simp only [Import.encode, List.length_append] at size
  rw [Import.encode, List.append_assoc]
  refine Reads.bind (Codec.reads_string (by omega)) ?_
  refine Reads.bind (Codec.reads_string (by omega)) ?_
  exact (reads_importType rep).bindPure

theorem Import.encode_ne_nil (i : Import) : i.encode ≠ [] :=
  List.append_ne_nil_of_left_ne_nil
    (List.append_ne_nil_of_left_ne_nil (Codec.string_ne_nil i.moduleName) _) _

theorem reads_exportItem {e : Export} (size : e.encode.length < 2 ^ 32) :
    Reads exportItem e.encode e := by
  simp only [Export.encode, List.length_append] at size
  refine Reads.bind (Codec.reads_string (by omega)) ?_
  exact (reads_externKind e.kind).bind (Codec.reads_u32 e.index).bindPure

theorem Export.encode_ne_nil (e : Export) : e.encode ≠ [] :=
  List.append_ne_nil_of_left_ne_nil (Codec.string_ne_nil e.name) _

/-! ## Globals -/

theorem recovers_global {g : Global} (rep : RepresentableExpr g.init) :
    Recovers Decoder.global g.encode g := by
  obtain ⟨init, encoded, reads⟩ := reads_expr rep
  refine ⟨Codec.globalType.encode g.type ++ init, ?_, by simp [Codec.globalType], fun _ => ?_⟩
  · rw [Global.encode, encoded]
    rfl
  · exact (Codec.reads_globalType g.type).bind reads.bindPure

/-! ## Element segments -/

theorem recovers_exprs {exprs : List (List Instr)}
    (count : exprs.length ≤ Bound.elementEntries.toNat)
    (rep : ∀ code ∈ exprs, RepresentableExpr code) :
    Recovers (Codec.counted "element entries" Bound.elementEntries expr) (encodeExprs exprs)
      exprs := by
  have all := recovers_counted "element entries" count fun code member =>
    recovers_expr (rep code member)
  rwa [List.map_id'] at all

/-- What is written in front of the entries of a segment: flags that ask for
expressions, and the mode and the type as far as the flags leave them open. -/
structure ElementSegment.Front (segment : ElementSegment) (flags : UInt32)
    (modeBytes typeBytes : Bytes) : Prop where
  expressions : 4 ≤ flags
  written : ∀ entries, encodeExprs segment.init = .ok entries →
    segment.encode = .ok (Codec.u32.encode flags ++ modeBytes ++ typeBytes ++ entries)
  readsMode : ∀ start, Reads (elementMode start flags) modeBytes segment.mode
  readsType : Reads (elementType flags) typeBytes segment.type

theorem ElementSegment.exists_front {segment : ElementSegment}
    (rep : segment.mode.Representable) (isRef : segment.type.isRef = true) :
    ∃ flags modeBytes typeBytes, segment.Front flags modeBytes typeBytes := by
  have readsType := Codec.reads_refType isRef
  obtain ⟨mode, type, init⟩ := segment
  cases mode with
  | active tableIndex start =>
      obtain ⟨startBytes, encodedStart, readsStart⟩ := reads_expr rep
      by_cases first : tableIndex = 0 ∧ type = .funcRef
      · -- Neither the table nor the type is written, and the reader fills in both.
        obtain ⟨rfl, rfl⟩ := first
        refine ⟨4, startBytes, [], by decide, ?_, fun _ => readsStart.bindPure, Reads.pure _⟩
        intro entries encoded
        simp [ElementSegment.encode, encodedStart, encoded]
      · refine ⟨6, Codec.u32.encode tableIndex ++ startBytes, Codec.valType.encode type,
          by decide, ?_, fun _ => (Codec.reads_u32 tableIndex).bind readsStart.bindPure, readsType⟩
        intro entries encoded
        simp [ElementSegment.encode, encodedStart, encoded, first]
  | passive =>
      refine ⟨5, [], Codec.valType.encode type, by decide, ?_, fun _ => Reads.pure _, readsType⟩
      intro entries encoded
      simp [ElementSegment.encode, encoded]
  | declarative =>
      refine ⟨7, [], Codec.valType.encode type, by decide, ?_, fun _ => Reads.pure _, readsType⟩
      intro entries encoded
      simp [ElementSegment.encode, encoded]

/-- Behind what stands in front of them, the entries are expressions. -/
theorem ElementSegment.Front.reads {segment : ElementSegment} {flags : UInt32}
    {modeBytes typeBytes entries : Bytes} (front : segment.Front flags modeBytes typeBytes)
    (h : Reads (Codec.counted "element entries" Bound.elementEntries expr) entries segment.init) :
    Reads elementSegment (Codec.u32.encode flags ++ (modeBytes ++ (typeBytes ++ entries)))
      segment := by
  refine Reads.atOffset fun start => Reads.bind (Codec.reads_u32 flags) ?_
  refine Reads.bind (front.readsMode start) (Reads.bind front.readsType ?_)
  rw [if_pos front.expressions]
  exact h.bindPure

theorem recovers_elementSegment {segment : ElementSegment} (rep : segment.Representable) :
    Recovers elementSegment segment.encode segment := by
  obtain ⟨flags, modeBytes, typeBytes, front⟩ :=
    ElementSegment.exists_front rep.mode rep.type
  obtain ⟨entries, encoded, -, readsInit⟩ := recovers_exprs rep.entries rep.init
  refine ⟨_, front.written entries encoded, by simp [Codec.u32, Leb128.unsigned_ne_nil], ?_⟩
  intro size
  simp only [List.length_append] at size
  simp only [List.append_assoc]
  exact front.reads (readsInit (by omega))

/-! ## Data segments -/

/-- A data segment with what its flags ask for in front of its bytes. -/
theorem recovers_flaggedData {segment : DataSegment} (flags : UInt32) {modeBytes : Bytes}
    (written : segment.encode = .ok (Codec.u32.encode flags ++ modeBytes ++
      Codec.byteVector.encode segment.init))
    (readsMode : ∀ start, Reads (dataMode start flags) modeBytes segment.mode) :
    Recovers dataSegment segment.encode segment := by
  refine ⟨_, written, by simp [Codec.u32, Leb128.unsigned_ne_nil], ?_⟩
  intro size
  simp only [List.length_append] at size
  simp only [List.append_assoc]
  refine Reads.atOffset fun start => Reads.bind (Codec.reads_u32 flags) ?_
  exact Reads.bind (readsMode start) (Codec.reads_byteVector (by omega)).bindPure

theorem recovers_dataSegment {segment : DataSegment} (rep : segment.mode.Representable) :
    Recovers dataSegment segment.encode segment := by
  obtain ⟨mode, init⟩ := segment
  cases mode with
  | active memoryIndex start =>
      obtain ⟨startBytes, encodedStart, readsStart⟩ := reads_expr rep
      by_cases first : memoryIndex = 0
      · -- The first memory is not written.
        subst first
        refine recovers_flaggedData 0 ?_ fun _ => readsStart.bindPure
        simp [DataSegment.encode, encodedStart]
      · refine recovers_flaggedData 2 ?_ fun _ =>
          (Codec.reads_u32 memoryIndex).bind readsStart.bindPure
        simp [DataSegment.encode, encodedStart, first]
  | passive =>
      have readsNone : ∀ place, Reads (dataMode place 1) [] .passive := fun _ => Reads.pure _
      refine recovers_flaggedData 1 ?_ readsNone
      simp [DataSegment.encode]

/-! ## Function bodies -/

theorem expandRuns_cons (n : Nat) (type : ValType) (runs : List (Nat × ValType)) :
    expandRuns ((n, type) :: runs) = List.replicate n type ++ expandRuns runs := rfl

/-- Runs of locals declare the locals that they were made from. -/
theorem expandRuns_localRuns (locals : List ValType) :
    expandRuns (localRuns locals) = locals := by
  induction locals with
  | nil => rfl
  | cons type rest ih =>
      rw [localRuns]
      -- Whether the local joins the first run of the rest, stands before it, or is the last.
      split
      · rename_i n other runs found
        rw [found, expandRuns_cons] at ih
        split
        · rename_i same
          rw [expandRuns_cons, same, List.replicate_succ, List.cons_append, ih]
        · rw [expandRuns_cons, expandRuns_cons, ih]
          rfl
      · rename_i found
        rw [found] at ih
        rw [expandRuns_cons, ← ih]
        rfl

/-- The number of locals that runs declare. -/
def runTotal (runs : List (Nat × ValType)) : Nat := (runs.map (·.1)).sum

theorem length_expandRuns (runs : List (Nat × ValType)) :
    (expandRuns runs).length = runTotal runs := by
  simp [expandRuns, runTotal, List.length_flatMap]

/-- No run is empty, so there are no more runs than locals. -/
theorem length_localRuns_le (locals : List ValType) :
    (localRuns locals).length ≤ locals.length := by
  induction locals with
  | nil => simp [localRuns]
  | cons type rest ih =>
      rw [localRuns]
      split
      · rename_i n other runs found
        rw [found, List.length_cons] at ih
        split <;> simp only [List.length_cons] <;> omega
      · simp

/-- One run of locals as it is written. -/
def encodeRun (run : Nat × ValType) : Bytes :=
  Codec.u32.encode (UInt32.ofNat run.1) ++ Codec.valType.encode run.2

/-- Runs that stay within the bound on locals, after those read before. -/
theorem reads_runs {items : List (Nat × ValType)} {total : Nat}
    (bounded : total + runTotal items ≤ Bound.locals.toNat) :
    Reads (runs items.length total) (items.flatMap encodeRun) items := by
  induction items generalizing total with
  | nil => exact Reads.pure []
  | cons run rest ih =>
      obtain ⟨n, type⟩ := run
      have sum : runTotal ((n, type) :: rest) = n + runTotal rest := by simp [runTotal]
      have small : n < 2 ^ 32 := by
        have := UInt32.toNat_lt Bound.locals
        omega
      have toNat : (UInt32.ofNat n).toNat = n := UInt32.toNat_ofNat_of_lt' small
      rw [List.flatMap_cons, encodeRun, List.append_assoc]
      refine Reads.atOffset fun start => Reads.bind (Codec.reads_u32 _) ?_
      refine Reads.bind (Codec.reads_valType type) ?_
      simp only [toNat]
      -- The reader holds the sum so far against the bound, not the single run.
      rw [if_neg (by omega)]
      exact (ih (by omega)).bindPure

theorem length_le_length_encodeRuns (items : List (Nat × ValType)) :
    items.length ≤ (items.flatMap encodeRun).length := by
  have nonempty : [] ∉ items.map encodeRun := by simp [encodeRun, Codec.valType]
  have present := Codec.length_le_length_flatten nonempty
  rwa [List.length_map, ← List.flatMap_def] at present

/-- The declarations of locals behind their number. -/
theorem reads_localDeclarations {items : List (Nat × ValType)}
    (few : items.length ≤ Bound.locals.toNat) (bounded : runTotal items ≤ Bound.locals.toNat) :
    Reads (Codec.count "local declarations" Bound.locals >>= fun n => runs n 0)
      (Codec.encodeList encodeRun items) items := by
  rw [Codec.encodeList,
    Codec.encode_length (Nat.lt_of_le_of_lt few (UInt32.toNat_lt Bound.locals))]
  exact Codec.reads_countBind (Codec.reads_length few) few (length_le_length_encodeRuns items)
    (reads_runs (by omega))

/-- The declarations of locals and the code behind them. -/
def localsAndCode : Decoder (List ValType × List Instr) := do
  let n ← Codec.count "local declarations" Bound.locals
  let runs ← runs n 0
  let code ← expr
  return (expandRuns runs, code)

theorem functionBody_eq : functionBody = (do
    let size ← Codec.u32.decode
    let start ← offset
    if ← hasAtLeast size.toNat then
      let result ← localsAndCode
      let stop ← offset
      if stop - start = size.toNat then return result
      else Decoder.fail (.sizeMismatch size.toNat (stop - start))
    else Decoder.fail .unexpectedEnd) := by
  simp only [functionBody, localsAndCode, bind_assoc, pure_bind]

theorem reads_localsAndCode {locals : List ValType} {code : List Instr}
    {declared codeBytes : Bytes}
    (readsRuns : Reads (Codec.count "local declarations" Bound.locals >>= fun n => runs n 0)
      declared (localRuns locals))
    (readsCode : Reads expr codeBytes code) :
    Reads localsAndCode (declared ++ codeBytes) (locals, code) := by
  rw [localsAndCode, ← bind_assoc]
  refine readsRuns.bind ?_
  rw [expandRuns_localRuns]
  exact readsCode.bindPure

/-- A body of the size that stands in front of it. -/
theorem reads_functionBody {content : Bytes} {body : List ValType × List Instr}
    (size : (Codec.byteVector.encode content).length < 2 ^ 32)
    (h : Reads localsAndCode content body) :
    Reads functionBody (Codec.byteVector.encode content) body := by
  have length : (Codec.byteVector.encode content).length = _ := List.length_append
  have toNat : (UInt32.ofNat content.length).toNat = content.length :=
    UInt32.toNat_ofNat_of_lt' (show content.length < 2 ^ 32 by omega)
  rw [functionBody_eq]
  refine Reads.bind (Codec.reads_u32 _) ?_
  intro start rest id
  have there : Bytes.hasAtLeast content.length (content ++ rest) := by simp
  rw [offset_bind, toNat, hasAtLeast_bind, there, if_pos rfl, bind_ok (h start rest id),
    offset_bind, if_pos (by rw [Nat.add_sub_cancel_left])]
  rfl

/-- The locals and the code of a body, behind each other. -/
theorem recovers_functionBody {f : Func} (rep : f.Representable) :
    Recovers functionBody f.encodeBody (f.locals, f.body) := by
  obtain ⟨code, encoded, readsCode⟩ := reads_expr rep.body
  have few : (localRuns f.locals).length ≤ Bound.locals.toNat :=
    (length_localRuns_le f.locals).trans rep.locals
  have total : runTotal (localRuns f.locals) ≤ Bound.locals.toNat := by
    rw [← length_expandRuns, expandRuns_localRuns]
    exact rep.locals
  refine ⟨Codec.byteVector.encode (Codec.encodeList encodeRun (localRuns f.locals) ++ code),
    ?_, ?_, fun size => ?_⟩
  · rw [Func.encodeBody, encoded]
    rfl
  · exact List.append_ne_nil_of_left_ne_nil (Leb128.unsigned_ne_nil _) _
  · exact reads_functionBody size
      (reads_localsAndCode (reads_localDeclarations few total) readsCode)

/-! ## Custom sections -/

/-- The data of a custom section is all that follows its name. -/
theorem readsAll_customSection {custom : CustomSection} (size : custom.encode.length < 2 ^ 32) :
    ReadsAll customSection custom.encode custom := by
  rw [CustomSection.encode, List.length_append] at size
  exact ReadsAll.bind (Codec.reads_string (by omega)) (ReadsAll.allBytes custom.data).bindPure

end Wasm
