import Mathlib.Data.List.Induction
import Wasm.Proofs.Binary.Exactly
import Wasm.Proofs.Binary.Local
import Wasm.Proofs.Binary.RoundTrip

/-!
# The grammar of binary modules

A binary module is a header and a sequence of sections, and the grammar says
so without a loop: which bytes frame a section, which sections may stand in
which order, what the decoder of each kind makes of a payload on its own, and
how the contents are put together. The decoder accepts exactly this grammar.

The two directions meet in one description of a step. Reading a section off
the input adds its content to what was read before, and the contents that a
whole sequence adds up to can be read off the sequence, since no kind but the
custom one occurs twice.
-/

namespace Wasm

open Decoder

/-! ## Sections by kind -/

/-- What a section of a kind holds. -/
abbrev SectionKind.Content : SectionKind → Type
  | .custom => CustomSection
  | .types => List FuncType
  | .imports => List Import
  | .functions => List UInt32
  | .tables => List TableType
  | .memories => List MemoryType
  | .globals => List Global
  | .exports => List Export
  | .start => UInt32
  | .elements => List ElementSegment
  | .code => List (List ValType × List Instr)
  | .data => List DataSegment
  | .dataCount => UInt32

/-- The decoder of a section of a kind. -/
def SectionKind.decoder : (kind : SectionKind) → Decoder kind.Content
  | .custom => customSection
  | .types => Codec.counted "types" Bound.types Codec.funcType.decode
  | .imports => Codec.counted "imports" Bound.imports importItem
  | .functions => Codec.counted "functions" Bound.functions Codec.u32.decode
  | .tables => Codec.counted "tables" Bound.tables Codec.tableType.decode
  | .memories => Codec.counted "memories" Bound.memories Codec.memoryType.decode
  | .globals => Codec.counted "globals" Bound.globals global
  | .exports => Codec.counted "exports" Bound.exports exportItem
  | .start => Codec.u32.decode
  | .elements => Codec.counted "element segments" Bound.elementSegments elementSegment
  | .code => Codec.counted "function bodies" Bound.functions functionBody
  | .data => Codec.counted "data segments" Bound.dataSegments dataSegment
  | .dataCount => Codec.u32.decode

/-- A section as a value. -/
structure DecodedSection where
  kind : SectionKind
  content : kind.Content

/-- The contents of the sections of one kind, in order of appearance. -/
def contentsOf (kind : SectionKind) (sections : List DecodedSection) : List kind.Content :=
  sections.filterMap fun s => if same : s.kind = kind then some (same ▸ s.content) else none

/-- The content of the section of a kind, where there is one. -/
def content? (kind : SectionKind) (sections : List DecodedSection) : Option kind.Content :=
  (contentsOf kind sections).head?

/-- The module that sections make up. A vector without a section is empty, and
the i-th signature goes with the i-th body. -/
def Module.ofSections (sections : List DecodedSection) : Module where
  types := (content? .types sections).getD []
  imports := (content? .imports sections).getD []
  funcs := List.zipWith (fun typeIndex (locals, body) => { typeIndex, locals, body })
    ((content? .functions sections).getD []) ((content? .code sections).getD [])
  tables := (content? .tables sections).getD []
  memories := (content? .memories sections).getD []
  globals := (content? .globals sections).getD []
  exports := (content? .exports sections).getD []
  start := content? .start sections
  elements := (content? .elements sections).getD []
  dataCount := content? .dataCount sections
  data := (content? .data sections).getD []
  customs := contentsOf .custom sections

/-! ## Sections as bytes -/

/-- A section as it stands in the input. -/
structure RawSection where
  id : SectionId
  /-- The spelling of the size. -/
  size : Bytes
  payload : Bytes

def RawSection.bytes (raw : RawSection) : Bytes := raw.id :: (raw.size ++ raw.payload)

/-- `d`, run on the payload alone, takes it to its last byte as `a`. -/
def Decoder.Accepts {α : Type} (d : Decoder α) (payload : Bytes) (a : α) : Prop :=
  ∃ c, d (Cursor.ofInput payload) = .ok a c ∧ c.rest = []

/-- The payload is one for the decoder that the id stands for. -/
structure RawSection.Holds (raw : RawSection) (value : DecodedSection) : Prop where
  id : raw.id = value.kind.id
  payload : value.kind.decoder.Accepts raw.payload value.content

/-- The input is a header followed by sections, each of them of a known kind and
behind a right spelling of its size; but for custom ones they stand in wire
order. -/
structure Framing (input : Bytes) (raws : List RawSection) : Prop where
  bytes : input = magic ++ Bytes.littleEndian 4 formatVersion.toNat ++ raws.flatMap RawSection.bytes
  known : ∀ raw ∈ raws, raw.id ≤ 12
  sized : ∀ raw ∈ raws, Leb128.IsUnsigned 32 raw.size raw.payload.length
  ordered : ((raws.map RawSection.id).filter (· ≠ SectionKind.custom.id)).Pairwise
    fun id id' => SectionId.order id < SectionId.order id'

/-- The data count stands between the elements and the code. -/
example : SectionKind.elements.order < SectionKind.dataCount.order ∧
    SectionKind.dataCount.order < SectionKind.code.order := by decide

/-! ## The payload of a section -/

theorem localAll_decoder (kind : SectionKind) : LocalAll kind.decoder := by
  have law := Local.compositional
  cases kind with
  | custom => exact localAll_customSection
  | types => exact .of_local fun room => (law room).counted (law room).funcType _ _
  | imports => exact .of_local fun room => (law room).counted (law room).importItem _ _
  | functions => exact .of_local fun room => (law room).counted (law room).u32 _ _
  | tables => exact .of_local fun room => (law room).counted (law room).tableType _ _
  | memories => exact .of_local fun room => (law room).counted (law room).memoryType _ _
  | globals => exact .of_local fun room => (law room).counted ((law room).global local_expr) _ _
  | exports => exact .of_local fun room => (law room).counted (law room).exportItem _ _
  | start | dataCount => exact .of_local fun room => (law room).u32
  | elements =>
      exact .of_local fun room => (law room).counted ((law room).elementSegment local_expr) _ _
  | code => exact .of_local fun room => (law room).counted local_functionBody _ _
  | data => exact .of_local fun room => (law room).counted ((law room).dataSegment local_expr) _ _

/-- A payload that is accepted on its own is read wherever it stands. -/
theorem readsAll_of_accepts {α : Type} {d : Decoder α} (law : LocalAll d) {payload : Bytes} {a : α}
    (accepted : d.Accepts payload a) : ReadsAll d payload a := by
  obtain ⟨c, read, done⟩ := accepted
  obtain ⟨used, takes, reads⟩ := law _ a c read
  have whole : payload = used := by simpa [Cursor.ofInput, done] using takes.rest
  rw [whole]
  exact reads done

/-- A payload that is read to its end in the input is accepted on its own. -/
theorem accepts_of_within {α : Type} {d : Decoder α} (law : LocalAll d) {size : Nat}
    {id : SectionId} {a : α} {c c' : Cursor} (there : size ≤ c.rest.length)
    (read : within size id d c = .ok a c') :
    d.Accepts (c.rest.take size) a ∧ c' = c.skip size := by
  rw [Decoder.within] at read
  split at read
  · cases read
  · rename_i value inner result
    split at read
    · rename_i filled
      cases read
      obtain ⟨used, takes, reads⟩ := law _ a inner result
      have length : used.length = size := Nat.add_left_cancel (takes.offset.symm.trans filled)
      have split : c.rest.take size = used ++ inner.rest := takes.rest
      -- As many bytes were taken as there are, so none is left.
      have done : inner.rest = [] := by
        have := congrArg List.length split
        rw [List.length_take_of_le there, List.length_append, length] at this
        exact List.length_eq_zero_iff.mp (by omega)
      rw [done, List.append_nil] at split
      rw [split]
      exact ⟨⟨_, reads done 0 none, rfl⟩, rfl⟩
    · cases read

/-- What becomes of the content is no business of the frame. -/
theorem within_bindPure {α β : Type} (d : Decoder α) (f : α → β) (size : Nat) (id : SectionId) :
    within size id (d >>= fun a => pure (f a)) = (within size id d >>= fun a => pure (f a)) := by
  funext c
  simp only [Decoder.within, bind, EStateM.bind]
  cases d { c with rest := c.rest.take size, sectionId := some id } with
  | error e inner => rfl
  | ok a inner =>
      dsimp only [pure, EStateM.pure]
      split <;> rfl

/-! ## One section -/

namespace SectionContents

/-- The contents with those of one more section. -/
def put (s : SectionContents) : DecodedSection → SectionContents
  | ⟨.custom, custom⟩ => { s with result.customs := s.result.customs ++ [custom] }
  | ⟨.types, types⟩ => { s with result.types := types }
  | ⟨.imports, imports⟩ => { s with result.imports := imports }
  | ⟨.functions, funcTypes⟩ => { s with funcTypes := funcTypes }
  | ⟨.tables, tables⟩ => { s with result.tables := tables }
  | ⟨.memories, memories⟩ => { s with result.memories := memories }
  | ⟨.globals, globals⟩ => { s with result.globals := globals }
  | ⟨.exports, exports⟩ => { s with result.exports := exports }
  | ⟨.start, start⟩ => { s with result.start := some start }
  | ⟨.elements, elements⟩ => { s with result.elements := elements }
  | ⟨.code, bodies⟩ => { s with bodies := bodies }
  | ⟨.data, data⟩ => { s with result.data := data }
  | ⟨.dataCount, count⟩ => { s with result.dataCount := some count }

/-- The contents with the place of a section of a kind remembered. -/
def place (s : SectionContents) (kind : SectionKind) : SectionContents :=
  if kind = .custom then s else { s with lastOrder := kind.order }

/-- A section is read: its place is remembered and its content put in. -/
def add (s : SectionContents) (value : DecodedSection) : SectionContents :=
  (s.place value.kind).put value

/-- A section of a kind may stand behind those read so far. -/
def Admits (s : SectionContents) (kind : SectionKind) : Prop :=
  kind = .custom ∨ s.lastOrder < kind.order

end SectionContents

theorem sectionContent_eq (s : SectionContents) (kind : SectionKind) :
    sectionContent s kind = kind.decoder >>= fun content => pure (s.put ⟨kind, content⟩) := by
  cases kind <;> rfl

theorem id_eq_custom {kind : SectionKind} : kind.id = SectionKind.custom.id ↔ kind = .custom := by
  cases kind <;> decide

theorem id_le (kind : SectionKind) : kind.id ≤ 12 := by
  cases kind <;> decide

theorem kind?_eq_some {id : SectionId} {kind : SectionKind} (found : id.kind? = some kind) :
    id = kind.id := by
  rw [SectionId.kind?] at found
  split at found <;> cases found <;> exact UInt8.toNat_inj.mp ‹_›

theorem checkOrder_eq {start : Nat} {kind : SectionKind} {s : SectionContents}
    (admitted : s.Admits kind) : checkOrder start kind.id s = pure (s.place kind) := by
  simp only [checkOrder, SectionContents.place, order_id, id_eq_custom]
  by_cases custom : kind = .custom
  · rw [if_pos custom, if_pos custom]
  · have later := admitted.resolve_left custom
    rw [if_neg custom, if_neg custom, if_neg (UInt8.not_le.mpr later)]

/-- A section of the grammar is read, and its content is added. -/
theorem RawSection.reads {raw : RawSection} {value : DecodedSection} {s : SectionContents}
    (holds : raw.Holds value) (sized : Leb128.IsUnsigned 32 raw.size raw.payload.length)
    (admitted : s.Admits value.kind) : Reads (nextSection s) raw.bytes (s.add value) := by
  rw [RawSection.bytes, holds.id]
  refine reads_section (fun start => checkOrder_eq admitted) sized.fits (sized.reads.map _) ?_
  rw [sectionContent_eq]
  exact (readsAll_of_accepts (localAll_decoder _) holds.payload).bindPure

theorem checkOrder_eq_ok {start : Nat} {kind : SectionKind} {s s₁ : SectionContents} {c c' : Cursor}
    (checked : checkOrder start kind.id s c = .ok s₁ c') :
    s.Admits kind ∧ s₁ = s.place kind ∧ c' = c := by
  simp only [checkOrder, order_id, id_eq_custom] at checked
  rw [SectionContents.Admits, SectionContents.place]
  split at checked
  · rename_i custom
    cases checked
    exact ⟨.inl custom, (if_pos custom).symm, rfl⟩
  · rename_i custom
    split at checked
    · cases checked
    · rename_i later
      cases checked
      exact ⟨.inr (UInt8.not_le.mp later), (if_neg custom).symm, rfl⟩

/-- What the reader takes for a section is a section of the grammar. -/
theorem nextSection_eq_ok {s s' : SectionContents} {c c' : Cursor}
    (read : nextSection s c = .ok s' c') :
    ∃ (raw : RawSection) (value : DecodedSection), c.rest = raw.bytes ++ c'.rest ∧
      raw.Holds value ∧ Leb128.IsUnsigned 32 raw.size raw.payload.length ∧
      s.Admits value.kind ∧ s' = s.add value := by
  rw [nextSection, offset_bind] at read
  obtain ⟨id, c₁, first, read⟩ := EStateM.bind_eq_ok.mp read
  obtain ⟨size, c₂, second, read⟩ := EStateM.bind_eq_ok.mp read
  obtain ⟨split₁, -⟩ := byte_eq_ok first
  obtain ⟨spelt, split₂, spelling⟩ := Codec.exactly_u32.only _ _ _ second
  rw [hasAtLeast_bind] at read
  split at read
  · rename_i enough
    have there := (Bytes.hasAtLeast_iff _ _).mp enough
    obtain ⟨s₁, c₃, checked, inside⟩ := EStateM.bind_eq_ok.mp read
    cases found : SectionId.kind? id with
    | none =>
        rw [found] at inside
        cases inside
    | some kind =>
        rw [found] at inside
        cases kind?_eq_some found
        obtain ⟨admitted, rfl, rfl⟩ := checkOrder_eq_ok checked
        simp only [sectionContent_eq, within_bindPure] at inside
        obtain ⟨content, c₄, inside, done⟩ := EStateM.bind_eq_ok.mp inside
        cases done
        obtain ⟨accepted, moved⟩ := accepts_of_within (localAll_decoder kind) there inside
        have length := List.length_take_of_le there
        refine ⟨⟨kind.id, spelt, c₃.rest.take size.toNat⟩, ⟨kind, content⟩, ?_, ⟨rfl, accepted⟩,
          ?_, admitted, rfl⟩
        · rw [split₁, split₂, moved, RawSection.bytes, Cursor.skip]
          simp only [List.cons_append, List.append_assoc, List.take_append_drop]
        · rwa [length]
  · cases read

/-! ## All sections -/

/-- The places in the wire order of all sections but the custom ones. -/
def orders (sections : List DecodedSection) : List UInt8 :=
  ((sections.map DecodedSection.kind).filter (· ≠ .custom)).map SectionKind.order

theorem SectionContents.put_lastOrder (s : SectionContents) (value : DecodedSection) :
    (s.put value).lastOrder = s.lastOrder := by
  obtain ⟨kind, content⟩ := value
  cases kind <;> rfl

/-- Sections are in order when the first one may stand where it does and the
others are in order behind it. -/
theorem ordered_cons {s : SectionContents} {value : DecodedSection} {rest : List DecodedSection} :
    (s.lastOrder :: orders (value :: rest)).Pairwise (· < ·) ↔
      s.Admits value.kind ∧ ((s.add value).lastOrder :: orders rest).Pairwise (· < ·) := by
  rw [SectionContents.add, SectionContents.put_lastOrder, SectionContents.place,
    SectionContents.Admits]
  by_cases custom : value.kind = .custom
  · simp [orders, custom]
  · have cons : orders (value :: rest) = value.kind.order :: orders rest := by
      simp [orders, custom]
    rw [if_neg custom, cons, List.pairwise_cons, List.forall_mem_cons]
    constructor
    · rintro ⟨⟨later, -⟩, others⟩
      exact ⟨.inr later, others⟩
    · rintro ⟨admitted, others⟩
      have later := admitted.resolve_left custom
      refine ⟨⟨later, fun order member => ?_⟩, others⟩
      exact UInt8.lt_trans later ((List.pairwise_cons.mp others).1 order member)

/-- What the loop reads is a sequence of sections of the grammar. -/
theorem sections_eq_ok {fuel : Nat} {s s' : SectionContents} {c c' : Cursor}
    (read : sections fuel s c = .ok s' c') :
    ∃ (raws : List RawSection) (values : List DecodedSection),
      c.rest = raws.flatMap RawSection.bytes ∧ List.Forall₂ RawSection.Holds raws values ∧
      (∀ raw ∈ raws, Leb128.IsUnsigned 32 raw.size raw.payload.length) ∧
      (s.lastOrder :: orders values).Pairwise (· < ·) ∧
      s' = values.foldl SectionContents.add s := by
  induction fuel generalizing s c with
  | zero => cases read
  | succ fuel ih =>
      rw [sections, hasAtLeast_bind] at read
      split at read
      · obtain ⟨s₁, c₁, first, read⟩ := EStateM.bind_eq_ok.mp read
        obtain ⟨raw, value, split, holds, sized, admitted, rfl⟩ := nextSection_eq_ok first
        obtain ⟨raws, values, rest, allHold, allSized, ordered, rfl⟩ := ih read
        refine ⟨raw :: raws, value :: values, ?_, .cons holds allHold, ?_, ?_, rfl⟩
        · rw [split, rest, List.flatMap_cons]
        · exact List.forall_mem_cons.mpr ⟨sized, allSized⟩
        · exact ordered_cons.mpr ⟨admitted, ordered⟩
      · cases read
        rename_i few
        refine ⟨[], [], ?_, .nil, List.forall_mem_nil _, List.pairwise_singleton _ _, rfl⟩
        simpa using few

/-- A sequence of sections of the grammar is read by the loop. -/
theorem readsSections_of_holds {raws : List RawSection} {values : List DecodedSection}
    (holds : List.Forall₂ RawSection.Holds raws values)
    (sized : ∀ raw ∈ raws, Leb128.IsUnsigned 32 raw.size raw.payload.length)
    {s : SectionContents} (ordered : (s.lastOrder :: orders values).Pairwise (· < ·)) :
    ReadsSections (raws.flatMap RawSection.bytes) s (values.foldl SectionContents.add s) := by
  induction holds generalizing s with
  | nil => exact ReadsSections.nil s
  | cons first _ ih =>
      obtain ⟨size, sizes⟩ := List.forall_mem_cons.mp sized
      obtain ⟨admitted, ordered⟩ := ordered_cons.mp ordered
      have head := ReadsSections.single (List.cons_ne_nil _ _)
        (RawSection.reads first size admitted)
      rw [List.flatMap_cons]
      exact head.append (ih sizes ordered)

/-! ## The contents of a sequence -/

theorem contentsOf_append (kind : SectionKind) (front back : List DecodedSection) :
    contentsOf kind (front ++ back) = contentsOf kind front ++ contentsOf kind back :=
  List.filterMap_append

theorem content?_append (kind : SectionKind) (front back : List DecodedSection) :
    content? kind (front ++ back) = (content? kind front).or (content? kind back) := by
  rw [content?, contentsOf_append, List.head?_append]
  rfl

theorem content?_single (kind : SectionKind) (content : kind.Content) :
    content? kind [⟨kind, content⟩] = some content := by
  simp [content?, contentsOf]

theorem contentsOf_single_of_ne {kind : SectionKind} {value : DecodedSection}
    (other : value.kind ≠ kind) : contentsOf kind [value] = [] := by
  simp [contentsOf, other]

/-- The contents that a sequence of sections adds up to. -/
def SectionContents.ofSections (sections : List DecodedSection) (place : UInt8) :
    SectionContents where
  result := { Module.ofSections sections with funcs := [] }
  funcTypes := (content? .functions sections).getD []
  bodies := (content? .code sections).getD []
  lastOrder := place

/-- A section is put behind a sequence in which its kind does not occur. -/
theorem SectionContents.put_ofSections {sections : List DecodedSection} {value : DecodedSection}
    (fresh : value.kind ≠ .custom → content? value.kind sections = none) (place : UInt8) :
    (ofSections sections place).put value = ofSections (sections ++ [value]) place := by
  obtain ⟨kind, content⟩ := value
  cases kind with
  | custom =>
      simp only [put, ofSections, Module.ofSections, content?_append, contentsOf_append]
      simp [content?, contentsOf]
  | _ =>
      have absent := fresh nofun
      simp only at absent
      simp only [put, ofSections, Module.ofSections, content?_append, contentsOf_append, absent,
        content?_single]
      simp [content?, contentsOf_single_of_ne]

theorem SectionContents.place_ofSections (sections : List DecodedSection) (place : UInt8)
    (kind : SectionKind) : ∃ place', (ofSections sections place).place kind =
      ofSections sections place' := by
  rw [SectionContents.place]
  split
  · exact ⟨place, rfl⟩
  · exact ⟨kind.order, rfl⟩

/-- Of the sections before one that may stand where it does, none has its kind. -/
theorem content?_eq_none_of_ordered {sections : List DecodedSection} {value : DecodedSection}
    (ordered : (orders (sections ++ [value])).Pairwise (· < ·)) (listed : value.kind ≠ .custom) :
    content? value.kind sections = none := by
  have split : orders (sections ++ [value]) = orders sections ++ [value.kind.order] := by
    simp [orders, listed]
  rw [split, List.pairwise_append] at ordered
  rw [content?, List.head?_eq_none_iff, contentsOf, List.filterMap_eq_nil_iff]
  intro earlier member
  refine dif_neg fun same => ?_
  have place : value.kind.order ∈ orders sections := by
    refine List.mem_map_of_mem (List.mem_filter.mpr ⟨List.mem_map.mpr ⟨earlier, member, same⟩, ?_⟩)
    simpa using listed
  exact UInt8.lt_irrefl _ (ordered.2.2 _ place _ (List.mem_singleton_self _))

/-- What a sequence in wire order adds up to can be read off it. The induction
takes the last section away, which was added to the contents of the others. -/
theorem foldl_add {sections : List DecodedSection}
    (ordered : (orders sections).Pairwise (· < ·)) :
    ∃ place, sections.foldl SectionContents.add {} =
      SectionContents.ofSections sections place := by
  induction sections using List.reverseRecOn with
  | nil => exact ⟨0, rfl⟩
  | append_singleton front last ih =>
      have fresh := content?_eq_none_of_ordered ordered
      have before : (orders front).Pairwise (· < ·) := by
        refine ordered.sublist (List.Sublist.map _ (List.Sublist.filter _ ?_))
        rw [List.map_append]
        exact List.sublist_append_left _ _
      obtain ⟨place, others⟩ := ih before
      obtain ⟨place', placed⟩ := SectionContents.place_ofSections front place last.kind
      rw [List.foldl_append, others]
      refine ⟨place', ?_⟩
      rw [List.foldl_cons, List.foldl_nil, SectionContents.add, placed]
      exact SectionContents.put_ofSections fresh place'

theorem joinFuncs_ofSections {sections : List DecodedSection} (place : UInt8)
    (paired : ((content? .functions sections).getD []).length =
      ((content? .code sections).getD []).length) :
    joinFuncs (.ofSections sections place) = pure (Module.ofSections sections) := by
  rw [joinFuncs, SectionContents.ofSections, if_pos paired, List.map_zip_eq_zipWith]
  rfl

/-! ## The header -/

/-- Four bytes that denote the version are those that are written for it. -/
theorem littleEndian_of_version {bs : Bytes} (four : bs.length = 4)
    (version : UInt32.ofNat (Bytes.toNatLE bs) = formatVersion) :
    bs = Bytes.littleEndian 4 formatVersion.toNat := by
  have small := Bytes.toNatLE_lt bs
  rw [four] at small
  rw [← version, UInt32.toNat_ofNat_of_lt' small, ← four,
    Bytes.littleEndian_toNatLE]

theorem header_eq_ok {c c' : Cursor} (read : header c = .ok () c') :
    c.rest = magic ++ Bytes.littleEndian 4 formatVersion.toNat ++ c'.rest := by
  rw [header, hasAtLeast_bind] at read
  split at read
  · obtain ⟨lead, c₁, first, read⟩ := EStateM.bind_eq_ok.mp read
    obtain ⟨-, split₁, -⟩ := bytes_eq_ok first
    dsimp only at read
    split at read
    · rename_i isMagic
      rw [offset_bind] at read
      obtain ⟨bs, c₂, second, read⟩ := EStateM.bind_eq_ok.mp read
      obtain ⟨four, split₂, -⟩ := bytes_eq_ok second
      split at read
      · rename_i version
        cases read
        rw [split₁, split₂, isMagic, littleEndian_of_version four version, List.append_assoc]
      · cases read
    · cases read
  · cases read

/-! ## Whole modules -/

theorem joinFuncs_eq_ok {s : SectionContents} {m : Module} {c c' : Cursor}
    (joined : joinFuncs s c = .ok m c') : s.funcTypes.length = s.bodies.length := by
  rw [joinFuncs] at joined
  split at joined
  · assumption
  · cases joined

theorem known_of_holds {raws : List RawSection} {sections : List DecodedSection}
    (holds : List.Forall₂ RawSection.Holds raws sections) : ∀ raw ∈ raws, raw.id ≤ 12 := by
  induction holds with
  | nil => exact List.forall_mem_nil _
  | cons first _ ih => exact List.forall_mem_cons.mpr ⟨first.id ▸ id_le _, ih⟩

theorem map_id_of_holds {raws : List RawSection} {sections : List DecodedSection}
    (holds : List.Forall₂ RawSection.Holds raws sections) :
    raws.map RawSection.id = (sections.map DecodedSection.kind).map SectionKind.id := by
  induction holds with
  | nil => rfl
  | cons first _ ih => rw [List.map_cons, List.map_cons, List.map_cons, ih, first.id]

/-- The places of sections in the input are those of their kinds. -/
theorem ordered_iff {raws : List RawSection} {sections : List DecodedSection}
    (holds : List.Forall₂ RawSection.Holds raws sections) :
    ((raws.map RawSection.id).filter (· ≠ SectionKind.custom.id)).Pairwise
      (fun id id' => SectionId.order id < SectionId.order id') ↔
      (orders sections).Pairwise (· < ·) := by
  have ids := map_id_of_holds holds
  have listed : (fun id => decide (id ≠ SectionKind.custom.id)) ∘ SectionKind.id =
      fun kind => decide (kind ≠ .custom) := by
    funext kind
    simp [id_eq_custom]
  rw [ids, List.filter_map, listed, orders, List.pairwise_map, List.pairwise_map]
  simp only [order_id]

theorem orders_pos {sections : List DecodedSection} : ∀ order ∈ orders sections, 0 < order := by
  intro order member
  obtain ⟨kind, listed, rfl⟩ := List.mem_map.mp member
  have ordered : kind ≠ .custom := by simpa using List.of_mem_filter listed
  revert ordered
  cases kind <;> decide

/-- What is accepted is in the grammar. -/
theorem Module.exists_framing_of_decode {input : Bytes} {m : Module}
    (decoded : Module.decode input = .ok m) :
    ∃ (raws : List RawSection) (sections : List DecodedSection),
      Framing input raws ∧ List.Forall₂ RawSection.Holds raws sections ∧
      ((content? .functions sections).getD []).length =
        ((content? .code sections).getD []).length ∧
      m = Module.ofSections sections := by
  rw [Module.decode] at decoded
  split at decoded
  · rename_i result c read
    cases decoded
    obtain ⟨⟨⟩, c₁, lead, read⟩ := EStateM.bind_eq_ok.mp read
    rw [remaining_bind] at read
    obtain ⟨s, c₂, loop, joined⟩ := EStateM.bind_eq_ok.mp read
    obtain ⟨raws, sections, rest, holds, sized, ordered, rfl⟩ := sections_eq_ok loop
    have ordered := (List.pairwise_cons.mp ordered).2
    obtain ⟨place, contents⟩ := foldl_add ordered
    rw [contents] at joined
    have paired := joinFuncs_eq_ok joined
    rw [joinFuncs_ofSections place paired] at joined
    cases joined
    have framed := header_eq_ok lead
    rw [rest] at framed
    have framing : Framing input raws :=
      ⟨framed, known_of_holds holds, sized, (ordered_iff holds).mpr ordered⟩
    exact ⟨raws, sections, framing, holds, paired, rfl⟩
  · cases decoded

/-- What is in the grammar is accepted. -/
theorem Module.decode_of_framing {input : Bytes} {raws : List RawSection}
    {sections : List DecodedSection} (framing : Framing input raws)
    (holds : List.Forall₂ RawSection.Holds raws sections)
    (paired : ((content? .functions sections).getD []).length =
      ((content? .code sections).getD []).length) :
    Module.decode input = .ok (Module.ofSections sections) := by
  have ordered := (ordered_iff holds).mp framing.ordered
  obtain ⟨place, contents⟩ := foldl_add ordered
  have behind : (({} : SectionContents).lastOrder :: orders sections).Pairwise (· < ·) :=
    List.pairwise_cons.mpr ⟨orders_pos, ordered⟩
  have read := readsSections_of_holds holds framing.sized behind
  rw [contents] at read
  rw [framing.bytes]
  exact decode_of_readsSections read (joinFuncs_ofSections place paired)

/-- The decoder accepts exactly the byte strings that the grammar frames, and
returns the module that their sections make up. -/
theorem Module.decode_eq_ok_iff (input : Bytes) (m : Module) :
    Module.decode input = .ok m ↔
      ∃ (raws : List RawSection) (sections : List DecodedSection),
        Framing input raws ∧ List.Forall₂ RawSection.Holds raws sections ∧
        ((content? .functions sections).getD []).length =
          ((content? .code sections).getD []).length ∧
        m = Module.ofSections sections := by
  constructor
  · exact Module.exists_framing_of_decode
  · rintro ⟨raws, sections, framing, holds, paired, rfl⟩
    exact Module.decode_of_framing framing holds paired

end Wasm
