import Wasm.Proofs.Binary.Grammar

/-!
# Custom sections are transparent

A custom section can be put into an input wherever a section ends, and taken
out again. The decoder accepts the input with it exactly if it accepts the
input without it, and the two modules differ in this one record, which stands
among the others where its section does.

An input can be cut into sections in one way only, so where its sections end
does not depend on what is in them.
-/

namespace Wasm

open Decoder

/-! ## Cutting an input into sections -/

/-- A section with the right size is told from what follows it. -/
theorem RawSection.eq_of_append_eq {raw raw' : RawSection} {rest rest' : Bytes}
    (sized : Leb128.IsUnsigned 32 raw.size raw.payload.length)
    (sized' : Leb128.IsUnsigned 32 raw'.size raw'.payload.length)
    (same : raw.bytes ++ rest = raw'.bytes ++ rest') : raw = raw' ∧ rest = rest' := by
  obtain ⟨id, size, payload⟩ := raw
  obtain ⟨id', size', payload'⟩ := raw'
  simp only [RawSection.bytes, List.cons_append, List.append_assoc, List.cons.injEq] at same
  obtain ⟨rfl, same⟩ := same
  obtain ⟨length, sizes, payloads⟩ := sized.reads.unique sized'.reads same
  obtain ⟨rfl, rfl⟩ := List.append_inj payloads length
  obtain rfl : size = size' := sizes
  exact ⟨rfl, rfl⟩

/-- Sections that an input begins with are the first ones of all its sections. -/
theorem exists_sections_behind {raws all : List RawSection} {back : Bytes}
    (sized : ∀ raw ∈ raws, Leb128.IsUnsigned 32 raw.size raw.payload.length)
    (sizedAll : ∀ raw ∈ all, Leb128.IsUnsigned 32 raw.size raw.payload.length)
    (same : raws.flatMap RawSection.bytes ++ back = all.flatMap RawSection.bytes) :
    ∃ behind, all = raws ++ behind ∧ back = behind.flatMap RawSection.bytes := by
  induction raws generalizing all with
  | nil => exact ⟨all, rfl, same⟩
  | cons raw raws ih =>
      obtain ⟨size, sizes⟩ := List.forall_mem_cons.mp sized
      rw [List.flatMap_cons, List.append_assoc] at same
      cases all with
      | nil => cases same
      | cons first others =>
          obtain ⟨size', sizes'⟩ := List.forall_mem_cons.mp sizedAll
          rw [List.flatMap_cons] at same
          obtain ⟨rfl, rest⟩ := RawSection.eq_of_append_eq size size' same
          obtain ⟨behind, rfl, split⟩ := ih sizes sizes' rest
          exact ⟨behind, rfl, split⟩

/-- Eight bytes and sections that a framed input begins with are its header and
its first sections. -/
theorem Framing.exists_behind {header back : Bytes} {raws all : List RawSection}
    (framing : Framing (header ++ raws.flatMap RawSection.bytes ++ back) all)
    (eight : header.length = 8)
    (sized : ∀ raw ∈ raws, Leb128.IsUnsigned 32 raw.size raw.payload.length) :
    header = magic ++ Bytes.littleEndian 4 formatVersion.toNat ∧
      ∃ behind, all = raws ++ behind ∧ back = behind.flatMap RawSection.bytes := by
  have same := framing.bytes
  rw [List.append_assoc] at same
  obtain ⟨lead, rest⟩ := List.append_inj same eight
  exact ⟨lead, exists_sections_behind sized framing.sized rest⟩

/-! ## One custom section more -/

section Insert

variable {raws behind : List RawSection} {raw : RawSection} {input : Bytes}

/-- The wire order is about the same sections as before. -/
theorem filter_id_insert (custom : raw.id = SectionKind.custom.id) :
    ((raws ++ raw :: behind).map RawSection.id).filter (· ≠ SectionKind.custom.id) =
      ((raws ++ behind).map RawSection.id).filter (· ≠ SectionKind.custom.id) := by
  simp [custom]

theorem Framing.insert (framing : Framing input (raws ++ behind))
    (custom : raw.id = SectionKind.custom.id)
    (sized : Leb128.IsUnsigned 32 raw.size raw.payload.length) :
    Framing (magic ++ Bytes.littleEndian 4 formatVersion.toNat ++
      (raws ++ raw :: behind).flatMap RawSection.bytes) (raws ++ raw :: behind) := by
  have oldOrNew (other : RawSection) (member : other ∈ raws ++ raw :: behind) :
      other = raw ∨ other ∈ raws ++ behind := by
    simp only [List.mem_append, List.mem_cons] at member ⊢
    rcases member with early | same | late
    · exact .inr (.inl early)
    · exact .inl same
    · exact .inr (.inr late)
  refine ⟨rfl, ?_, ?_, ?_⟩
  · intro other member
    rcases oldOrNew other member with rfl | before
    · rw [custom]
      exact id_le _
    · exact framing.known other before
  · intro other member
    rcases oldOrNew other member with rfl | before
    · exact sized
    · exact framing.sized other before
  · rw [filter_id_insert custom]
    exact framing.ordered

theorem Framing.remove (framing : Framing input (raws ++ raw :: behind))
    (custom : raw.id = SectionKind.custom.id) :
    Framing (magic ++ Bytes.littleEndian 4 formatVersion.toNat ++
      (raws ++ behind).flatMap RawSection.bytes) (raws ++ behind) := by
  have still : raws ++ behind ⊆ raws ++ raw :: behind :=
    (List.Sublist.append_left (List.sublist_cons_self raw behind) raws).subset
  refine ⟨rfl, ?_, ?_, ?_⟩
  · intro other member
    exact framing.known other (still member)
  · intro other member
    exact framing.sized other (still member)
  · rw [← filter_id_insert custom]
    exact framing.ordered

end Insert

theorem content?_insert {kind : SectionKind} {value : DecodedSection} (other : value.kind ≠ kind)
    (front back : List DecodedSection) :
    content? kind (front ++ value :: back) = content? kind (front ++ back) := by
  rw [List.append_cons, content?, contentsOf_append, contentsOf_append,
    contentsOf_single_of_ne other, List.append_nil, ← contentsOf_append, content?]

/-- A custom section adds its record to a module and changes nothing else. -/
theorem Module.ofSections_insert (front back : List DecodedSection) (custom : CustomSection) :
    Module.ofSections (front ++ ⟨.custom, custom⟩ :: back) =
      { Module.ofSections (front ++ back) with
        customs := contentsOf .custom front ++ custom :: contentsOf .custom back } := by
  have customs : contentsOf .custom (front ++ ⟨.custom, custom⟩ :: back) =
      contentsOf .custom front ++ custom :: contentsOf .custom back := by
    rw [contentsOf_append]
    rfl
  simp [Module.ofSections, customs, content?_insert]

/-- Custom sections have records, one each, in the order of the input. -/
theorem length_contentsOf_custom {raws : List RawSection} {sections : List DecodedSection}
    (holds : List.Forall₂ RawSection.Holds raws sections) :
    (contentsOf .custom sections).length = raws.countP (·.id = SectionKind.custom.id) := by
  induction holds with
  | nil => rfl
  | @cons raw value raws values first _ ih =>
      rw [← List.singleton_append, contentsOf_append, List.length_append, ih, List.countP_cons,
        Nat.add_comm, first.id]
      by_cases custom : value.kind = .custom
      · simp [contentsOf, custom]
      · simp [contentsOf_single_of_ne custom, id_eq_custom, custom]

/-! ## Well-formed custom sections -/

/-- A custom section as it may stand in an input: the name in UTF-8, and the
data up to where the section ends. -/
structure RawSection.IsCustom (raw : RawSection) (custom : CustomSection) : Prop where
  id : raw.id = SectionKind.custom.id
  sized : Leb128.IsUnsigned 32 raw.size raw.payload.length
  payload : ∃ nameSize, Leb128.IsUnsigned 32 nameSize custom.name.toUTF8.toList.length ∧
    raw.payload = nameSize ++ custom.name.toUTF8.toList ++ custom.data

theorem RawSection.IsCustom.holds {raw : RawSection} {custom : CustomSection}
    (formed : raw.IsCustom custom) : raw.Holds ⟨.custom, custom⟩ := by
  obtain ⟨nameSize, number, split⟩ := formed.payload
  have name : Reads Codec.string.decode (nameSize ++ custom.name.toUTF8.toList) custom.name :=
    Codec.reads_textOf (Codec.reads_bytesBehind number.reads)
  have whole : ReadsAll customSection raw.payload custom := by
    rw [split]
    exact ReadsAll.bind name (ReadsAll.allBytes custom.data).bindPure
  exact ⟨formed.id, _, whole 0 none, rfl⟩

/-! ## Modules -/

section Decode

variable {header back : Bytes} {raws : List RawSection}

/-- What is known of an input that is accepted and begins with these sections. -/
theorem exists_behind_of_decode {m : Module} (eight : header.length = 8)
    (sized : ∀ raw ∈ raws, Leb128.IsUnsigned 32 raw.size raw.payload.length)
    (decoded : Module.decode (header ++ raws.flatMap RawSection.bytes ++ back) = .ok m) :
    header = magic ++ Bytes.littleEndian 4 formatVersion.toNat ∧
      ∃ (behind : List RawSection) (values others : List DecodedSection),
        back = behind.flatMap RawSection.bytes ∧
        Framing (header ++ raws.flatMap RawSection.bytes ++ back) (raws ++ behind) ∧
        List.Forall₂ RawSection.Holds raws values ∧ List.Forall₂ RawSection.Holds behind others ∧
        ((content? .functions (values ++ others)).getD []).length =
          ((content? .code (values ++ others)).getD []).length ∧
        m = Module.ofSections (values ++ others) := by
  obtain ⟨all, sections, framing, holds, paired, made⟩ := Module.exists_framing_of_decode decoded
  obtain ⟨lead, behind, rfl, split⟩ := framing.exists_behind eight sized
  obtain ⟨values, others, rfl, before, after⟩ := holds.split
  exact ⟨lead, behind, values, others, split, framing, before, after, paired, made⟩

variable {raw : RawSection}

/-- An input that is accepted is accepted with a custom section more. -/
theorem Module.decode_insert {m : Module} {custom : CustomSection} (eight : header.length = 8)
    (sized : ∀ raw ∈ raws, Leb128.IsUnsigned 32 raw.size raw.payload.length)
    (formed : raw.IsCustom custom)
    (decoded : Module.decode (header ++ raws.flatMap RawSection.bytes ++ back) = .ok m) :
    ∃ front behind, m.customs = front ++ behind ∧
      front.length = raws.countP (·.id = SectionKind.custom.id) ∧
      Module.decode (header ++ raws.flatMap RawSection.bytes ++ raw.bytes ++ back) =
        .ok { m with customs := front ++ custom :: behind } := by
  obtain ⟨rfl, behind, values, others, rfl, framing, before, after, paired, rfl⟩ :=
    exists_behind_of_decode eight sized decoded
  have more := framing.insert formed.id formed.sized
  have holds : List.Forall₂ RawSection.Holds (raws ++ raw :: behind)
      (values ++ ⟨.custom, custom⟩ :: others) :=
    List.rel_append before (.cons formed.holds after)
  have accepted := decode_of_framing more holds (by simpa [content?_insert] using paired)
  refine ⟨contentsOf .custom values, contentsOf .custom others, contentsOf_append _ _ _,
    length_contentsOf_custom before, ?_⟩
  rw [ofSections_insert] at accepted
  simpa only [List.flatMap_append, List.flatMap_cons, List.append_assoc] using accepted

/-- An input that is accepted is accepted with a custom section less. -/
theorem Module.decode_remove {m : Module} (eight : header.length = 8)
    (sized : ∀ raw ∈ raws, Leb128.IsUnsigned 32 raw.size raw.payload.length)
    (custom : raw.id = SectionKind.custom.id)
    (sizedCustom : Leb128.IsUnsigned 32 raw.size raw.payload.length)
    (decoded : Module.decode (header ++ raws.flatMap RawSection.bytes ++ raw.bytes ++ back) =
      .ok m) :
    ∃ m, Module.decode (header ++ raws.flatMap RawSection.bytes ++ back) = .ok m := by
  have lead : header ++ raws.flatMap RawSection.bytes ++ raw.bytes =
      header ++ (raws ++ [raw]).flatMap RawSection.bytes := by
    rw [List.flatMap_append, List.flatMap_singleton, List.append_assoc]
  have sizedMore := List.forall_mem_append.mpr ⟨sized, List.forall_mem_singleton.mpr sizedCustom⟩
  rw [lead] at decoded
  obtain ⟨rfl, behind, front, others, rfl, framing, holdFront, after, paired, rfl⟩ :=
    exists_behind_of_decode eight sizedMore decoded
  obtain ⟨values, last, rfl, before, single⟩ := holdFront.split
  obtain ⟨value, -, own, ⟨⟩, rfl⟩ := List.forall₂_cons_left_iff.mp single
  have kind : value.kind = .custom := id_eq_custom.mp (own.id.symm.trans custom)
  rw [← List.append_cons] at framing
  have fewer := framing.remove custom
  have holds : List.Forall₂ RawSection.Holds (raws ++ behind) (values ++ others) :=
    List.rel_append before after
  have accepted := decode_of_framing fewer holds (by simpa [content?_insert, kind] using paired)
  rw [List.flatMap_append, ← List.append_assoc] at accepted
  exact ⟨_, accepted⟩

/-- Between the sections of an input, in front of them or behind them, a custom
section is taken for what it is. The input is refused with it exactly if it is
refused without it. Otherwise the module has the custom section among the
others, behind as many as stand before it in the input, and is the same in all
other parts. -/
theorem Module.decode_insert_custom {custom : CustomSection} (eight : header.length = 8)
    (sized : ∀ raw ∈ raws, Leb128.IsUnsigned 32 raw.size raw.payload.length)
    (formed : raw.IsCustom custom) (back : Bytes) :
    let lead := header ++ raws.flatMap RawSection.bytes
    let place := raws.countP (·.id = SectionKind.custom.id)
    ((∃ m, Module.decode (lead ++ back) = .ok m) ↔
        ∃ m, Module.decode (lead ++ raw.bytes ++ back) = .ok m) ∧
      ∀ m m', Module.decode (lead ++ back) = .ok m →
        Module.decode (lead ++ raw.bytes ++ back) = .ok m' →
        place ≤ m.customs.length ∧
          m' = { m with customs := m.customs.insertIdx place custom } := by
  intro lead place
  refine ⟨⟨?_, ?_⟩, ?_⟩
  · rintro ⟨m, decoded⟩
    obtain ⟨front, behind, -, -, more⟩ := decode_insert eight sized formed decoded
    exact ⟨_, more⟩
  · rintro ⟨m, decoded⟩
    exact decode_remove eight sized formed.id formed.sized decoded
  · intro m m' decoded decoded'
    obtain ⟨front, behind, split, length, more⟩ := decode_insert eight sized formed decoded
    cases more.symm.trans decoded'
    have between : front.length = place := length
    rw [split, ← between, List.insertIdx_append_length, List.length_append]
    exact ⟨Nat.le_add_right _ _, rfl⟩

/-- Between a custom section without a name and one of types, with a further one
behind them. Its sizes are spelt longer than they need to be. -/
theorem Module.decode_insert_custom_between :
    let header := magic ++ Bytes.littleEndian 4 formatVersion.toNat
    let first : RawSection := ⟨0, [1], [0]⟩
    let raw : RawSection := ⟨0, [0x85, 0], [0x81, 0, 0x61, 0xAA, 0xBB]⟩
    let back : Bytes := [1, 1, 0, 0, 2, 0, 7]
    let custom : CustomSection := ⟨"a", [0xAA, 0xBB]⟩
    header.length = 8 ∧
      (∀ raw ∈ [first], Leb128.IsUnsigned 32 raw.size raw.payload.length) ∧
      raw.IsCustom custom ∧
      Module.decode (header ++ [first].flatMap RawSection.bytes ++ raw.bytes ++ back) =
        .ok { customs := [⟨"", []⟩, custom, ⟨"", [7]⟩] } := by
  intro header first raw back custom
  have sized : ∀ raw ∈ [first], Leb128.IsUnsigned 32 raw.size raw.payload.length := by
    rw [List.forall_mem_singleton]
    exact ⟨.last (by decide), by decide, by decide⟩
  have text : custom.name.toUTF8.toList = [0x61] := by decide +kernel
  have number : Leb128.IsUnsigned 32 [0x81, 0] 1 :=
    ⟨.more (by decide) (.last (by decide)), by decide, by decide⟩
  have formed : raw.IsCustom custom := by
    refine ⟨rfl, ⟨.more (by decide) (.last (by decide)), by decide, by decide⟩, [0x81, 0], ?_⟩
    rw [text]
    exact ⟨number, rfl⟩
  have decoded : Module.decode (header ++ [first].flatMap RawSection.bytes ++ back) =
      .ok { customs := [⟨"", []⟩, ⟨"", [7]⟩] } := by rfl
  obtain ⟨accepted, inserted⟩ :=
    Module.decode_insert_custom (show header.length = 8 from rfl) sized formed back
  obtain ⟨m, more⟩ := accepted.mp ⟨_, decoded⟩
  obtain ⟨-, rfl⟩ := inserted _ m decoded more
  exact ⟨rfl, sized, formed, more⟩

end Decode

end Wasm
