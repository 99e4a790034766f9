import Wasm.Proofs.Binary.Grammar
import Wasm.Proofs.Binary.Sited
import Wasm.Proofs.Binary.Unspelt

/-!
# What an error points at

When input is refused, everything before the fault has been accepted: the
header, and a sequence of whole sections. The fault is then either in the
payload of the next section, and the error names that section, or it is in
the frame, and the error names no section. Both are said of the input in the
words of its grammar. That the sections before the fault are accepted comes
from the loop, which fails only where one of its steps does.
-/

namespace Wasm

open Decoder

/-- A header and sections with these contents, all of them accepted. -/
structure Accepted (lead : Bytes) (raws : List RawSection) (sections : List DecodedSection) :
    Prop where
  framing : Framing lead raws
  holds : List.Forall₂ RawSection.Holds raws sections

/-- `offset` lies in the payload of the first section that is refused, or at
its end. The section has the given id; its place and its size are right. -/
inductive PointsInto (input : Bytes) (id : SectionId) (offset : Nat) : Prop
  | payload {lead rest : Bytes} {raws : List RawSection} {sections : List DecodedSection}
      {raw : RawSection} (accepted : Accepted lead raws sections)
      (framed : Framing (lead ++ raw.bytes) (raws ++ [raw]))
      (refused : ∀ value, ¬raw.Holds value) (split : input = lead ++ raw.bytes ++ rest)
      (named : raw.id = id) (after : lead.length + 1 + raw.size.length ≤ offset)
      (before : offset ≤ lead.length + 1 + raw.size.length + raw.payload.length)

/-- What can be wrong with a header, or with what frames the sections behind
those that are accepted, and the offset that goes with it. -/
inductive FrameFault (input : Bytes) : (offset : Nat) → DecodeFault → Prop
  | magic (other : ¬magic <+: input) : FrameFault input 0 .badMagic
  | versionEnd {rest : Bytes} (split : input = Wasm.magic ++ rest) (short : rest.length < 4) :
      FrameFault input input.length .unexpectedEnd
  | version {bytes rest : Bytes} (split : input = Wasm.magic ++ (bytes ++ rest))
      (four : bytes.length = 4)
      (other : UInt32.ofNat (Bytes.toNatLE bytes) ≠ formatVersion) :
      FrameFault input Wasm.magic.length (.unknownVersion (UInt32.ofNat (Bytes.toNatLE bytes)))
  /-- No spelling of a size stands behind the id. -/
  | size {lead left : Bytes} {raws : List RawSection} {sections : List DecodedSection}
      {id : SectionId} {offset : Nat} {fault : DecodeFault}
      (accepted : Accepted lead raws sections) (split : input = lead ++ id :: left)
      (unspelt : ∀ size n rest, left = size ++ rest → ¬Leb128.IsUnsigned 32 size n)
      (kind : fault ∈ [.unexpectedEnd, .integerTooLong, .integerTooLarge])
      (after : lead.length + 1 ≤ offset) (before : offset ≤ input.length) :
      FrameFault input offset fault
  /-- The section is longer than what is left. -/
  | payloadEnd {lead left size : Bytes} {raws : List RawSection} {sections : List DecodedSection}
      {id : SectionId} {n : Nat} (accepted : Accepted lead raws sections)
      (split : input = lead ++ id :: (size ++ left)) (spelt : Leb128.IsUnsigned 32 size n)
      (short : left.length < n) : FrameFault input input.length .unexpectedEnd
  | order {lead rest : Bytes} {raws : List RawSection} {sections : List DecodedSection}
      {raw earlier : RawSection} (accepted : Accepted lead raws sections)
      (split : input = lead ++ raw.bytes ++ rest)
      (sized : Leb128.IsUnsigned 32 raw.size raw.payload.length) (member : earlier ∈ raws)
      (listed : raw.id ≠ SectionKind.custom.id) (listed' : earlier.id ≠ SectionKind.custom.id)
      (early : SectionId.order raw.id ≤ SectionId.order earlier.id) :
      FrameFault input lead.length (.sectionOutOfOrder raw.id)
  | unknown {lead rest : Bytes} {raws : List RawSection} {sections : List DecodedSection}
      {raw : RawSection} (accepted : Accepted lead raws sections)
      (split : input = lead ++ raw.bytes ++ rest)
      (sized : Leb128.IsUnsigned 32 raw.size raw.payload.length) (large : 12 < raw.id) :
      FrameFault input lead.length (.unknownSection raw.id)
  | unpaired {raws : List RawSection} {sections : List DecodedSection}
      (accepted : Accepted input raws sections)
      (differ : ((content? .functions sections).getD []).length ≠
        ((content? .code sections).getD []).length) :
      FrameFault input input.length (.functionCodeMismatch
        ((content? .functions sections).getD []).length
        ((content? .code sections).getD []).length)

/-- An error that says what is wrong with the input: it names the section that
is refused, or no section if it is the frame that is wrong. -/
def Explains (input : Bytes) (e : DecodeError) : Prop :=
  (∃ id, e.sectionId = some id ∧ PointsInto input id e.offset) ∨
    e.sectionId = none ∧ FrameFault input e.offset e.fault

theorem RawSection.length_bytes (raw : RawSection) :
    raw.bytes.length = 1 + raw.size.length + raw.payload.length := by
  rw [RawSection.bytes, List.length_cons, List.length_append]
  omega

theorem PointsInto.offset_le {input : Bytes} {id : SectionId} {offset : Nat}
    (h : PointsInto input id offset) : offset ≤ input.length := by
  obtain ⟨accepted, framed, refused, split, named, after, before⟩ := h
  rw [split, List.length_append, List.length_append, RawSection.length_bytes]
  omega

theorem FrameFault.offset_le {input : Bytes} {offset : Nat} {fault : DecodeFault}
    (h : FrameFault input offset fault) : offset ≤ input.length := by
  cases h with
  | magic => exact Nat.zero_le _
  | versionEnd | payloadEnd | unpaired => exact Nat.le_refl _
  | version split | order _ split | unknown _ split =>
      rw [split]
      simp only [List.length_append]
      omega
  | size _ _ _ _ _ before => exact before

/-! ## Integers -/

/-- Without a spelling there are three ways to fail. -/
theorem Leb128.Unspelt.fault_mem {width : Nat} {bytes : Bytes} {fault : DecodeFault}
    (h : Unspelt width bytes fault) :
    fault ∈ [.unexpectedEnd, .integerTooLong, .integerTooLarge] := by
  cases h with
  | ended => simp
  | tooLarge => simp
  | tooLong => simp

theorem u32_eq_error {c c' : Cursor} {e : DecodeError} (failed : Codec.u32.decode c = .error e c') :
    e.fault ∈ [.unexpectedEnd, .integerTooLong, .integerTooLarge] ∧
      ∀ size n rest, c.rest = size ++ rest → ¬Leb128.IsUnsigned 32 size n := by
  constructor
  · rw [Codec.u32, map_eq_pure_bind] at failed
    rcases EStateM.bind_eq_error.mp failed with read | ⟨n, c₁, -, done⟩
    · obtain ⟨fault, unspelt, rfl⟩ :=
        (Leb128.readUnsigned_eq_error_iff (by decide)).mp ⟨c', read⟩
      exact unspelt.fault_mem
    · cases done
  · intro size n rest split spelt
    obtain ⟨offset, left, id⟩ := c
    cases split
    cases failed.symm.trans (spelt.reads.map UInt32.ofNat offset rest id)

/-! ## One section -/

theorem kind?_eq_none {id : SectionId} (unknown : id.kind? = none) : 12 < id := by
  by_contra small
  have few : id.toNat ≤ 12 := Nat.not_lt.mp small
  have known : ∀ n ≤ 12, SectionId.kind? (UInt8.ofNat n) ≠ none := by decide
  apply known id.toNat few
  rw [UInt8.ofNat_toNat]
  exact unknown

/-- What the step does with the frame of a section, before it looks at the
payload. -/
theorem nextSection_frame (s : SectionContents) {c : Cursor} {id : SectionId} {tail : Bytes}
    (split : c.rest = id :: tail) :
    (∃ e c', Codec.u32.decode ⟨c.offset + 1, tail, c.sectionId⟩ = .error e c' ∧
      nextSection s c = .error e c') ∨
    (∃ size n left c', tail = size ++ left ∧ Leb128.IsUnsigned 32 size n ∧ left.length < n ∧
      nextSection s c = .error ⟨c.endOffset, c.sectionId, .unexpectedEnd⟩ c') ∨
    ∃ (raw : RawSection) (rest : Bytes), c.rest = raw.bytes ++ rest ∧
      Leb128.IsUnsigned 32 raw.size raw.payload.length ∧
      nextSection s c = (checkOrder c.offset raw.id s >>= fun s =>
        match SectionId.kind? raw.id with
        | some kind => within raw.payload.length raw.id (sectionContent s kind)
        | none => failAt c.offset (.unknownSection raw.id))
        ⟨c.offset + 1 + raw.size.length, raw.payload ++ rest, c.sectionId⟩ := by
  obtain ⟨offset, _, section_⟩ := c
  cases split
  have id_read : byte ⟨offset, id :: tail, section_⟩ = .ok id ⟨offset + 1, tail, section_⟩ := rfl
  cases sized : Codec.u32.decode ⟨offset + 1, tail, section_⟩ with
  | error e c' =>
      refine .inl ⟨e, c', rfl, ?_⟩
      rw [nextSection, offset_bind, bind_ok id_read]
      exact EStateM.bind_eq_error.mpr (.inl sized)
  | ok size c₂ =>
      obtain ⟨spelt, split, spelling⟩ := Codec.exactly_u32.only _ _ _ sized
      have reads : Reads Codec.u32.decode spelt size := Codec.exactly_u32.reads spelling
      obtain ⟨-, -, takes⟩ := takes_of_reads split reads sized
      have moved : c₂ = ⟨offset + 1 + spelt.length, c₂.rest, section_⟩ :=
        congrArg₂ (fun o id => Cursor.mk o c₂.rest id) takes.offset takes.sectionId
      rw [nextSection, offset_bind, bind_ok id_read, bind_ok sized, hasAtLeast_bind]
      cases there : Bytes.hasAtLeast size.toNat c₂.rest with
      | false =>
          have short : ¬size.toNat ≤ c₂.rest.length := by
            rw [← Bytes.hasAtLeast_iff, there]
            exact Bool.false_ne_true
          refine .inr (.inl ⟨spelt, size.toNat, c₂.rest, c₂, split, spelling, by omega, ?_⟩)
          rw [if_neg Bool.false_ne_true, failAtEnd, moved]
          have length := congrArg List.length split
          simp only [List.length_append] at length
          simp only [Cursor.endOffset, List.length_cons]
          congr 2
          omega
      | true =>
          have enough := (Bytes.hasAtLeast_iff _ _).mp there
          have length := List.length_take_of_le enough
          refine .inr (.inr ⟨⟨id, spelt, c₂.rest.take size.toNat⟩, c₂.rest.drop size.toNat, ?_,
            ?_, ?_⟩)
          · simp only [RawSection.bytes, List.cons_append, List.append_assoc,
              List.take_append_drop, ← split]
          · rwa [length]
          · simp only [length, List.take_append_drop]
            rw [← moved]
            rfl

/-- A section that is read is taken off the input as a whole. -/
theorem nextSection_takes {s s' : SectionContents} {c c' : Cursor}
    (read : nextSection s c = .ok s' c') : ∃ (raw : RawSection) (value : DecodedSection),
      c.Takes raw.bytes c' ∧ raw.Holds value ∧ Leb128.IsUnsigned 32 raw.size raw.payload.length ∧
        s.Admits value.kind ∧ s' = s.add value := by
  obtain ⟨raw, value, split, holds, sized, admitted, added⟩ := nextSection_eq_ok read
  obtain ⟨-, -, takes⟩ := takes_of_reads split (RawSection.reads holds sized admitted) read
  exact ⟨raw, value, takes, holds, sized, admitted, added⟩

/-! ## The place that is remembered -/

theorem orders_cons (value : DecodedSection) (rest : List DecodedSection) :
    orders (value :: rest) =
      if value.kind = .custom then orders rest else value.kind.order :: orders rest := by
  by_cases custom : value.kind = .custom
  · simp [orders, custom]
  · simp [orders, custom]

theorem SectionContents.add_lastOrder (s : SectionContents) (value : DecodedSection) :
    (s.add value).lastOrder =
      if value.kind = .custom then s.lastOrder else value.kind.order := by
  rw [add, put_lastOrder, place]
  by_cases custom : value.kind = .custom
  · rw [if_pos custom, if_pos custom]
  · rw [if_neg custom, if_neg custom]

/-- The place that is remembered is that of some section, or the first one. -/
theorem lastOrder_mem (s : SectionContents) (sections : List DecodedSection) :
    (sections.foldl SectionContents.add s).lastOrder ∈ s.lastOrder :: orders sections := by
  induction sections generalizing s with
  | nil => exact List.mem_cons_self
  | cons value rest ih =>
      have found := ih (s.add value)
      rw [SectionContents.add_lastOrder] at found
      rw [List.foldl_cons, orders_cons]
      by_cases custom : value.kind = .custom
      · rw [if_pos custom] at found
        rwa [if_pos custom]
      · rw [if_neg custom] at found
        rw [if_neg custom]
        exact List.mem_cons_of_mem _ found

/-- No section has a later place than the one that is remembered. -/
theorem le_lastOrder {s : SectionContents} {sections : List DecodedSection}
    (ordered : (s.lastOrder :: orders sections).Pairwise (· < ·)) :
    ∀ order ∈ s.lastOrder :: orders sections,
      order ≤ (sections.foldl SectionContents.add s).lastOrder := by
  induction sections generalizing s with
  | nil =>
      intro order member
      rw [List.mem_singleton.mp member]
      exact UInt8.le_refl _
  | cons value rest ih =>
      obtain ⟨admitted, later⟩ := ordered_cons.mp ordered
      have others := ih later
      have current := others (s.add value).lastOrder List.mem_cons_self
      rw [List.foldl_cons]
      intro order member
      rw [orders_cons] at member
      rw [SectionContents.add_lastOrder] at others current
      by_cases custom : value.kind = .custom
      · rw [if_pos custom] at member others
        exact others order member
      · rw [if_neg custom] at member others current
        rcases List.mem_cons.mp member with rfl | member
        · exact UInt8.le_trans (UInt8.le_of_lt (admitted.resolve_left custom)) current
        · exact others order member

/-- The ids of the sections that have a place, with these places. -/
theorem mem_orders_iff {lead : Bytes} {raws : List RawSection} {sections : List DecodedSection}
    (accepted : Accepted lead raws sections) {order : UInt8} :
    order ∈ orders sections ↔
      ∃ id ∈ (raws.map RawSection.id).filter (· ≠ SectionKind.custom.id),
        SectionId.order id = order := by
  rw [map_id_of_holds accepted.holds, orders]
  simp only [List.mem_map, List.mem_filter, decide_eq_true_eq]
  constructor
  · rintro ⟨kind, ⟨member, listed⟩, rfl⟩
    exact ⟨kind.id, ⟨⟨kind, member, rfl⟩, mt id_eq_custom.mp listed⟩, order_id kind⟩
  · rintro ⟨id, ⟨⟨kind, member, rfl⟩, listed⟩, rfl⟩
    exact ⟨kind, ⟨member, mt id_eq_custom.mpr listed⟩, (order_id kind).symm⟩

theorem order_pos {id : SectionId} (listed : id ≠ SectionKind.custom.id) :
    0 < SectionId.order id := by
  cases known : id.kind? with
  | none =>
      rw [SectionId.order, known]
      exact UInt8.lt_trans (by decide) (kind?_eq_none known)
  | some kind =>
      rw [kind?_eq_some known, order_id]
      rw [kind?_eq_some known] at listed
      revert listed
      cases kind <;> decide

/-- An id whose place has passed comes behind a section of no earlier place. -/
theorem exists_later_of_order_le {lead : Bytes} {raws : List RawSection}
    {sections : List DecodedSection} (accepted : Accepted lead raws sections) {id : SectionId}
    (listed : id ≠ SectionKind.custom.id)
    (early : SectionId.order id ≤ (sections.foldl SectionContents.add {}).lastOrder) :
    ∃ earlier ∈ raws, earlier.id ≠ SectionKind.custom.id ∧
      SectionId.order id ≤ SectionId.order earlier.id := by
  rcases List.mem_cons.mp (lastOrder_mem {} sections) with first | found
  · rw [first] at early
    exact absurd (order_pos listed) (UInt8.not_lt.mpr early)
  · obtain ⟨other, member, place⟩ := (mem_orders_iff accepted).mp found
    obtain ⟨member, listed'⟩ := List.mem_filter.mp member
    obtain ⟨earlier, inside, rfl⟩ := List.mem_map.mp member
    rw [← place] at early
    exact ⟨earlier, inside, of_decide_eq_true listed', early⟩

/-- A section that may stand where it does extends the frame. -/
theorem framing_append {lead : Bytes} {raws : List RawSection} {sections : List DecodedSection}
    (accepted : Accepted lead raws sections) {raw : RawSection} {kind : SectionKind}
    (named : raw.id = kind.id) (sized : Leb128.IsUnsigned 32 raw.size raw.payload.length)
    (admitted : (sections.foldl SectionContents.add {}).Admits kind) :
    Framing (lead ++ raw.bytes) (raws ++ [raw]) where
  bytes := by
    rw [List.flatMap_append, List.flatMap_singleton, ← List.append_assoc, ← accepted.framing.bytes]
  known := by
    refine List.forall_mem_append.mpr ⟨accepted.framing.known, ?_⟩
    rw [List.forall_mem_singleton, named]
    exact id_le kind
  sized := List.forall_mem_append.mpr ⟨accepted.framing.sized, List.forall_mem_singleton.mpr sized⟩
  ordered := by
    rw [List.map_append, List.filter_append, List.pairwise_append]
    refine ⟨accepted.framing.ordered, ?_, ?_⟩
    · exact (List.pairwise_singleton _ _).sublist List.filter_sublist
    · intro earlier member id member'
      obtain ⟨member', listed⟩ := List.mem_filter.mp member'
      rw [List.map_singleton, List.mem_singleton, named] at member'
      rw [member'] at listed ⊢
      have later := admitted.resolve_left (mt id_eq_custom.mpr (of_decide_eq_true listed))
      have ordered := (ordered_iff accepted.holds).mp accepted.framing.ordered
      have place := (mem_orders_iff accepted).mpr ⟨earlier, member, rfl⟩
      have before := le_lastOrder (s := {}) (List.pairwise_cons.mpr ⟨orders_pos, ordered⟩)
        _ (List.mem_cons_of_mem _ place)
      rw [order_id]
      exact UInt8.lt_of_le_of_lt before later

/-! ## All sections -/

/-- What the loop does: it reads whole sections, and then it has come to the
end of the input, or the next section fails. -/
theorem sections_outcome {fuel : Nat} {s : SectionContents} {c : Cursor}
    (enough : c.rest.length < fuel) :
    ∃ (raws : List RawSection) (values : List DecodedSection) (c₁ : Cursor),
      c.Takes (raws.flatMap RawSection.bytes) c₁ ∧ List.Forall₂ RawSection.Holds raws values ∧
      (∀ raw ∈ raws, Leb128.IsUnsigned 32 raw.size raw.payload.length) ∧
      (s.lastOrder :: orders values).Pairwise (· < ·) ∧
      ((c₁.rest = [] ∧ sections fuel s c = .ok (values.foldl SectionContents.add s) c₁) ∨
        ∃ e c', c₁.rest ≠ [] ∧ nextSection (values.foldl SectionContents.add s) c₁ = .error e c' ∧
          sections fuel s c = .error e c') := by
  induction fuel generalizing s c with
  | zero => cases enough
  | succ fuel ih =>
      rw [sections, hasAtLeast_bind]
      cases more : Bytes.hasAtLeast 1 c.rest with
      | false =>
          have done : c.rest = [] := by
            by_contra left
            have some_left := List.length_pos_iff.mpr left
            rw [← Nat.succ_le_iff, ← Bytes.hasAtLeast_iff, more] at some_left
            cases some_left
          refine ⟨[], [], c, Cursor.Takes.nil c, .nil, List.forall_mem_nil _,
            List.pairwise_singleton _ _, .inl ⟨done, ?_⟩⟩
          rfl
      | true =>
          rw [if_pos rfl]
          cases first : nextSection s c with
          | error e c' =>
              have left : c.rest ≠ [] := by
                rintro done
                rw [done] at more
                cases more
              refine ⟨[], [], c, Cursor.Takes.nil c, .nil, List.forall_mem_nil _,
                List.pairwise_singleton _ _, .inr ⟨e, c', left, first, ?_⟩⟩
              exact EStateM.bind_eq_error.mpr (.inl first)
          | ok s₁ c₁ =>
              obtain ⟨raw, value, takes, holds, sized, admitted, rfl⟩ := nextSection_takes first
              have shorter : c₁.rest.length < fuel := by
                have split := congrArg List.length takes.rest
                rw [List.length_append, RawSection.length_bytes] at split
                omega
              obtain ⟨raws, values, c₂, takes', allHold, allSized, ordered, outcome⟩ := ih shorter
              refine ⟨raw :: raws, value :: values, c₂, takes.append takes', .cons holds allHold,
                List.forall_mem_cons.mpr ⟨sized, allSized⟩,
                ordered_cons.mpr ⟨admitted, ordered⟩, ?_⟩
              rw [bind_ok first, List.foldl_cons]
              exact outcome

/-! ## Why a step fails -/

theorem checkOrder_still {start : Nat} {id : SectionId} {s s₁ : SectionContents} {c c₁ : Cursor}
    (checked : checkOrder start id s c = .ok s₁ c₁) : c₁ = c := by
  rw [checkOrder] at checked
  split at checked
  · cases checked
    rfl
  · split at checked
    · cases checked
    · cases checked
      rfl

section Step

variable {lead left : Bytes} {raws : List RawSection} {sections : List DecodedSection}
  {c' : Cursor} {e : DecodeError}

/-- Where the size of a section is right, its place, its id or its payload is
at fault. -/
theorem section_explained (accepted : Accepted lead raws sections) {raw : RawSection}
    {rest : Bytes} (split : left = raw.bytes ++ rest)
    (sized : Leb128.IsUnsigned 32 raw.size raw.payload.length)
    (step : nextSection (sections.foldl SectionContents.add {}) ⟨lead.length, left, none⟩ =
      .error e c')
    (failed : (checkOrder lead.length raw.id (sections.foldl SectionContents.add {}) >>= fun s =>
      match SectionId.kind? raw.id with
      | some kind => within raw.payload.length raw.id (sectionContent s kind)
      | none => failAt lead.length (.unknownSection raw.id))
      ⟨lead.length + 1 + raw.size.length, raw.payload ++ rest, none⟩ = .error e c') :
    Explains (lead ++ left) e := by
  have whole : lead ++ left = lead ++ raw.bytes ++ rest := by
    rw [split, List.append_assoc]
  rcases EStateM.bind_eq_error.mp failed with refused | ⟨s, c₁, checked, inside⟩
  · rw [checkOrder] at refused
    split at refused
    · cases refused
    · rename_i listed
      split at refused
      · rename_i early
        cases refused
        obtain ⟨earlier, member, listed', early⟩ := exists_later_of_order_le accepted listed early
        exact .inr ⟨rfl, .order accepted whole sized member listed listed' early⟩
      · cases refused
  · obtain rfl := checkOrder_still checked
    cases known : SectionId.kind? raw.id with
    | none =>
        rw [known] at inside
        cases inside
        exact .inr ⟨rfl, .unknown accepted whole sized (kind?_eq_none known)⟩
    | some kind =>
        have named := kind?_eq_some known
        rw [known] at inside
        rw [named] at checked
        obtain ⟨admitted, -, -⟩ := checkOrder_eq_ok checked
        have refused : ∀ value, ¬raw.Holds value := by
          -- An accepted payload would have been read.
          intro value holds
          have same : value.kind = kind := by
            have ids := holds.id.symm.trans named
            revert ids
            cases value.kind <;> cases kind <;> decide
          have read := RawSection.reads holds sized (same ▸ admitted) lead.length rest none
          rw [← split] at read
          cases read.symm.trans step
        obtain ⟨after, before, open_⟩ := within_eq_error (sited_sectionContent s kind) inside
        have framed := framing_append accepted named sized admitted
        refine .inl ⟨raw.id, open_, .payload accepted framed refused whole rfl after ?_⟩
        rwa [List.take_left' rfl] at before

/-- A section that fails behind accepted ones fails for a reason that its error
gives. -/
theorem nextSection_explained (accepted : Accepted lead raws sections) (more : left ≠ [])
    (failed : nextSection (sections.foldl SectionContents.add {}) ⟨lead.length, left, none⟩ =
      .error e c') : Explains (lead ++ left) e := by
  obtain ⟨id, tail, rfl⟩ := List.exists_cons_of_ne_nil more
  have length : (lead ++ id :: tail).length = lead.length + 1 + tail.length := by
    rw [List.length_append, List.length_cons]
    omega
  rcases nextSection_frame (sections.foldl SectionContents.add {})
      (c := ⟨lead.length, id :: tail, none⟩) rfl with
    ⟨e₁, c₁, unread, outcome⟩ | ⟨size, n, left, c₁, rfl, spelt, short, outcome⟩ |
    ⟨raw, rest, split, sized, outcome⟩
  · cases failed.symm.trans outcome
    obtain ⟨kind, unspelt⟩ := u32_eq_error unread
    have behind : Sited (lead.length + 1) Codec.u32.decode :=
      .of_in fun finish => (SitedIn.compositional _ finish).u32.1
    obtain ⟨after, before, same⟩ := behind.fails _ e c' (Nat.le_refl _) unread
    exact .inr ⟨same, .size accepted rfl unspelt kind after (before.trans length.ge)⟩
  · cases failed.symm.trans outcome
    have stop : (lead ++ id :: (size ++ left)).length =
        Cursor.endOffset ⟨lead.length, id :: (size ++ left), none⟩ := by
      rw [List.length_append, Cursor.endOffset]
    refine .inr ⟨rfl, ?_⟩
    rw [← stop]
    exact .payloadEnd accepted rfl spelt short
  · exact section_explained accepted split sized failed (outcome.symm.trans failed)

end Step

/-! ## The header -/

/-- Behind the magic bytes only the version can be wrong. -/
theorem version_explained {rest : Bytes} {c' : Cursor} {e : DecodeError}
    (failed : header ⟨0, magic ++ rest, none⟩ = .error e c') : Explains (magic ++ rest) e := by
  have there : Bytes.hasAtLeast magic.length (magic ++ rest) = true := by
    rw [Bytes.hasAtLeast_iff, List.length_append]
    exact Nat.le_add_right _ _
  rw [header, hasAtLeast_bind, there, if_pos rfl, bind_ok (Reads.bytes magic 0 rest none)] at failed
  dsimp only at failed
  rw [if_pos rfl, offset_bind] at failed
  rcases EStateM.bind_eq_error.mp failed with unread | ⟨bs, c₁, read, other⟩
  · rw [bytes] at unread
    split at unread
    · cases unread
    · rename_i few
      have short : rest.length < 4 := by
        rw [Bytes.hasAtLeast_iff] at few
        exact Nat.not_le.mp few
      cases unread
      have stop : (magic ++ rest).length = Cursor.endOffset ⟨0 + magic.length, rest, none⟩ := by
        rw [List.length_append, Cursor.endOffset, Nat.zero_add]
      refine .inr ⟨rfl, ?_⟩
      rw [← stop]
      exact .versionEnd rfl short
  · obtain ⟨four, split, moved⟩ := bytes_eq_ok read
    split at other
    · cases other
    · rename_i unknown
      rw [moved] at other
      cases other
      exact .inr ⟨rfl, .version (congrArg (magic ++ ·) split) four unknown⟩

theorem header_explained {input : Bytes} {c' : Cursor} {e : DecodeError}
    (failed : header ⟨0, input, none⟩ = .error e c') : Explains input e := by
  by_cases lead : magic <+: input
  · obtain ⟨rest, rfl⟩ := lead
    exact version_explained failed
  · refine .inr ?_
    rw [header, hasAtLeast_bind] at failed
    cases there : Bytes.hasAtLeast magic.length input with
    | false =>
        rw [there] at failed
        cases failed
        exact ⟨rfl, .magic lead⟩
    | true =>
        have other : input.take magic.length ≠ magic := by
          intro same
          apply lead
          rw [← same]
          exact List.take_prefix _ _
        have read : bytes magic.length ⟨0, input, none⟩ =
            .ok (input.take magic.length) (Cursor.skip ⟨0, input, none⟩ magic.length) := by
          rw [bytes, if_pos there]
        rw [there, if_pos rfl, bind_ok read] at failed
        dsimp only at failed
        rw [if_neg other] at failed
        cases failed
        exact ⟨rfl, .magic lead⟩

/-! ## Whole modules -/

theorem accepted_of_takes {raws : List RawSection} {sections : List DecodedSection}
    (holds : List.Forall₂ RawSection.Holds raws sections)
    (sized : ∀ raw ∈ raws, Leb128.IsUnsigned 32 raw.size raw.payload.length)
    (ordered : (orders sections).Pairwise (· < ·)) :
    Accepted (magic ++ Bytes.littleEndian 4 formatVersion.toNat ++
      raws.flatMap RawSection.bytes) raws sections where
  framing := ⟨rfl, known_of_holds holds, sized, (ordered_iff holds).mpr ordered⟩
  holds := holds

/-- Behind the last section only the two numbers of functions can differ. -/
theorem joinFuncs_explained {input : Bytes} {raws : List RawSection}
    {sections : List DecodedSection} (accepted : Accepted input raws sections) {c' : Cursor}
    {e : DecodeError}
    (failed : joinFuncs (sections.foldl SectionContents.add {}) ⟨input.length, [], none⟩ =
      .error e c') : Explains input e := by
  have ordered := (ordered_iff accepted.holds).mp accepted.framing.ordered
  obtain ⟨place, contents⟩ := foldl_add ordered
  rw [contents, joinFuncs] at failed
  split at failed
  · cases failed
  · rename_i differ
    cases failed
    exact .inr ⟨rfl, .unpaired accepted differ⟩

theorem wholeModule_explained {input : Bytes} {c' : Cursor} {e : DecodeError}
    (failed : wholeModule ⟨0, input, none⟩ = .error e c') : Explains input e := by
  rcases EStateM.bind_eq_error.mp failed with lead | ⟨⟨⟩, c, lead, run⟩
  · exact header_explained lead
  · have split : input = magic ++ Bytes.littleEndian 4 formatVersion.toNat ++ c.rest :=
      header_eq_ok lead
    obtain ⟨-, -, moved⟩ := takes_of_reads split reads_header lead
    rw [remaining_bind] at run
    obtain ⟨raws, sections, c₁, takes, holds, sized, ordered, outcome⟩ :=
      sections_outcome (s := {}) (c := c) (Nat.lt_succ_self c.rest.length)
    have accepted := accepted_of_takes holds sized (List.pairwise_cons.mp ordered).2
    obtain ⟨offset, left, id⟩ := c₁
    -- What was taken so far is the part of the input that is accepted.
    have all := moved.append takes
    obtain rfl : offset = _ := all.offset.trans (Nat.zero_add _)
    obtain rfl : id = none := all.sectionId
    obtain rfl : input = _ := all.rest
    rcases outcome with ⟨done, loop⟩ | ⟨e', c₂, more, step, loop⟩
    · obtain rfl : left = [] := done
      rw [bind_ok loop] at run
      rw [List.append_nil]
      exact joinFuncs_explained accepted run
    · rw [EStateM.bind_eq_error.mpr (.inl loop)] at run
      cases run
      exact nextSection_explained accepted more step

/-- An error of the decoder points into the input. If it names a section, then
it points into the payload of the first section that is refused, behind
sections that are all accepted. If it names none, then it says what is wrong
with the header, with the frame of the next section, or with the number of
functions. -/
theorem Module.decode_error_sited {input : Bytes} {e : DecodeError}
    (failed : Module.decode input = .error e) :
    e.offset ≤ input.length ∧
      (∀ id, e.sectionId = some id → PointsInto input id e.offset) ∧
      (e.sectionId = none → FrameFault input e.offset e.fault) := by
  have start : Cursor.ofInput input = ⟨0, input, none⟩ := by
    rw [Cursor.ofInput, Nat.zero_min, List.drop_zero]
  have explained : Explains input e := by
    rw [Module.decode, start] at failed
    split at failed
    · cases failed
    · rename_i e' c' run
      cases failed
      exact wholeModule_explained run
  rcases explained with ⟨id, named, inside⟩ | ⟨unnamed, frame⟩
  · refine ⟨inside.offset_le, ?_, ?_⟩
    · intro id' named'
      cases named.symm.trans named'
      exact inside
    · intro unnamed
      cases named.symm.trans unnamed
  · refine ⟨frame.offset_le, ?_, fun _ => frame⟩
    intro id named
    cases unnamed.symm.trans named

/-- A memory section behind a type section, with a limits flag that does not
exist: the error points at the flag. -/
theorem Module.decode_error_sited_limits :
    let input : Bytes := magic ++ Bytes.littleEndian 4 formatVersion.toNat ++
      [1, 4, 1, 0x60, 0, 0, 5, 3, 1, 9, 0]
    Module.decode input = .error ⟨17, some 5, .invalidLimits 9⟩ ∧ input[17]? = some 9 ∧
      PointsInto input 5 17 := by
  intro input
  have failed : Module.decode input = .error ⟨17, some 5, .invalidLimits 9⟩ := by rfl
  exact ⟨failed, rfl, (Module.decode_error_sited failed).2.1 5 rfl⟩

end Wasm
