import Wasm.Proofs.Binary.Exactly
import Wasm.Proofs.Binary.Wire

/-!
# What is written for different values

The decoder bounds its values, so that it reads values back says nothing
about values beyond its bounds. Here no decoder is asked: whatever can be
held in memory, its bytes show where they end and what they stand for, if
the numbers in front of lists can count these. There is one exception. A
shared memory without a maximum is written as one whose maximum is its
minimum, and so the two are written in the same way.
-/

namespace Wasm

open Decoder

namespace Codec

variable {α β γ : Type}

/-- What is written for a value with the property `P` shows where it ends and
which one of these values it stands for, whatever follows. -/
def Delimits (P : α → Prop) (encode : α → Bytes) : Prop :=
  ∀ a b, P a → P b → ∀ rest rest' : Bytes, encode a ++ rest = encode b ++ rest' →
    a = b ∧ rest = rest'

/-- What is read back shows what it stands for. -/
theorem Delimits.of_reads {P : α → Prop} {encode : α → Bytes} {d : Decoder α}
    (reads : ∀ a, P a → Reads d (encode a) a) : Delimits P encode := by
  intro a b ha hb rest rest' same
  obtain ⟨value, -, left⟩ := (reads a ha).unique (reads b hb) same
  exact ⟨value, left⟩

/-- Two parts of a value, one behind the other. -/
theorem Delimits.both {P : β → Prop} {Q : γ → Prop} {first : β → Bytes} {second : γ → Bytes}
    (hFirst : Delimits P first) (hSecond : Delimits Q second) (left : α → β) (right : α → γ)
    (determined : ∀ a b, left a = left b → right a = right b → a = b) :
    Delimits (fun a => P (left a) ∧ Q (right a)) fun a => first (left a) ++ second (right a) := by
  rintro a b ⟨leftA, rightA⟩ ⟨leftB, rightB⟩ rest rest' same
  rw [List.append_assoc, List.append_assoc] at same
  obtain ⟨sameLeft, behind⟩ := hFirst _ _ leftA leftB _ _ same
  obtain ⟨sameRight, tail⟩ := hSecond _ _ rightA rightB _ _ behind
  exact ⟨determined a b sameLeft sameRight, tail⟩

theorem Delimits.mono {P Q : α → Prop} {encode : α → Bytes} (h : Delimits P encode)
    (fewer : ∀ a, Q a → P a) : Delimits Q encode := by
  intro a b ha hb
  exact h a b (fewer a ha) (fewer b hb)

/-- A byte in front that is always the same. -/
theorem Delimits.tagged {P : α → Prop} {encode : α → Bytes} (h : Delimits P encode) (tag : UInt8) :
    Delimits P fun a => tag :: encode a := by
  intro a b ha hb rest rest' same
  exact h a b ha hb rest rest' (List.cons.inj same).2

/-- As many items on both sides are told apart one by one. -/
theorem Delimits.items {P : α → Prop} {encode : α → Bytes} (h : Delimits P encode)
    {items others : List α} (number : items.length = others.length)
    (each : ∀ a ∈ items, P a) (eachOther : ∀ a ∈ others, P a) {rest rest' : Bytes}
    (same : items.flatMap encode ++ rest = others.flatMap encode ++ rest') :
    items = others ∧ rest = rest' := by
  induction items generalizing others with
  | nil =>
      obtain rfl := List.length_eq_zero_iff.mp number.symm
      exact ⟨rfl, same⟩
  | cons a items ih =>
      cases others with
      | nil => cases number
      | cons b others =>
          obtain ⟨ha, hItems⟩ := List.forall_mem_cons.mp each
          obtain ⟨hb, hOthers⟩ := List.forall_mem_cons.mp eachOther
          rw [List.flatMap_cons, List.flatMap_cons, List.append_assoc, List.append_assoc] at same
          obtain ⟨rfl, behind⟩ := h a b ha hb _ _ same
          obtain ⟨rfl, tail⟩ := ih (Nat.succ.inj number) hItems hOthers behind
          exact ⟨rfl, tail⟩

/-- A list shows where it ends by the number in front of it, if this can count
the list. -/
theorem Delimits.list {P : α → Prop} {encode : α → Bytes} (h : Delimits P encode) :
    Delimits (fun items : List α => items.length < 2 ^ 32 ∧ ∀ a ∈ items, P a)
      (encodeList encode) := by
  rintro items others ⟨few, each⟩ ⟨fewOthers, eachOther⟩ rest rest' same
  rw [encodeList, encodeList, List.append_assoc, List.append_assoc] at same
  obtain ⟨count, -, behind⟩ := (reads_u32 _).unique (reads_u32 _) same
  have number := congrArg UInt32.toNat count
  rw [UInt32.toNat_ofNat_of_lt' few, UInt32.toNat_ofNat_of_lt' fewOthers] at number
  exact h.items number each eachOther behind

theorem delimits_valType : Delimits (fun _ => True) valType.encode :=
  .of_reads fun type _ => reads_valType type

theorem delimits_limits : Delimits (fun _ => True) limits.encode :=
  .of_reads fun value _ => reads_limits value

theorem delimits_funcType :
    Delimits (fun type => type.params.length < 2 ^ 32 ∧ type.results.length < 2 ^ 32)
      funcType.encode := by
  have types := delimits_valType.list
  have lists := types.both types FuncType.params FuncType.results (by
    rintro ⟨params, results⟩ ⟨params', results'⟩ rfl rfl
    rfl)
  refine (lists.tagged funcTypeTag).mono ?_
  rintro type ⟨params, results⟩
  exact ⟨⟨params, fun _ _ => trivial⟩, results, fun _ _ => trivial⟩

/-- Any value type can stand in front of limits, also one that no table holds. -/
theorem delimits_tableType : Delimits (fun _ => True) tableType.encode := by
  have parts := delimits_valType.both delimits_limits TableType.element TableType.limits (by
    rintro ⟨element, limits⟩ ⟨element', limits'⟩ rfl rfl
    rfl)
  exact parts.mono fun _ _ => ⟨trivial, trivial⟩

end Codec

/-! ## Values of wire types -/

/-- The memory that the bytes of a memory stand for. -/
def MemoryType.written (type : MemoryType) : MemoryType :=
  if type.shared then
    { type with limits := { type.limits with max := some (type.limits.max.getD type.limits.min) } }
  else type

namespace WireType

/-- The numbers in front of lists and texts can count them. -/
def Countable : (type : WireType) → type.Value → Prop
  | .string => fun value => value.utf8ByteSize < 2 ^ 32
  | .funcType => fun type => type.params.length < 2 ^ 32 ∧ type.results.length < 2 ^ 32
  | .vector item => fun items => items.length < 2 ^ 32 ∧ ∀ a ∈ items, item.Countable a
  | .u32 | .i32 | .i64 | .f32 | .f64 | .v128 | .bool | .valType | .limits | .tableType
  | .memoryType | .globalType | .memArg | .blockType => fun _ => True

/-- Every shared memory in the value has a maximum. -/
def StatesMaxima : (type : WireType) → type.Value → Prop
  | .memoryType => MemoryType.Representable
  | .vector item => fun items => ∀ a ∈ items, item.StatesMaxima a
  | .u32 | .i32 | .i64 | .f32 | .f64 | .v128 | .bool | .string | .valType | .funcType | .limits
  | .tableType | .globalType | .memArg | .blockType => fun _ => True

/-- The value that the bytes of a value stand for. -/
def written : (type : WireType) → type.Value → type.Value
  | .memoryType => MemoryType.written
  | .vector item => List.map item.written
  | .u32 | .i32 | .i64 | .f32 | .f64 | .v128 | .bool | .string | .valType | .funcType | .limits
  | .tableType | .globalType | .memArg | .blockType => id

theorem written_of_statesMaxima {type : WireType} {value : type.Value}
    (stated : type.StatesMaxima value) : type.written value = value := by
  induction type with
  | memoryType =>
      obtain ⟨⟨min, max⟩, shared⟩ := value
      cases shared with
      | false => rfl
      | true =>
          obtain ⟨max, rfl⟩ := Option.isSome_iff_exists.mp (stated rfl)
          rfl
  | vector item ih =>
      exact (List.map_congr_left fun a member => ih (stated a member)).trans (List.map_id value)
  | _ => rfl

theorem statesMaxima_written {type : WireType} (value : type.Value) :
    type.StatesMaxima (type.written value) := by
  induction type with
  | memoryType =>
      obtain ⟨⟨min, max⟩, shared⟩ := value
      cases shared with
      | false => exact nofun
      | true => exact fun _ => rfl
  | vector item ih => exact List.forall_mem_map.mpr fun a _ => ih a
  | _ => trivial

theorem countable_written {type : WireType} {value : type.Value} (few : type.Countable value) :
    type.Countable (type.written value) := by
  induction type with
  | vector item ih =>
      obtain ⟨number, each⟩ := few
      refine ⟨(List.length_map item.written).trans_lt number, ?_⟩
      exact List.forall_mem_map.mpr fun a member => ih (each a member)
  | _ => exact few

theorem encode_written {type : WireType} (value : type.Value) :
    type.encode (type.written value) = type.encode value := by
  induction type with
  | memoryType =>
      obtain ⟨⟨min, max⟩, shared⟩ := value
      cases shared with
      | false => rfl
      | true => cases max <;> rfl
  | vector item ih =>
      show Codec.encodeList item.encode (value.map item.written) =
        Codec.encodeList item.encode value
      rw [Codec.encodeList, Codec.encodeList, List.length_map, List.flatMap_map]
      simp only [ih]
  | _ => rfl

/-- The bytes of a value show where they end and what they stand for. -/
theorem delimits_encode (type : WireType) :
    Codec.Delimits (fun value => type.Countable value ∧ type.StatesMaxima value)
      type.encode := by
  induction type with
  | u32 => exact .of_reads fun value _ => Codec.reads_u32 value
  | i32 => exact .of_reads fun value _ => Codec.reads_i32 value
  | i64 => exact .of_reads fun value _ => Codec.reads_i64 value
  | f32 => exact .of_reads fun value _ => Codec.reads_f32 value
  | f64 => exact .of_reads fun value _ => Codec.reads_f64 value
  | v128 => exact .of_reads fun value _ => Codec.reads_v128 value
  | bool => exact .of_reads fun value _ => Codec.reads_bool value
  | string => exact .of_reads fun value short => Codec.reads_shortString short.1
  | valType => exact .of_reads fun type _ => Codec.reads_valType type
  | funcType => exact Codec.delimits_funcType.mono fun type few => few.1
  | limits => exact .of_reads fun value _ => Codec.reads_limits value
  | tableType => exact Codec.delimits_tableType.mono fun _ _ => trivial
  | memoryType => exact .of_reads fun type stated => Codec.reads_memoryType stated.2
  | globalType => exact .of_reads fun type _ => Codec.reads_globalType type
  | memArg => exact .of_reads fun arg _ => Codec.reads_memArg arg
  | blockType => exact .of_reads fun type _ => Codec.reads_blockType type
  | vector item ih =>
      refine ih.list.mono ?_
      rintro items ⟨⟨few, countable⟩, stated⟩
      exact ⟨few, fun a member => ⟨countable a member, stated a member⟩⟩

/-- Two values that an input could begin with stand for the same. -/
theorem written_eq_of_begins {type : WireType} {a b : type.Value} (fewA : type.Countable a)
    (fewB : type.Countable b) {input : Bytes} (beginsA : type.encode a <+: input)
    (beginsB : type.encode b <+: input) : type.written a = type.written b := by
  obtain ⟨rest, splitA⟩ := beginsA
  obtain ⟨rest', splitB⟩ := beginsB
  rw [← encode_written] at splitA splitB
  exact (type.delimits_encode _ _ ⟨countable_written fewA, statesMaxima_written a⟩
    ⟨countable_written fewB, statesMaxima_written b⟩ rest rest' (splitA.trans splitB.symm)).1

/-- The bytes of one value never go on in those of another one. They are the
same exactly if both values stand for the same, so no input begins with two
values that have all their maxima. -/
theorem encode_tells_apart {type : WireType} {a b : type.Value} (fewA : type.Countable a)
    (fewB : type.Countable b) :
    (type.encode a <+: type.encode b → type.encode a = type.encode b) ∧
    (type.encode a = type.encode b ↔ type.written a = type.written b) ∧
    (type.StatesMaxima a → type.StatesMaxima b → ∀ input : Bytes,
      type.encode a <+: input → type.encode b <+: input → a = b) := by
  have same : type.written a = type.written b → type.encode a = type.encode b := by
    intro same
    rw [← encode_written a, same, encode_written]
  refine ⟨?_, ⟨?_, same⟩, ?_⟩
  · intro begins
    exact same (written_eq_of_begins fewA fewB begins (List.prefix_refl _))
  · intro equal
    exact written_eq_of_begins fewA fewB (equal ▸ List.prefix_refl _) (List.prefix_refl _)
  · intro statedA statedB input beginsA beginsB
    have written := written_eq_of_begins fewA fewB beginsA beginsB
    rwa [written_of_statesMaxima statedA, written_of_statesMaxima statedB] at written

/-- Three memories of one page: a shared one with its maximum is written like the
one without, and is kept apart from the one that is not shared. -/
theorem encode_tells_apart_memories :
    let type : WireType := .vector .memoryType
    let shared : type.Value := [⟨⟨1, some 1⟩, true⟩]
    let unstated : type.Value := [⟨⟨1, none⟩, true⟩]
    let alone : type.Value := [⟨⟨1, some 1⟩, false⟩]
    (type.Countable shared ∧ type.Countable unstated ∧ type.Countable alone) ∧
      (type.StatesMaxima shared ∧ type.StatesMaxima alone) ∧
      type.encode shared = type.encode unstated ∧
      ¬∃ input, type.encode shared <+: input ∧ type.encode alone <+: input := by
  intro type shared unstated alone
  have few : ∀ memory : MemoryType, type.Countable [memory] := by
    intro memory
    exact ⟨(by decide : 1 < 2 ^ 32), fun _ _ => trivial⟩
  have statedShared : type.StatesMaxima shared := List.forall_mem_singleton.mpr fun _ => rfl
  have statedAlone : type.StatesMaxima alone := List.forall_mem_singleton.mpr nofun
  refine ⟨⟨few _, few _, few _⟩, ⟨statedShared, statedAlone⟩, ?_, ?_⟩
  · exact (encode_tells_apart (few _) (few _)).2.1.mpr rfl
  · rintro ⟨input, begins, begins'⟩
    have same := (encode_tells_apart (few _) (few _)).2.2 statedShared statedAlone input
      begins begins'
    cases same

/-- A shared memory without a maximum and one whose maximum is its minimum. -/
theorem not_forall_encode_tells_apart : ¬∀ (type : WireType) (a b : type.Value),
    type.Countable a → type.Countable b → type.encode a = type.encode b → a = b := by
  intro claim
  have same := claim .memoryType ⟨⟨1, none⟩, true⟩ ⟨⟨1, some 1⟩, true⟩ trivial trivial rfl
  cases same

end WireType

end Wasm
