import Wasm.Proofs.Binary.Integers

/-!
# Values are read back

The codecs of numbers, vectors, text and types read back what they write, in
every context. The laws ask for what the format cannot express otherwise: a
length prefix has 32 bits, tables hold references, a shared memory states a
maximum, and vectors respect the bounds of the decoder.
-/

/-- Writing and reading a little-endian number agree below the width. -/
theorem Wasm.Bytes.toNatLE_littleEndian (width value : Nat) :
    toNatLE (littleEndian width value) = value % 256 ^ width := by
  induction width generalizing value with
  | zero => simp [littleEndian, toNatLE, Nat.mod_one]
  | succ width ih =>
      rw [littleEndian, toNatLE, ih, Nat.pow_succ, Nat.mul_comm (256 ^ width), Nat.mod_mul,
        UInt8.toNat_ofNat', Nat.mod_eq_of_lt (Nat.mod_lt value (by decide))]

/-- Bytes are what is written for the number that they denote. -/
theorem Wasm.Bytes.littleEndian_toNatLE (bs : Bytes) :
    littleEndian bs.length (toNatLE bs) = bs := by
  induction bs with
  | nil => rfl
  | cons b rest ih =>
      have small := b.toNat_lt
      have low : (b.toNat + 256 * toNatLE rest) % 256 = b.toNat := by omega
      have high : (b.toNat + 256 * toNatLE rest) / 256 = toNatLE rest := by omega
      rw [List.length_cons, toNatLE, littleEndian, low, high, ih, UInt8.ofNat_toNat]

theorem Wasm.Bytes.toNatLE_lt (bs : Bytes) : toNatLE bs < 256 ^ bs.length := by
  induction bs with
  | nil => exact Nat.one_pos
  | cons b rest ih =>
      have small := b.toNat_lt
      rw [toNatLE, List.length_cons, Nat.pow_succ]
      omega

namespace Wasm.Codec

open Decoder

variable {α β : Type}

/-! ## Numbers -/

theorem reads_u32 (value : UInt32) : Reads u32.decode (u32.encode value) value := by
  have h := (Leb128.reads_unsigned (UInt32.toNat_lt value) (by decide)).map UInt32.ofNat
  rwa [UInt32.ofNat_toNat] at h

theorem reads_u64 (value : UInt64) : Reads u64.decode (u64.encode value) value := by
  have h := (Leb128.reads_unsigned (UInt64.toNat_lt value) (by decide)).map UInt64.ofNat
  rwa [UInt64.ofNat_toNat] at h

theorem reads_i32 (value : Int32) : Reads i32.decode (i32.encode value) value := by
  have h := (Leb128.reads_signed (Int32.le_toInt value) (Int32.toInt_lt value)
    (by decide : 0 < 32)).map Int32.ofInt
  rwa [Int32.ofInt_toInt] at h

theorem reads_i64 (value : Int64) : Reads i64.decode (i64.encode value) value := by
  have h := (Leb128.reads_signed (Int64.le_toInt value) (Int64.toInt_lt value)
    (by decide : 0 < 64)).map Int64.ofInt
  rwa [Int64.ofInt_toInt] at h

/-- Bytes of a known number are read as they are. -/
theorem reads_bytes {n : Nat} {value : Bytes} (size : value.length = n) :
    Reads (bytes n) value value := by
  subst size
  exact Reads.bytes value

theorem reads_f32 (value : Binary32) : Reads f32.decode (f32.encode value) value := by
  have h := (reads_bytes (Bytes.length_littleEndian 4 value.bits.toNat)).map
    fun bs => (⟨UInt32.ofNat (Bytes.toNatLE bs)⟩ : Binary32)
  have small : value.bits.toNat < 256 ^ 4 := by
    have := UInt32.toNat_lt value.bits
    omega
  rwa [Bytes.toNatLE_littleEndian, Nat.mod_eq_of_lt small, UInt32.ofNat_toNat] at h

theorem reads_f64 (value : Binary64) : Reads f64.decode (f64.encode value) value := by
  have h := (reads_bytes (Bytes.length_littleEndian 8 value.bits.toNat)).map
    fun bs => (⟨UInt64.ofNat (Bytes.toNatLE bs)⟩ : Binary64)
  have small : value.bits.toNat < 256 ^ 8 := by
    have := UInt64.toNat_lt value.bits
    omega
  rwa [Bytes.toNatLE_littleEndian, Nat.mod_eq_of_lt small, UInt64.ofNat_toNat] at h

theorem reads_v128 (value : V128) : Reads v128.decode (v128.encode value) value := by
  have size : value.toList.length = 16 := by simp
  have h : Reads v128.decode (value.toList ++ []) value := by
    refine Reads.bind (reads_bytes size) ?_
    rw [dif_pos size]
    exact Reads.pure value
  rwa [List.append_nil] at h

theorem reads_bool (value : Bool) : Reads bool.decode (bool.encode value) value := by
  refine Reads.atOffset fun start => ?_
  cases value
  · exact Reads.byteBind (Reads.pure false)
  · exact Reads.byteBind (Reads.pure true)

/-! ## Vectors -/

/-- A length within a bound has few enough bits. -/
theorem reads_length {n : Nat} {limit : UInt32} (bounded : n ≤ limit.toNat) :
    Reads (Leb128.readUnsigned 32) (Leb128.unsigned n) n :=
  Leb128.reads_unsigned (Nat.lt_of_le_of_lt bounded (UInt32.toNat_lt limit)) (by decide)

/-- A length that is within its bound, and not more than what follows it. -/
theorem count_eq_ok {what : String} {limit : UInt32} {n : Nat} {front : Bytes}
    (number : Reads (Leb128.readUnsigned 32) front n) (bounded : n ≤ limit.toNat)
    {left : Bytes} (present : n ≤ left.length) (start : Nat) (id : Option SectionId) :
    count what limit ⟨start, front ++ left, id⟩ = .ok n ⟨start + front.length, left, id⟩ := by
  have there : Bytes.hasAtLeast n left = true := by rwa [Bytes.hasAtLeast_iff]
  rw [count, offset_bind, bind_ok (number start left id), if_neg (Nat.not_lt.mpr bounded),
    hasAtLeast_bind, there]
  rfl

theorem reads_countBind {what : String} {limit : UInt32} {n : Nat} {f : Nat → Decoder β}
    {front bytes : Bytes} {b : β} (number : Reads (Leb128.readUnsigned 32) front n)
    (bounded : n ≤ limit.toNat) (present : n ≤ bytes.length) (h : Reads (f n) bytes b) :
    Reads (count what limit >>= f) (front ++ bytes) b := by
  intro start rest id
  have enough : n ≤ (bytes ++ rest).length := by
    rw [List.length_append]
    omega
  rw [List.append_assoc, bind_ok (count_eq_ok number bounded enough start id), h,
    List.length_append, Nat.add_assoc]

/-- Items that take a byte or more each are at most as many as their bytes. -/
theorem length_le_length_flatten {contents : List Bytes} (nonempty : [] ∉ contents) :
    contents.length ≤ contents.flatten.length := by
  induction contents with
  | nil => simp
  | cons head tail ih =>
      simp only [List.mem_cons, not_or] at nonempty
      have first : 0 < head.length := List.length_pos_iff.mpr (Ne.symm nonempty.1)
      have others := ih nonempty.2
      rw [List.length_cons, List.flatten_cons, List.length_append]
      omega

/-- The number that stands in front of a vector within a bound. -/
theorem encode_length {n : Nat} (small : n < 2 ^ 32) :
    u32.encode (UInt32.ofNat n) = Leb128.unsigned n := by
  show Leb128.unsigned (UInt32.ofNat n).toNat = _
  rw [UInt32.toNat_ofNat_of_lt' small]

/-- Items behind their number, where each item has bytes of its own. -/
theorem reads_countedItems {what : String} {limit : UInt32} {item : Decoder α} {items : List α}
    {contents : List Bytes} (bounded : items.length ≤ limit.toNat) (nonempty : [] ∉ contents)
    (each : List.Forall₂ (fun a bytes => Reads item bytes a) items contents) :
    Reads (counted what limit item)
      (u32.encode (UInt32.ofNat items.length) ++ contents.flatten) items := by
  have present := length_le_length_flatten nonempty
  rw [← each.length_eq] at present
  rw [encode_length (Nat.lt_of_le_of_lt bounded (UInt32.toNat_lt limit))]
  exact reads_countBind (reads_length bounded) bounded present (Reads.list each)

/-- An item of a list is no longer than the list. -/
theorem length_encode_le (encode : α → Bytes) {items : List α} {a : α} (member : a ∈ items) :
    (encode a).length ≤ (encodeList encode items).length := by
  have part : (encode a).length ≤ ((items.map encode).flatten).length :=
    (List.sublist_flatten_of_mem (List.mem_map_of_mem member)).length_le
  rw [encodeList, List.flatMap_def, List.length_append]
  omega

theorem reads_counted {what : String} {limit : UInt32} {item : Decoder α} {encode : α → Bytes}
    {items : List α} (bounded : items.length ≤ limit.toNat)
    (nonempty : ∀ a ∈ items, encode a ≠ []) (each : ∀ a ∈ items, Reads item (encode a) a) :
    Reads (counted what limit item) (encodeList encode items) items := by
  rw [encodeList, List.flatMap_def]
  refine reads_countedItems bounded ?_ ?_
  · simpa using nonempty
  · rw [List.forall₂_map_right_iff, List.forall₂_same]
    exact each

/-! ## Bytes and text -/

/-- Bytes behind a spelling of their number. -/
theorem reads_bytesBehind {front value : Bytes}
    (number : Reads (Leb128.readUnsigned 32) front value.length) :
    Reads byteVector.decode (front ++ value) value :=
  number.bind (Reads.bytes value)

/-- Bytes whose number has 32 bits. -/
theorem reads_shortBytes {value : Bytes} (short : value.length < 2 ^ 32) :
    Reads byteVector.decode (byteVector.encode value) value := by
  have h := reads_bytesBehind (Leb128.reads_unsigned short (by decide : 0 < 32))
  rwa [← encode_length short] at h

/-- A byte vector that a length prefix can describe. -/
theorem reads_byteVector {value : Bytes} (size : (byteVector.encode value).length < 2 ^ 32) :
    Reads byteVector.decode (byteVector.encode value) value := by
  have length : (byteVector.encode value).length = _ := List.length_append
  exact reads_shortBytes (by omega)

theorem toListLoop_eq (bytes : ByteArray) (i : Nat) (acc : List UInt8) :
    ByteArray.toList.loop bytes i acc = acc.reverse ++ bytes.data.toList.drop i := by
  fun_induction ByteArray.toList.loop bytes i acc with
  | case1 i acc below ih =>
      have inside : i < bytes.data.toList.length := below
      rw [ih, List.drop_eq_getElem_cons inside]
      simp [ByteArray.get!, below]
  | case2 i acc above =>
      have past : bytes.data.toList.length ≤ i := Nat.le_of_not_lt above
      rw [List.drop_eq_nil_of_le past, List.append_nil]

/-- The bytes of a text are a text. -/
theorem fromUTF8?_toUTF8 (value : String) :
    String.fromUTF8? ⟨value.toUTF8.toList.toArray⟩ = some value := by
  have same : (⟨value.toUTF8.toList.toArray⟩ : ByteArray) = value.toByteArray := by
    apply ByteArray.ext
    simp [ByteArray.toList, toListLoop_eq]
  rw [same, String.fromUTF8?, dif_pos value.isValidUTF8]
  rfl

theorem length_toUTF8 (value : String) : value.toUTF8.toList.length = value.utf8ByteSize := by
  simp [ByteArray.toList, toListLoop_eq]

theorem string_ne_nil (value : String) : string.encode value ≠ [] :=
  List.append_ne_nil_of_left_ne_nil (Leb128.unsigned_ne_nil _) _

/-- The bytes of a text, read as bytes, are read as the text. -/
theorem reads_textOf {bytes : Bytes} {value : String}
    (h : Reads byteVector.decode bytes value.toUTF8.toList) :
    Reads string.decode bytes value := by
  refine Reads.atOffset fun start => ?_
  rw [← List.append_nil bytes]
  refine Reads.bind h ?_
  rw [fromUTF8?_toUTF8]
  exact Reads.pure value

/-- Text whose number of bytes has 32 bits. -/
theorem reads_shortString {value : String} (short : value.utf8ByteSize < 2 ^ 32) :
    Reads string.decode (string.encode value) value :=
  reads_textOf (reads_shortBytes (by rwa [length_toUTF8]))

theorem reads_string {value : String} (size : (string.encode value).length < 2 ^ 32) :
    Reads string.decode (string.encode value) value :=
  reads_textOf (reads_byteVector size)

/-! ## Types -/

@[simp] theorem ofByte?_toByte (type : ValType) : ValType.ofByte? type.toByte = some type := by
  cases type <;> rfl

theorem reads_valType (type : ValType) : Reads valType.decode (valType.encode type) type := by
  refine Reads.atOffset fun start => Reads.byteBind ?_
  rw [ofByte?_toByte]
  exact Reads.pure type

theorem reads_refType {type : ValType} (isRef : type.isRef = true) :
    Reads refType (valType.encode type) type := by
  refine Reads.atOffset fun start => ?_
  rw [← List.append_nil (valType.encode type)]
  refine Reads.bind (reads_valType type) ?_
  rw [if_pos isRef]
  exact Reads.pure type

theorem reads_valTypes {what : String} {limit : UInt32} {types : List ValType}
    (bounded : types.length ≤ limit.toNat) :
    Reads (counted what limit valType.decode) (encodeList valType.encode types) types :=
  reads_counted bounded (by simp [valType]) fun type _ => reads_valType type

theorem reads_funcType {type : FuncType} (params : type.params.length ≤ Bound.valueTypes.toNat)
    (results : type.results.length ≤ Bound.valueTypes.toNat) :
    Reads funcType.decode (funcType.encode type) type :=
  (Reads.expect funcTypeTag).bind <| (reads_valTypes params).bind <|
    (reads_valTypes results).bindPure

theorem reads_limits (value : Limits) : Reads limits.decode (limits.encode value) value := by
  obtain ⟨min, max⟩ := value
  refine Reads.atOffset fun start => ?_
  cases max with
  | none => exact Reads.byteBind (reads_u32 min).bindPure
  | some max =>
      exact Reads.byteBind <| (reads_u32 min).bind (reads_u32 max).bindPure

theorem reads_tableType {type : TableType} (isRef : type.element.isRef = true) :
    Reads tableType.decode (tableType.encode type) type :=
  (reads_refType isRef).bind (reads_limits type.limits).bindPure

/-- Limits never open with the flag of a shared memory. -/
theorem limits_encode_head (value : Limits) :
    ∃ flag tail, limits.encode value = flag :: tail ∧ flag ≠ sharedFlag := by
  obtain ⟨min, max⟩ := value
  cases max with
  | none => exact ⟨0x00, _, rfl, by decide⟩
  | some max => exact ⟨0x01, _, rfl, by decide⟩

/-- Only a shared memory with a maximum can be told from what is written for it. -/
theorem reads_memoryType {type : MemoryType}
    (maximum : type.shared = true → type.limits.max.isSome = true) :
    Reads memoryType.decode (memoryType.encode type) type := by
  obtain ⟨⟨min, max⟩, shared⟩ := type
  cases shared with
  | true =>
      obtain ⟨max, rfl⟩ := Option.isSome_iff_exists.mp (maximum rfl)
      refine Reads.peekBind ?_
      rw [if_pos rfl]
      exact Reads.byteBind <| (reads_u32 min).bind (reads_u32 max).bindPure
  | false =>
      have h : Reads memoryType.decode (limits.encode ⟨min, max⟩) ⟨⟨min, max⟩, false⟩ := by
        obtain ⟨flag, tail, opened, other⟩ := limits_encode_head ⟨min, max⟩
        have value := (reads_limits ⟨min, max⟩).bindPure (f := fun l => MemoryType.mk l false)
        rw [opened] at value ⊢
        -- The reader looks at the flag without taking it, and takes it as part of the limits.
        refine Reads.peekBind ?_
        rwa [if_neg other]
      exact h

theorem limits_ne_nil (value : Limits) : limits.encode value ≠ [] := by
  obtain ⟨flag, tail, opened, -⟩ := limits_encode_head value
  exact opened ▸ List.cons_ne_nil flag tail

theorem memoryType_ne_nil (type : MemoryType) : memoryType.encode type ≠ [] := by
  obtain ⟨value, shared⟩ := type
  cases shared with
  | true => exact List.cons_ne_nil _ _
  | false => exact limits_ne_nil value

theorem reads_globalType (type : GlobalType) :
    Reads globalType.decode (globalType.encode type) type := by
  obtain ⟨value, isMutable⟩ := type
  refine (reads_valType value).bind <| Reads.atOffset fun start => Reads.byteBind ?_
  cases isMutable
  · exact Reads.pure _
  · exact Reads.pure _

/-! ## Immediates -/

theorem reads_memArg (arg : MemArg) : Reads memArg.decode (memArg.encode arg) arg :=
  (reads_u32 arg.align).bind (reads_u32 arg.offset).bindPure

/-- The bytes of value types lie where no non-negative integer can begin. -/
theorem ofByte?_eq_none {b : UInt8} (outside : b.toNat < 64 ∨ 128 ≤ b.toNat) :
    ValType.ofByte? b = none := by
  unfold ValType.ofByte?
  split <;> first | omega | rfl

/-- The first byte of a non-negative integer. -/
theorem signed_head {n : Int} (nonneg : 0 ≤ n) :
    ∃ b tail, Leb128.signed n = b :: tail ∧ (b.toNat < 64 ∨ 128 ≤ b.toNat) := by
  rw [Leb128.signed]
  split
  · refine ⟨_, _, rfl, .inl ?_⟩
    rw [UInt8.toNat_ofNat']
    omega
  · refine ⟨_, _, rfl, .inr ?_⟩
    rw [UInt8.toNat_ofNat']
    omega

/-- The number of a signature, however it is spelt, is not taken for a type. -/
theorem reads_signature {b : UInt8} {tail : Bytes} {index : UInt32}
    (number : Reads (Leb128.readSigned 33) (b :: tail) index.toNat)
    (outside : b.toNat < 64 ∨ 128 ≤ b.toNat) :
    Reads blockType.decode (b :: tail) (.funcType index) := by
  refine Reads.atOffset fun start => Reads.peekBind ?_
  rw [if_neg, ofByte?_eq_none outside, ← List.append_nil (b :: tail)]
  · refine Reads.bind number ?_
    rw [if_neg (by omega), Int.toNat_natCast, UInt32.ofNat_toNat]
    exact Reads.pure _
  · rintro rfl
    revert outside
    decide

theorem reads_blockType (type : BlockType) :
    Reads blockType.decode (blockType.encode type) type := by
  cases type with
  | empty =>
      refine Reads.atOffset fun start => Reads.peekBind ?_
      rw [if_pos rfl]
      exact Reads.byteBind (Reads.pure _)
  | value type =>
      refine Reads.atOffset fun start => Reads.peekBind ?_
      rw [if_neg (by cases type <;> decide), ofByte?_toByte]
      exact Reads.byteBind (Reads.pure _)
  | funcType index =>
      have small := UInt32.toNat_lt index
      -- An index of 32 bits is written as a signed number of 33.
      have number : Reads (Leb128.readSigned 33) (Leb128.signed index.toNat) index.toNat :=
        Leb128.reads_signed (by omega) (by omega) (by decide)
      obtain ⟨b, tail, opened, outside⟩ := signed_head (Int.natCast_nonneg index.toNat)
      rw [opened] at number
      rw [show blockType.encode (.funcType index) = b :: tail from opened]
      exact reads_signature number outside

end Wasm.Codec
