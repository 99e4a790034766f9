import Wasm.Proofs.Binary.Items

/-!
# Laws that compose

Several laws are stated of every decoder of the format: where it fails, what
more input changes for it, and on which bytes its result depends. They compare
two decoders, since the offsets in error reports and the fuel of a loop differ
from input to input, and each law is closed under the few steps that decoders
are made of. `Compositional` has a clause for each of these steps, which is all
that is needed to walk through the format once for all laws. Only a body is left
out, because it is read with fuel, and every law has its own way of counting
that. From a law of expressions the walk goes on to the items of sections.
-/

namespace Wasm

namespace Decoder

variable {α β : Type}

/-- A law on pairs of decoders, closed under the steps that decoders are made of.
What succeeds under `Law least` has taken at least `least` bytes, which the
lengths of vectors are held against. `Marks` relates the offsets that the two
decoders remember. -/
structure Compositional (Marks : Nat → Nat → Prop)
    (Law : ⦃α : Type⦄ → (least : Nat) → Decoder α → Decoder α → Prop) : Prop where
  pure {α : Type} (a : α) : Law 0 (pure a) (pure a)
  seq {α β : Type} {least more : Nat} {d d' : Decoder α} {f f' : α → Decoder β}
    (first : Law least d d') (second : ∀ a, Law more (f a) (f' a)) :
    Law (least + more) (d >>= f) (d' >>= f')
  fewer {α : Type} {least less : Nat} {d d' : Decoder α} (h : Law least d d')
    (fewer : less ≤ least) : Law less d d'
  failAt {α : Type} {least start start' : Nat} (marks : Marks start start')
    (fault : DecodeFault) : Law least (failAt (α := α) start fault) (failAt start' fault)
  fail {α : Type} {least : Nat} (fault : DecodeFault) :
    Law least (fail (α := α) fault) (fail fault)
  failAtEnd {α : Type} {least : Nat} : Law least (failAtEnd (α := α)) failAtEnd
  atOffset {β : Type} {least : Nat} {f f' : Nat → Decoder β}
    (h : ∀ {start start'}, Marks start start' → Law least (f start) (f' start')) :
    Law least (offset >>= f) (offset >>= f')
  /-- A test for bytes that will be taken anyway. -/
  atLeast {β : Type} {least : Nat} {d d' : Decoder β} (h : Law least d d') :
    Law least (hasAtLeast least >>= fun there => if there then d else Decoder.failAtEnd)
      (hasAtLeast least >>= fun there => if there then d' else Decoder.failAtEnd)
  /-- A byte that is looked at and then read. -/
  peekBind {β : Type} {f f' : UInt8 → Decoder β} (h : ∀ b, Law 1 (f b) (f' b)) :
    Law 1 (peek >>= f) (peek >>= f')
  byte : Law 1 byte byte
  bytes (n : Nat) : Law n (bytes n) (bytes n)

end Decoder

namespace Decoder

/-- What a body goes on with behind its first byte `b`, which was read at
`start`. The bodies in the instruction that starts there are read by `inner`,
and the instructions that follow it by `rest`. -/
def bodyBehind (inner : Bool → Decoder (List Instr × Terminator))
    (rest : Decoder (List Instr × Terminator)) (inThenArm : Bool) (start : Nat) (b : UInt8) :
    Decoder (List Instr × Terminator) :=
  if b = endByte then return ([], .endOfBody)
  else if b = elseByte then
    if inThenArm then return ([], .elseArm) else failAt start .unexpectedElse
  else do
    let definition ← definition start b
    let operand ← immediate inner definition.shape
    let (code, terminator) ← rest
    return (.mk definition.name operand :: code, terminator)

theorem body_succ (fuel depth : Nat) (inThenArm : Bool) :
    body (fuel + 1) depth inThenArm = offset >>= fun start => byte >>= bodyBehind
      (fun inThenArm => nested depth (body fuel (depth + 1) inThenArm))
      (body fuel depth inThenArm) inThenArm start :=
  rfl

end Decoder

namespace Decoder.Compositional

variable {Marks : Nat → Nat → Prop}
  {Law : ⦃α : Type⦄ → (least : Nat) → Decoder α → Decoder α → Prop}
  {α β : Type} {least start start' : Nat}

/-! ## Steps -/

/-- How much is taken does not matter behind a part that takes enough. -/
theorem forget (law : Compositional Marks Law) {d d' : Decoder α} (h : Law least d d') :
    Law 0 d d' :=
  law.fewer h (Nat.zero_le least)

theorem bind (law : Compositional Marks Law) {d d' : Decoder α} {f f' : α → Decoder β}
    (first : Law least d d') (second : ∀ a, Law 0 (f a) (f' a)) :
    Law least (d >>= f) (d' >>= f') :=
  law.seq first second

/-- The same behind a part that takes enough. -/
theorem andThen (law : Compositional Marks Law) {d d' : Decoder α} {f f' : α → Decoder β}
    (first : Law least d d') (second : ∀ a, Law 0 (f a) (f' a)) : Law 0 (d >>= f) (d' >>= f') :=
  law.forget (law.bind first second)

theorem map (law : Compositional Marks Law) {d d' : Decoder α} (h : Law least d d')
    (f : α → β) : Law least (f <$> d) (f <$> d') := by
  rw [map_eq_pure_bind, map_eq_pure_bind]
  exact law.bind h fun a => law.pure (f a)

theorem ite (_ : Compositional Marks Law) {p : Prop} [Decidable p] {d d' e e' : Decoder α}
    (pos : Law least d d') (neg : Law least e e') :
    Law least (if p then d else e) (if p then d' else e') := by
  by_cases h : p
  · rw [if_pos h, if_pos h]
    exact pos
  · rw [if_neg h, if_neg h]
    exact neg

theorem expect (law : Compositional Marks Law) (expected : UInt8) :
    Law 1 (expect expected) (expect expected) :=
  law.atOffset fun marks => law.bind law.byte fun _ =>
    law.ite (law.pure _) (law.failAt marks _)

theorem list (law : Compositional Marks Law) {item item' : Decoder α} (h : Law 1 item item')
    (n : Nat) : Law n (list item n) (list item' n) := by
  induction n with
  | zero => exact law.pure []
  | succ n ih =>
      have tail : ∀ head, Law n (Decoder.list item n >>= fun tail => Pure.pure (head :: tail))
          (Decoder.list item' n >>= fun tail => Pure.pure (head :: tail)) :=
        fun head => law.bind ih fun tail => law.pure (head :: tail)
      exact law.fewer (law.seq h tail) (Nat.le_of_eq (Nat.add_comm n 1))

/-! ## Integers -/

theorem unsignedGroups (law : Compositional Marks Law) (marks : Marks start start')
    (groups width : Nat) :
    Law 1 (Leb128.unsignedGroups start groups width)
      (Leb128.unsignedGroups start' groups width) := by
  induction groups generalizing width with
  | zero => exact law.failAt marks _
  | succ groups ih =>
      refine law.bind law.byte fun b => law.ite (law.failAt marks _) (law.ite (law.pure _) ?_)
      exact law.andThen (ih (width - 7)) fun high => law.pure _

theorem signedGroups (law : Compositional Marks Law) (marks : Marks start start')
    (groups width : Nat) :
    Law 1 (Leb128.signedGroups start groups width) (Leb128.signedGroups start' groups width) := by
  induction groups generalizing width with
  | zero => exact law.failAt marks _
  | succ groups ih =>
      refine law.bind law.byte fun b => law.ite (law.failAt marks _) (law.ite (law.pure _) ?_)
      exact law.andThen (ih (width - 7)) fun high => law.pure _

theorem readUnsigned (law : Compositional Marks Law) (width : Nat) :
    Law 1 (Leb128.readUnsigned width) (Leb128.readUnsigned width) :=
  law.atOffset fun marks => law.unsignedGroups marks _ width

theorem readSigned (law : Compositional Marks Law) (width : Nat) :
    Law 1 (Leb128.readSigned width) (Leb128.readSigned width) :=
  law.atOffset fun marks => law.signedGroups marks _ width

/-! ## Codecs -/

open Codec

theorem u32 (law : Compositional Marks Law) : Law 1 u32.decode u32.decode :=
  law.map (law.readUnsigned 32) _

theorem i32 (law : Compositional Marks Law) : Law 1 i32.decode i32.decode :=
  law.map (law.readSigned 32) _

theorem i64 (law : Compositional Marks Law) : Law 1 i64.decode i64.decode :=
  law.map (law.readSigned 64) _

theorem f32 (law : Compositional Marks Law) : Law 1 f32.decode f32.decode :=
  law.map (law.fewer (law.bytes 4) (by decide)) _

theorem f64 (law : Compositional Marks Law) : Law 1 f64.decode f64.decode :=
  law.map (law.fewer (law.bytes 8) (by decide)) _

theorem v128 (law : Compositional Marks Law) : Law 1 v128.decode v128.decode := by
  refine law.bind (law.fewer (law.bytes 16) (by decide)) fun bs => ?_
  by_cases h : bs.length = 16
  · rw [dif_pos h]
    exact law.pure _
  · rw [dif_neg h]
    exact law.failAtEnd

theorem bool (law : Compositional Marks Law) : Law 1 bool.decode bool.decode := by
  refine law.atOffset fun marks => law.bind law.byte fun found => ?_
  split
  · exact law.pure false
  · exact law.pure true
  · exact law.failAt marks _

/-- A count may be held against what is left, since each item that follows
takes a byte. -/
theorem countBind (law : Compositional Marks Law) {what : String} {limit : UInt32}
    {f f' : Nat → Decoder β} (h : ∀ n, Law n (f n) (f' n)) :
    Law 1 (count what limit >>= f) (count what limit >>= f') := by
  have opened : ∀ f : Nat → Decoder β, (count what limit >>= f) = (do
      let start ← offset
      let n ← Leb128.readUnsigned 32
      if limit.toNat < n then Decoder.failAt start (.limitExceeded what n limit)
      else if ← hasAtLeast n then f n else Decoder.failAtEnd) := by
    intro f
    simp only [count, bind_assoc]
    refine bind_congr fun start => bind_congr fun n => ?_
    split
    · rfl
    · rw [bind_assoc]
      refine bind_congr fun there => ?_
      cases there <;> rfl
  rw [opened, opened]
  refine law.atOffset fun marks => law.bind (law.readUnsigned 32) fun n => ?_
  exact law.ite (law.failAt marks _) (law.forget (law.atLeast (h n)))

theorem counted (law : Compositional Marks Law) {item item' : Decoder α} (h : Law 1 item item')
    (what : String) (limit : UInt32) :
    Law 1 (counted what limit item) (counted what limit item') :=
  law.countBind fun n => law.list h n

theorem byteVector (law : Compositional Marks Law) : Law 1 byteVector.decode byteVector.decode :=
  law.bind (law.readUnsigned 32) fun n => law.forget (law.bytes n)

theorem string (law : Compositional Marks Law) : Law 1 string.decode string.decode := by
  refine law.atOffset fun marks => law.bind law.byteVector fun bs => ?_
  cases String.fromUTF8? ⟨bs.toArray⟩ with
  | none => exact law.failAt marks _
  | some value => exact law.pure value

theorem valType (law : Compositional Marks Law) : Law 1 valType.decode valType.decode := by
  refine law.atOffset fun marks => law.bind law.byte fun b => ?_
  cases ValType.ofByte? b with
  | none => exact law.failAt marks _
  | some type => exact law.pure type

theorem refType (law : Compositional Marks Law) : Law 1 refType refType :=
  law.atOffset fun marks => law.bind law.valType fun type =>
    law.ite (law.pure type) (law.failAt marks _)

theorem funcType (law : Compositional Marks Law) : Law 1 funcType.decode funcType.decode := by
  refine law.bind (law.expect funcTypeTag) fun _ => ?_
  refine law.andThen (law.counted law.valType _ _) fun params => ?_
  exact law.andThen (law.counted law.valType _ _) fun results => law.pure _

theorem limits (law : Compositional Marks Law) : Law 1 limits.decode limits.decode := by
  refine law.atOffset fun marks => law.bind law.byte fun flag => ?_
  split
  · exact law.andThen law.u32 fun min => law.pure _
  · exact law.andThen law.u32 fun min => law.andThen law.u32 fun max => law.pure _
  · exact law.failAt marks _

theorem tableType (law : Compositional Marks Law) : Law 1 tableType.decode tableType.decode :=
  law.bind law.refType fun _ => law.andThen law.limits fun _ => law.pure _

theorem memoryType (law : Compositional Marks Law) :
    Law 1 memoryType.decode memoryType.decode := by
  refine law.peekBind fun b => law.ite ?_ ?_
  · exact law.bind law.byte fun _ => law.andThen law.u32 fun min =>
      law.andThen law.u32 fun max => law.pure _
  · exact law.bind law.limits fun limits => law.pure _

theorem globalType (law : Compositional Marks Law) :
    Law 1 globalType.decode globalType.decode := by
  refine law.bind law.valType fun value => law.atOffset fun marks => ?_
  refine law.andThen law.byte fun flag => ?_
  split
  · exact law.pure _
  · exact law.pure _
  · exact law.failAt marks _

theorem memArg (law : Compositional Marks Law) : Law 1 memArg.decode memArg.decode :=
  law.bind law.u32 fun _ => law.andThen law.u32 fun _ => law.pure _

theorem blockType (law : Compositional Marks Law) : Law 1 blockType.decode blockType.decode := by
  refine law.atOffset fun marks => law.peekBind fun b => law.ite ?_ ?_
  · exact law.bind law.byte fun _ => law.pure _
  · cases ValType.ofByte? b with
    | some type => exact law.bind law.byte fun _ => law.pure _
    | none =>
        refine law.bind (law.readSigned 33) fun index => ?_
        exact law.ite (law.failAt marks _) (law.pure _)

theorem wireType (law : Compositional Marks Law) (type : WireType) :
    Law 1 type.codec.decode type.codec.decode := by
  induction type with
  | u32 => exact law.u32
  | i32 => exact law.i32
  | i64 => exact law.i64
  | f32 => exact law.f32
  | f64 => exact law.f64
  | v128 => exact law.v128
  | bool => exact law.bool
  | string => exact law.string
  | valType => exact law.valType
  | funcType => exact law.funcType
  | limits => exact law.limits
  | tableType => exact law.tableType
  | memoryType => exact law.memoryType
  | globalType => exact law.globalType
  | memArg => exact law.memArg
  | blockType => exact law.blockType
  | vector item ih => exact law.counted ih _ _

/-! ## Code -/

theorem definition (law : Compositional Marks Law) (marks : Marks start start') (b : UInt8) :
    Law 0 (definition start b) (definition start' b) := by
  rw [Decoder.definition, Decoder.definition]
  cases InstrSet.standard.atByte b with
  | error e => exact law.failAt marks _
  | ok entry =>
      cases entry with
      | instr d => exact law.pure d
      | space space =>
          refine law.bind (law.forget law.u32) fun code => ?_
          cases InstrSet.standard.atCode space code with
          | error e => exact law.failAt marks _
          | ok d => exact law.pure d

theorem immediate (law : Compositional Marks Law)
    {body body' : Bool → Decoder (List Instr × Terminator)}
    (h : ∀ inThenArm, Law 0 (body inThenArm) (body' inThenArm)) (shape : Shape) :
    Law 0 (immediate body shape) (immediate body' shape) := by
  cases shape with
  | none => exact law.pure _
  | i32 => exact law.andThen law.i32 fun _ => law.pure _
  | i64 => exact law.andThen law.i64 fun _ => law.pure _
  | f32 => exact law.andThen law.f32 fun _ => law.pure _
  | f64 => exact law.andThen law.f64 fun _ => law.pure _
  | v128 | shuffle => exact law.andThen law.v128 fun _ => law.pure _
  | index => exact law.andThen law.u32 fun _ => law.pure _
  | indexPair | callIndirect =>
      exact law.andThen law.u32 fun _ => law.andThen law.u32 fun _ => law.pure _
  | memArg => exact law.andThen law.memArg fun _ => law.pure _
  | lane => exact law.andThen law.byte fun _ => law.pure _
  | brTable =>
      refine law.andThen (law.counted law.u32 _ _) fun labels => ?_
      exact law.andThen law.u32 fun _ => law.pure _
  | selectTypes => exact law.andThen (law.counted law.valType _ _) fun _ => law.pure _
  | refType => exact law.andThen law.refType fun _ => law.pure _
  | reserved => exact law.andThen (law.expect 0x00) fun _ => law.pure _
  | block => exact law.andThen law.blockType fun type => law.bind (h false) fun _ => law.pure _
  | conditional =>
      refine law.andThen law.blockType fun type => law.bind (h true) fun first => ?_
      obtain ⟨thenBody, terminator⟩ := first
      cases terminator with
      | endOfBody => exact law.pure _
      | elseArm => exact law.bind (h false) fun _ => law.pure _

theorem nested (law : Compositional Marks Law) {inner inner' : Decoder α} (depth : Nat)
    (h : Law 0 inner inner') : Law 0 (nested depth inner) (nested depth inner') :=
  law.ite (law.fail _) h

theorem bodyBehind (law : Compositional Marks Law)
    {inner inner' : Bool → Decoder (List Instr × Terminator)}
    {rest rest' : Decoder (List Instr × Terminator)}
    (inside : ∀ inThenArm, Law 0 (inner inThenArm) (inner' inThenArm))
    (behind : Law 0 rest rest') (inThenArm : Bool) (marks : Marks start start') (b : UInt8) :
    Law 0 (bodyBehind inner rest inThenArm start b)
      (bodyBehind inner' rest' inThenArm start' b) := by
  refine law.ite (law.pure _) (law.ite ?_ ?_)
  · exact law.ite (law.pure _) (law.failAt marks _)
  · refine law.bind (law.definition marks b) fun d => ?_
    exact law.bind (law.immediate inside d.shape) fun operand => law.bind behind fun _ => law.pure _

/-! ## Items -/

theorem externKind (law : Compositional Marks Law) : Law 1 externKind externKind := by
  refine law.atOffset fun marks => law.bind law.byte fun b => ?_
  cases ExternKind.ofByte? b with
  | none => exact law.failAt marks _
  | some kind => exact law.pure kind

theorem importType (law : Compositional Marks Law) : Law 1 importType importType := by
  refine law.bind law.externKind fun kind => ?_
  cases kind with
  | func => exact law.andThen law.u32 fun _ => law.pure _
  | table => exact law.andThen law.tableType fun _ => law.pure _
  | memory => exact law.andThen law.memoryType fun _ => law.pure _
  | global => exact law.andThen law.globalType fun _ => law.pure _

theorem importItem (law : Compositional Marks Law) : Law 1 importItem importItem :=
  law.bind law.string fun _ => law.andThen law.string fun _ =>
    law.andThen law.importType fun _ => law.pure _

theorem exportItem (law : Compositional Marks Law) : Law 1 exportItem exportItem :=
  law.bind law.string fun _ => law.andThen law.externKind fun _ =>
    law.andThen law.u32 fun _ => law.pure _

theorem global (law : Compositional Marks Law) (code : Law 1 expr expr) :
    Law 1 Decoder.global Decoder.global :=
  law.bind law.globalType fun _ => law.andThen code fun _ => law.pure _

theorem elementMode (law : Compositional Marks Law) (code : Law 1 expr expr)
    (marks : Marks start start') (flags : UInt32) :
    Law 0 (elementMode start flags) (elementMode start' flags) := by
  rw [Decoder.elementMode, Decoder.elementMode]
  generalize flags.toNat = choice
  split
  · exact law.andThen code fun _ => law.pure _
  · exact law.andThen code fun _ => law.pure _
  · exact law.andThen law.u32 fun _ => law.andThen code fun _ => law.pure _
  · exact law.andThen law.u32 fun _ => law.andThen code fun _ => law.pure _
  · exact law.pure _
  · exact law.pure _
  · exact law.pure _
  · exact law.pure _
  · exact law.failAt marks _

theorem elementType (law : Compositional Marks Law) (flags : UInt32) :
    Law 0 (elementType flags) (elementType flags) := by
  refine law.ite (law.pure _) (law.ite ?_ ?_)
  · exact law.forget law.refType
  · exact law.andThen (law.expect functionEntries) fun _ => law.pure _

theorem elementSegment (law : Compositional Marks Law) (code : Law 1 expr expr) :
    Law 1 elementSegment elementSegment := by
  have functionEntry : Law 1 functionEntry functionEntry := law.bind law.u32 fun _ => law.pure _
  refine law.atOffset fun marks => law.bind law.u32 fun flags => ?_
  refine law.bind (law.elementMode code marks flags) fun mode => ?_
  refine law.bind (law.elementType flags) fun type => ?_
  exact law.andThen (law.counted (law.ite code functionEntry) _ _) fun _ => law.pure _

theorem dataMode (law : Compositional Marks Law) (code : Law 1 expr expr)
    (marks : Marks start start') (flags : UInt32) :
    Law 0 (dataMode start flags) (dataMode start' flags) := by
  rw [Decoder.dataMode, Decoder.dataMode]
  generalize flags.toNat = choice
  split
  · exact law.andThen code fun _ => law.pure _
  · exact law.pure _
  · exact law.andThen law.u32 fun _ => law.andThen code fun _ => law.pure _
  · exact law.failAt marks _

theorem dataSegment (law : Compositional Marks Law) (code : Law 1 expr expr) :
    Law 1 dataSegment dataSegment :=
  law.atOffset fun marks => law.bind law.u32 fun flags =>
    law.bind (law.dataMode code marks flags) fun _ => law.andThen law.byteVector fun _ =>
      law.pure _

/-! ## Function bodies -/

theorem runs (law : Compositional Marks Law) (n total : Nat) :
    Law n (runs n total) (runs n total) := by
  induction n generalizing total with
  | zero => exact law.pure []
  | succ n ih =>
      refine law.atOffset fun marks => ?_
      refine law.fewer (law.seq law.u32 fun length => ?_) (Nat.le_of_eq (Nat.add_comm n 1))
      refine law.fewer (law.seq law.valType fun type => ?_) (Nat.le_add_left n 1)
      exact law.ite (law.failAt marks _) (law.bind (ih _) fun rest => law.pure _)

theorem localsAndCode (law : Compositional Marks Law) (code : Law 1 expr expr) :
    Law 1 localsAndCode localsAndCode :=
  law.countBind fun n => law.bind (law.runs n 0) fun _ => law.andThen code fun _ => law.pure _

end Decoder.Compositional

end Wasm
