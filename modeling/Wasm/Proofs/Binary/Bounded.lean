import Wasm.Proofs.Binary.Grammar
import Wasm.Proofs.Binary.Writable

/-!
# Decoded modules are bounded

What the decoder makes of an input is held against two kinds of bounds: those
of the format's implementation, which do not depend on the input, and the
length of the input itself. The first kind is a matter of the values alone.
The second kind is not, since it rests on every item of a vector having taken
a byte: `Draws` says how much a decoder takes together with what it returns,
and the loop over the sections keeps the bound.
-/

namespace Wasm

/-! ## Code at any depth -/

mutual

/-- All instructions inside an immediate. -/
def Immediate.everywhere : Immediate → List Instr
  | .block _ body => Instr.everywhere body
  | .ifThen _ thenBody => Instr.everywhere thenBody
  | .ifElse _ thenBody elseBody => Instr.everywhere thenBody ++ Instr.everywhere elseBody
  | _ => []

/-- All instructions of code, at any depth. -/
def Instr.everywhere : List Instr → List Instr
  | [] => []
  | .mk name immediate :: rest =>
    .mk name immediate :: (immediate.everywhere ++ Instr.everywhere rest)

end

mutual

/-- The number of structured instructions that stand inside each other, from
the one with this immediate inwards. -/
def Immediate.nesting : Immediate → Nat
  | .block _ body => Instr.nesting body + 1
  | .ifThen _ thenBody => Instr.nesting thenBody + 1
  | .ifElse _ thenBody elseBody => max (Instr.nesting thenBody) (Instr.nesting elseBody) + 1
  | _ => 0

/-- The greatest such number in code. -/
def Instr.nesting : List Instr → Nat
  | [] => 0
  | .mk _ immediate :: rest => max immediate.nesting (Instr.nesting rest)

end

/-- The conditions on an immediate by itself, whatever stands inside it. -/
def Immediate.Bounded : Immediate → Prop
  | .brTable labels _ => labels.length ≤ Bound.branchLabels.toNat
  | .valTypes types => types.length ≤ Bound.selectTypes.toNat
  | .refType type => type.isRef = true
  | _ => True

/-- An instruction of the standard set, with an immediate of the shape that
goes with its mnemonic. -/
structure Instr.Shaped (instr : Instr) : Prop where
  known : ∃ d, InstrSet.standard.named instr.name = .ok d ∧
    d.shape.fits instr.immediate = true
  bounded : instr.immediate.Bounded

theorem Immediate.bounded_of_representable {depth : Nat} {immediate : Immediate}
    (rep : immediate.Representable depth) : immediate.Bounded := by
  cases immediate with
  | brTable | valTypes | refType => exact rep
  | _ => trivial

mutual

theorem Immediate.shaped_everywhere : (depth : Nat) → (immediate : Immediate) →
    immediate.Representable depth → ∀ instr ∈ immediate.everywhere, instr.Shaped
  | depth, .block _ body, rep => by
      rw [Immediate.everywhere]
      exact Instr.shaped_everywhere (depth + 1) body rep.2
  | depth, .ifThen _ thenBody, rep => by
      rw [Immediate.everywhere]
      exact Instr.shaped_everywhere (depth + 1) thenBody rep.2
  | depth, .ifElse _ thenBody elseBody, rep => by
      obtain ⟨-, repThen, repElse⟩ := rep
      rw [Immediate.everywhere, List.forall_mem_append]
      constructor
      · exact Instr.shaped_everywhere (depth + 1) thenBody repThen
      · exact Instr.shaped_everywhere (depth + 1) elseBody repElse
  | _, .none, _ | _, .i32 _, _ | _, .i64 _, _ | _, .f32 _, _ | _, .f64 _, _ | _, .v128 _, _
  | _, .index _, _ | _, .indexPair _ _, _ | _, .memArg _, _ | _, .lane _, _ | _, .shuffle _, _
  | _, .brTable _ _, _ | _, .callIndirect _ _, _ | _, .valTypes _, _ | _, .refType _, _
  | _, .reserved, _ => by
      rw [Immediate.everywhere]
      · exact List.forall_mem_nil _
      all_goals nofun

/-- The conditions on representable code reach every instruction in it. -/
theorem Instr.shaped_everywhere : (depth : Nat) → (code : List Instr) →
    Instr.AllRepresentable depth code → ∀ instr ∈ Instr.everywhere code, instr.Shaped
  | _, [], _ => by
      rw [Instr.everywhere]
      exact List.forall_mem_nil _
  | depth, .mk name immediate :: rest, rep => by
      obtain ⟨⟨known, inner⟩, others⟩ := rep
      rw [Instr.everywhere, List.forall_mem_cons, List.forall_mem_append]
      refine ⟨⟨known, Immediate.bounded_of_representable inner⟩, ?_, ?_⟩
      · exact Immediate.shaped_everywhere depth immediate inner
      · exact Instr.shaped_everywhere depth rest others

end

mutual

theorem Immediate.nesting_le : (depth : Nat) → (immediate : Immediate) →
    depth ≤ Bound.nesting.toNat → immediate.Representable depth →
    depth + immediate.nesting ≤ Bound.nesting.toNat
  | depth, .block _ body, _, ⟨room, rep⟩ => by
      have inside := Instr.nesting_le (depth + 1) body room rep
      rw [Immediate.nesting]
      omega
  | depth, .ifThen _ thenBody, _, ⟨room, rep⟩ => by
      have inside := Instr.nesting_le (depth + 1) thenBody room rep
      rw [Immediate.nesting]
      omega
  | depth, .ifElse _ thenBody elseBody, _, ⟨room, repThen, repElse⟩ => by
      have insideThen := Instr.nesting_le (depth + 1) thenBody room repThen
      have insideElse := Instr.nesting_le (depth + 1) elseBody room repElse
      rw [Immediate.nesting]
      omega
  | _, .none, room, _ | _, .i32 _, room, _ | _, .i64 _, room, _ | _, .f32 _, room, _
  | _, .f64 _, room, _ | _, .v128 _, room, _ | _, .index _, room, _ | _, .indexPair _ _, room, _
  | _, .memArg _, room, _ | _, .lane _, room, _ | _, .shuffle _, room, _ | _, .brTable _ _, room, _
  | _, .callIndirect _ _, room, _ | _, .valTypes _, room, _ | _, .refType _, room, _
  | _, .reserved, room, _ => by
      rw [Immediate.nesting]
      · exact room
      all_goals nofun

/-- What stands inside `depth` structured instructions nests that much less. -/
theorem Instr.nesting_le : (depth : Nat) → (code : List Instr) →
    depth ≤ Bound.nesting.toNat → Instr.AllRepresentable depth code →
    depth + Instr.nesting code ≤ Bound.nesting.toNat
  | _, [], room, _ => by
      rw [Instr.nesting]
      exact room
  | depth, .mk _ immediate :: rest, room, ⟨⟨_, rep⟩, others⟩ => by
      have first := Immediate.nesting_le depth immediate room rep
      have later := Instr.nesting_le depth rest room others
      rw [Instr.nesting]
      omega

end

/-! ## What is taken together with what is returned -/

namespace Decoder

variable {α β : Type} {P : α → Prop} {Q : β → Prop} {size least : Nat}

/-- Where no more than `size` bytes are left, `d` takes at least `least` of
them, and whatever it returns satisfies `P`. -/
def Draws (size least : Nat) (d : Decoder α) (P : α → Prop) : Prop :=
  ∀ (c : Cursor) (a : α) (c' : Cursor), c.rest.length ≤ size → d c = .ok a c' →
    least + c'.rest.length ≤ c.rest.length ∧ P a

theorem Draws.pure {a : α} (h : P a) : Draws size 0 (pure a) P := by
  rintro c b c' - ⟨⟩
  exact ⟨(Nat.zero_add _).le, h⟩

theorem Draws.seq {more : Nat} {d : Decoder α} {f : α → Decoder β} (first : Draws size least d P)
    (second : ∀ a, P a → Draws size more (f a) Q) : Draws size (least + more) (d >>= f) Q := by
  intro c b c' fits result
  obtain ⟨a, c₁, read, result⟩ := EStateM.bind_eq_ok.mp result
  obtain ⟨taken, value⟩ := first c a c₁ fits read
  obtain ⟨taken', value'⟩ := second a value c₁ b c' (by omega) result
  exact ⟨by omega, value'⟩

theorem Draws.bind {d : Decoder α} {f : α → Decoder β} (first : Draws size least d P)
    (second : ∀ a, P a → Draws size 0 (f a) Q) : Draws size least (d >>= f) Q :=
  first.seq second

theorem Draws.fewer {less : Nat} {d : Decoder α} (h : Draws size least d P)
    (fewer : less ≤ least) : Draws size less d P := by
  intro c a c' fits result
  obtain ⟨taken, value⟩ := h c a c' fits result
  exact ⟨by omega, value⟩

theorem Draws.forget {d : Decoder α} (h : Draws size least d P) : Draws size 0 d P :=
  h.fewer (Nat.zero_le least)

/-- How much a local decoder takes is known already. -/
theorem Draws.of_local {d : Decoder α} (h : ∀ room, Local least room d d) :
    Draws size least d fun _ => True := by
  intro c a c' _ result
  obtain ⟨used, takes, many, -⟩ := h 0 c a c' result
  have split := congrArg List.length takes.rest
  rw [List.length_append] at split
  exact ⟨by omega, trivial⟩

theorem Draws.of_fails {d : Decoder α} (fails : ∀ c a c', d c ≠ .ok a c') :
    Draws size least d P :=
  fun c a c' _ result => absurd result (fails c a c')

theorem Draws.ite {p : Prop} [Decidable p] {d d' : Decoder α} (pos : p → Draws size least d P)
    (neg : ¬p → Draws size least d' P) : Draws size least (if p then d else d') P := by
  by_cases h : p
  · rw [if_pos h]
    exact pos h
  · rw [if_neg h]
    exact neg h

/-- A step that looks at the cursor and leaves it where it is. -/
theorem Draws.looking {d : Decoder α} {f : α → Decoder β} (still : ∀ c, ∃ a, d c = .ok a c)
    (h : ∀ a, Draws size least (f a) Q) : Draws size least (d >>= f) Q := by
  intro c b c' fits result
  obtain ⟨a, found⟩ := still c
  rw [bind_ok found] at result
  exact h a c b c' fits result

theorem Draws.atOffset {f : Nat → Decoder β} (h : ∀ start, Draws size least (f start) Q) :
    Draws size least (offset >>= f) Q :=
  .looking (fun c => ⟨c.offset, rfl⟩) h

theorem Draws.atLeast {n : Nat} {f : Bool → Decoder β} (h : ∀ there, Draws size least (f there) Q) :
    Draws size least (hasAtLeast n >>= f) Q :=
  .looking (fun c => ⟨Bytes.hasAtLeast n c.rest, rfl⟩) h

/-- Items that take a byte each take as many bytes as there are items. -/
theorem Draws.list {item : Decoder α} (h : Draws size 1 item P) (n : Nat) :
    Draws size n (list item n) fun items => items.length = n ∧ ∀ a ∈ items, P a := by
  induction n with
  | zero => exact Draws.pure ⟨rfl, List.forall_mem_nil _⟩
  | succ n ih =>
      refine Draws.fewer (h.seq fun head first => ih.bind fun tail others => ?_)
        (Nat.add_comm n 1).le
      refine Draws.pure ⟨?_, ?_⟩
      · rw [List.length_cons, others.1]
      · exact List.forall_mem_cons.mpr ⟨first, others.2⟩

/-- A vector is no longer than what was left when it began. -/
theorem Draws.counted {item : Decoder α} (h : Draws size 1 item P) (what : String)
    (limit : UInt32) : Draws size 0 (Codec.counted what limit item) fun items =>
      items.length ≤ size ∧ ∀ a ∈ items, P a := by
  refine Draws.bind (P := fun _ => True) ?_ fun n _ => ?_
  · have law := Local.compositional
    refine Draws.atOffset fun start => ?_
    refine (Draws.of_local fun room => (law room).readUnsigned 32).forget.bind fun n _ => ?_
    refine Draws.ite (fun _ => .of_fails nofun) fun _ => Draws.atLeast fun there => ?_
    exact Draws.ite (fun _ => Draws.pure trivial) fun _ => .of_fails nofun
  · intro c items c' fits read
    obtain ⟨taken, length, each⟩ := h.list n c items c' fits read
    exact ⟨by omega, by omega, each⟩

theorem Draws.within {content : Decoder α} (h : Draws size 0 content P) (n : Nat)
    (id : SectionId) : Draws size 0 (within n id content) P := by
  intro c a c' fits result
  rw [Decoder.within] at result
  split at result
  · cases result
  · rename_i b inner read
    split at result
    · cases result
      have part : (c.rest.take n).length ≤ size := (List.length_take_le' n c.rest).trans fits
      refine ⟨?_, (h _ _ _ part read).2⟩
      rw [Cursor.skip, List.length_drop]
      omega
    · cases result

end Decoder

/-! ## Vectors and the input -/

/-- No vector that was read is longer than `size`, those of element segments
among them. -/
structure SectionContents.Drawn (size : Nat) (s : SectionContents) : Prop where
  types : s.result.types.length ≤ size
  imports : s.result.imports.length ≤ size
  bodies : s.bodies.length ≤ size
  tables : s.result.tables.length ≤ size
  memories : s.result.memories.length ≤ size
  globals : s.result.globals.length ≤ size
  exports : s.result.exports.length ≤ size
  elements : s.result.elements.length ≤ size
  entries : ∀ segment ∈ s.result.elements, segment.init.length ≤ size
  data : s.result.data.length ≤ size

namespace Decoder

variable {size : Nat}

theorem draws_elementSegment :
    Draws size 1 elementSegment fun segment => segment.init.length ≤ size := by
  have law := Local.compositional
  refine Draws.atOffset fun start => ?_
  refine (Draws.of_local fun room => (law room).u32).bind fun flags _ => ?_
  refine (Draws.of_local fun room =>
    (law room).elementMode local_expr trivial flags).bind fun mode _ => ?_
  refine (Draws.of_local fun room => (law room).elementType flags).bind fun type _ => ?_
  have entry : Draws size 1 (if 4 ≤ flags then expr else functionEntry) fun _ => True := by
    refine Draws.ite (fun _ => .of_local fun _ => local_expr) fun _ => ?_
    exact (Draws.of_local fun room => (law room).u32).bind fun _ _ => Draws.pure trivial
  exact (entry.counted _ _).bind fun init few => Draws.pure few.1

theorem draws_sectionContent {s : SectionContents} (drawn : s.Drawn size) (kind : SectionKind) :
    Draws size 0 (sectionContent s kind) (SectionContents.Drawn size) := by
  have law := Local.compositional
  cases kind with
  | custom =>
      intro c s' c' _ read
      obtain ⟨custom, c₁, read, done⟩ := EStateM.bind_eq_ok.mp read
      obtain ⟨used, takes, -⟩ := localAll_customSection c custom c₁ read
      cases done
      refine ⟨?_, { drawn with }⟩
      rw [takes.rest, List.length_append]
      omega
  | types =>
      refine ((Draws.of_local fun room => (law room).funcType).counted _ _).bind fun _ few => ?_
      exact Draws.pure { drawn with types := few.1 }
  | imports =>
      refine ((Draws.of_local fun room => (law room).importItem).counted _ _).bind fun _ few => ?_
      exact Draws.pure { drawn with imports := few.1 }
  | functions =>
      refine ((Draws.of_local fun room => (law room).u32).counted _ _).bind fun _ few => ?_
      exact Draws.pure { drawn with }
  | tables =>
      refine ((Draws.of_local fun room => (law room).tableType).counted _ _).bind fun _ few => ?_
      exact Draws.pure { drawn with tables := few.1 }
  | memories =>
      refine ((Draws.of_local fun room => (law room).memoryType).counted _ _).bind fun _ few => ?_
      exact Draws.pure { drawn with memories := few.1 }
  | globals =>
      refine ((Draws.of_local fun room => (law room).global local_expr).counted _ _).bind
        fun _ few => ?_
      exact Draws.pure { drawn with globals := few.1 }
  | exports =>
      refine ((Draws.of_local fun room => (law room).exportItem).counted _ _).bind fun _ few => ?_
      exact Draws.pure { drawn with exports := few.1 }
  | start | dataCount =>
      refine (Draws.of_local fun room => (law room).u32).forget.bind fun _ _ => ?_
      exact Draws.pure { drawn with }
  | elements =>
      refine (draws_elementSegment.counted _ _).bind fun _ few => ?_
      exact Draws.pure { drawn with elements := few.1, entries := few.2 }
  | code =>
      refine ((Draws.of_local fun _ => local_functionBody).counted _ _).bind fun _ few => ?_
      exact Draws.pure { drawn with bodies := few.1 }
  | data =>
      refine ((Draws.of_local fun room => (law room).dataSegment local_expr).counted _ _).bind
        fun _ few => ?_
      exact Draws.pure { drawn with data := few.1 }

/-- One section keeps the bound: its payload is part of the input. -/
theorem draws_nextSection {s : SectionContents} (drawn : s.Drawn size) :
    Draws size 0 (nextSection s) (SectionContents.Drawn size) := by
  have law := Local.compositional
  refine Draws.atOffset fun start => ?_
  refine (Draws.of_local fun _ => local_byte).forget.bind fun id _ => ?_
  refine (Draws.of_local fun room => (law room).u32).forget.bind fun length _ => ?_
  refine Draws.atLeast fun there => Draws.ite (fun _ => ?_) fun _ => .of_fails nofun
  have placed : Draws size 0 (checkOrder start id s) (SectionContents.Drawn size) := by
    refine Draws.ite (fun _ => Draws.pure drawn) fun _ => ?_
    exact Draws.ite (fun _ => .of_fails nofun) fun _ => Draws.pure { drawn with }
  refine placed.bind fun s' drawn' => ?_
  split
  · exact (draws_sectionContent drawn' _).within _ _
  · exact .of_fails nofun

theorem draws_sections (fuel : Nat) {s : SectionContents} (drawn : s.Drawn size) :
    Draws size 0 (sections fuel s) (SectionContents.Drawn size) := by
  induction fuel generalizing s with
  | zero => exact .of_fails nofun
  | succ fuel ih =>
      refine Draws.atLeast fun more => Draws.ite (fun _ => ?_) fun _ => Draws.pure drawn
      exact (draws_nextSection drawn).bind fun s' drawn' => ih drawn'

end Decoder

/-! ## Modules -/

open Decoder

namespace Module

/-- The types of all tables, imported ones first. -/
def tableTypes (m : Module) : List TableType :=
  m.imports.filterMap (fun i => match i.type with
    | .table type => some type
    | _ => none) ++ m.tables

/-- The types of all memories, imported ones first. -/
def memoryTypes (m : Module) : List MemoryType :=
  m.imports.filterMap (fun i => match i.type with
    | .memory type => some type
    | _ => none) ++ m.memories

/-- How long each vector in a section is, with the bound that it is read under.
The functions stand in two sections of one length. -/
def vectors (m : Module) : List (Nat × UInt32) :=
  [(m.types.length, Bound.types), (m.imports.length, Bound.imports),
    (m.funcs.length, Bound.functions), (m.tables.length, Bound.tables),
    (m.memories.length, Bound.memories), (m.globals.length, Bound.globals),
    (m.exports.length, Bound.exports), (m.elements.length, Bound.elementSegments),
    (m.data.length, Bound.dataSegments)] ++
    m.elements.map fun segment => (segment.init.length, Bound.elementEntries)

/-- A module within the bounds of the decoder that came from `size` bytes. -/
structure Bounded (m : Module) (size : Nat) : Prop where
  shaped : ∀ code ∈ m.code, ∀ instr ∈ Instr.everywhere code, instr.Shaped
  nesting : ∀ code ∈ m.code, Instr.nesting code ≤ Bound.nesting.toNat
  locals : ∀ f ∈ m.funcs, f.locals.length ≤ Bound.locals.toNat
  signatures : ∀ type ∈ m.types, type.params.length ≤ Bound.valueTypes.toNat ∧
    type.results.length ≤ Bound.valueTypes.toNat
  tables : ∀ type ∈ m.tableTypes, type.element.isRef = true
  entries : ∀ segment ∈ m.elements, segment.type.isRef = true
  memories : ∀ type ∈ m.memoryTypes, type.shared = true → type.limits.max.isSome = true
  vectors : ∀ vector ∈ m.vectors, vector.1 ≤ vector.2.toNat ∧ vector.1 ≤ size

/-- What is picked from the types of the imports is representable with them. -/
theorem ItemsRepresentable.picked {α : Type} {P : α → Prop} {pick : Import → Option α}
    {defined : List α} {m : Module} (rep : m.ItemsRepresentable)
    (own : ∀ i a, pick i = some a → i.type.Representable → P a) (others : ∀ a ∈ defined, P a) :
    ∀ a ∈ m.imports.filterMap pick ++ defined, P a := by
  refine List.forall_mem_append.mpr ⟨fun a member => ?_, others⟩
  obtain ⟨i, inside, found⟩ := List.mem_filterMap.mp member
  exact own i a found (rep.imports i inside)

theorem ItemsRepresentable.tableTypes {m : Module} (rep : m.ItemsRepresentable) :
    ∀ type ∈ m.tableTypes, type.Representable := by
  refine rep.picked (fun i type found own => ?_) rep.tables
  split at found
  · rename_i kind
    cases found
    rwa [kind] at own
  · cases found

theorem ItemsRepresentable.memoryTypes {m : Module} (rep : m.ItemsRepresentable) :
    ∀ type ∈ m.memoryTypes, type.Representable := by
  refine rep.picked (fun i type found own => ?_) rep.memories
  split at found
  · rename_i kind
    cases found
    rwa [kind] at own
  · cases found

theorem ItemsRepresentable.vectors {m : Module} (rep : m.ItemsRepresentable) :
    ∀ vector ∈ m.vectors, vector.1 ≤ vector.2.toNat := by
  simp only [Module.vectors, List.forall_mem_append, List.forall_mem_cons, List.forall_mem_map]
  refine ⟨⟨rep.typeCount, rep.importCount, rep.funcCount, rep.tableCount, rep.memoryCount,
    rep.globalCount, rep.exportCount, rep.elementCount, rep.dataCount, List.forall_mem_nil _⟩, ?_⟩
  intro segment member
  exact (rep.elements segment member).entries

/-- The loop over the sections leaves no vector that is longer than the input. -/
theorem vectors_le_of_decode {input : Bytes} {m : Module} (decoded : Module.decode input = .ok m) :
    ∀ vector ∈ m.vectors, vector.1 ≤ input.length := by
  rw [Module.decode] at decoded
  split at decoded
  · rename_i result c read
    cases decoded
    obtain ⟨⟨⟩, c₁, lead, read⟩ := EStateM.bind_eq_ok.mp read
    rw [remaining_bind] at read
    obtain ⟨s, c₂, loop, joined⟩ := EStateM.bind_eq_ok.mp read
    have part : c₁.rest.length ≤ input.length := by
      have split := congrArg List.length (header_eq_ok lead)
      rw [List.length_append] at split
      exact (Nat.le_add_left _ _).trans split.ge
    have nothing : ({} : SectionContents).Drawn input.length := by
      constructor <;> first | exact Nat.zero_le _ | exact List.forall_mem_nil _
    obtain ⟨-, drawn⟩ := draws_sections _ nothing c₁ s c₂ part loop
    rw [joinFuncs] at joined
    split at joined
    · cases joined
      simp only [Module.vectors, List.forall_mem_append, List.forall_mem_cons, List.forall_mem_map]
      refine ⟨⟨drawn.types, drawn.imports, ?_, drawn.tables, drawn.memories, drawn.globals,
        drawn.exports, drawn.elements, drawn.data, List.forall_mem_nil _⟩, drawn.entries⟩
      rw [List.length_map, List.length_zip]
      exact (Nat.min_le_right _ _).trans drawn.bodies
    · cases joined
  · cases decoded

/-- Whatever the input, what is decoded from it is within the bounds of the
decoder, and no vector in it is longer than the input. -/
theorem bounded_of_decode {input : Bytes} {m : Module} (decoded : Module.decode input = .ok m) :
    m.Bounded input.length := by
  have rep := representable_of_decode decoded
  constructor
  case shaped =>
    intro code member
    exact Instr.shaped_everywhere 0 code (rep.code code member)
  case nesting =>
    intro code member
    have room := Instr.nesting_le 0 code (Nat.zero_le _) (rep.code code member)
    rwa [Nat.zero_add] at room
  case locals => exact fun f member => (rep.funcs f member).locals
  case signatures => exact rep.types
  case tables => exact rep.tableTypes
  case entries => exact fun segment member => (rep.elements segment member).type
  case memories => exact rep.memoryTypes
  case vectors =>
    intro vector member
    exact ⟨rep.vectors vector member, vectors_le_of_decode decoded vector member⟩

/-- A table, a shared memory, and a function with two runs of locals whose code
branches out of a loop inside a block. -/
theorem bounded_of_decode_nested :
    let input : Bytes := magic ++ Bytes.littleEndian 4 formatVersion.toNat ++
      [1, 4, 1, 0x60, 0, 0, 3, 2, 1, 0, 4, 4, 1, 0x70, 0, 1, 5, 4, 1, 3, 1, 2] ++
      [10, 20, 1, 18, 2, 2, 0x7F, 3, 0x7E, 0x02, 0x40, 0x03, 0x40, 0x41, 0, 0x0E, 1, 0, 1,
        0x0B, 0x0B, 0x0B]
    let loop : Instr := .mk "loop" (.block .empty
      [.mk "i32.const" (.i32 0), .mk "br_table" (.brTable [0] 1)])
    let m : Module := {
      types := [{ params := [], results := [] }]
      funcs := [{ typeIndex := 0, locals := [.i32, .i32, .i64, .i64, .i64],
                  body := [.mk "block" (.block .empty [loop])] }]
      tables := [{ element := .funcRef, limits := { min := 1 } }]
      memories := [{ limits := { min := 1, max := some 2 }, shared := true }] }
    Module.decode input = .ok m ∧ m.Bounded input.length ∧ m.code.map Instr.nesting = [2] := by
  intro input loop m
  have rep : m.ItemsRepresentable := by constructor <;> decide +kernel
  have encoded : m.encode = .ok input := by decide +kernel
  have decoded : Module.decode input = .ok m := decode_of_encode rep nofun encoded (by decide)
  exact ⟨decoded, bounded_of_decode decoded, by decide +kernel⟩

end Module

end Wasm
