import Wasm.Proofs.Assembly.Inserted
import Wasm.Proofs.Body.Script

/-!
# Builders with code made by hand

A builder is `Reached` with bodies for which the library chooses every
definition. A client can also write an instruction of any definition, with any
code for its bodies, and the library takes over what these say about
references. Those builders are `Scripted`. Every builder that is reached is one
of them, and what follows from the calls of a body is lost for the others, even
where only entities of the builder are asked for.
-/

namespace Wasm

namespace Operation

/-- The body that the operation gives a function, if it does, is one that some
script writes. -/
def Scripted : Operation → Prop
  | @func σ _ _ build | @defineFunc σ _ _ build => ∃ script : Script σ Unit, script.run = build
  | _ => True

end Operation

namespace ModuleBuilder

/-- The builders that come out of sequences of operations. One that is refused
leaves the builder as it was. -/
inductive Scripted : ModuleBuilder → Prop
  | empty : Scripted {}
  | after {b : ModuleBuilder} {op : Operation} (h : Scripted b) (written : op.Scripted) :
      Scripted (b.after op)

namespace Scripted

variable {b b' : ModuleBuilder}

theorem accepted (h : b.Scripted) (op : Operation) (written : op.Scripted)
    (done : b.perform op = .ok b') : b'.Scripted := by
  have next := h.after written
  rwa [ModuleBuilder.after, done] at next

theorem func {σ : Type} {type : FuncType} {client client' : σ} {handle : FuncHandle}
    (script : Script σ Unit) (h : b.Scripted)
    (done : b.func type client script.run = (.ok (handle, b'), client')) : b'.Scripted := by
  refine h.accepted (.func type client script.run) ⟨script, rfl⟩ ?_
  rw [perform, done]
  rfl

end Scripted

theorem Reached.scripted {b : ModuleBuilder} (h : b.Reached) : b.Scripted := by
  induction h with
  | empty => exact .empty
  | declareFunc _ type ih => exact ih.accepted (.declareFunc type) trivial rfl
  | importFunc _ name type ih => exact ih.accepted (.importFunc name type) trivial rfl
  | func _ program done ih =>
      obtain ⟨script, rfl⟩ := program.exists_script
      exact ih.func script done
  | @defineFunc b b' σ handle client client' build calls _ program done ih =>
      refine ih.accepted (.defineFunc handle client build) program.exists_script ?_
      rw [perform, done]
  | @global b b' init isMutable handle _ done ih =>
      refine ih.accepted (.global init isMutable) trivial ?_
      rw [perform, done]
      rfl
  | importGlobal _ name type ih => exact ih.accepted (.importGlobal name type) trivial rfl
  | @table b b' type elements handle _ done ih =>
      refine ih.accepted (.table type elements) trivial ?_
      rw [perform, done]
      rfl
  | @importTable b b' name type handle _ done ih =>
      refine ih.accepted (.importTable name type) trivial ?_
      rw [perform, done]
      rfl
  | @memory b b' type data handle _ done ih =>
      refine ih.accepted (.memory type data) trivial ?_
      rw [perform, done]
      rfl
  | @importMemory b b' name type data handle _ done ih =>
      refine ih.accepted (.importMemory name type data) trivial ?_
      rw [perform, done]
      rfl

end ModuleBuilder

/-- What the roots ask for is declared in the builder. -/
def Roots.Within (roots : Roots) (b : ModuleBuilder) : Prop :=
  ∀ entity, .entity entity ∈ roots.references → entity ∈ b.entities

theorem Roots.within_single {b : ModuleBuilder} {name : String} {entity : Entity}
    (declared : entity ∈ b.entities) : Roots.Within { exports := [(name, entity)] } b := by
  intro other named
  cases List.mem_singleton.mp named
  exact declared

/-! ## A construct that hides what it refers to -/

namespace Script

/-- A block that does not list what the call in it refers to. -/
def hidingBlock : Draft :=
  ⟨⟨"block", InstrSet.byte 0x02, .block, none, .block, .block⟩, [], [], [],
    .block ⟨[], []⟩ [⟨⟨"call", InstrSet.byte 0x10, .index, none, .call, .index⟩, [.func 0], [], [],
      .literal .none⟩]⟩

/-- A block made by hand around that one. -/
def aroundHiding : Script Unit Unit :=
  .single ⟨"block", InstrSet.byte 0x02, .block, none, .block, .block⟩
    (.block ⟨[], []⟩ [hidingBlock])

end Script

end Wasm
