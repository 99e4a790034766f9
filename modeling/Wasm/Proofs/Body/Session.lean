import Mathlib.Algebra.Group.Nat.Defs
import Mathlib.Logic.Relation
import Wasm.Proofs.Body.Steps

/-!
# The history of a body

The state of a body says which constructs are open, but not how that came
about. A session is the state together with its history: for each open
construct the calls that were made and kept inside it, and the labels of all
constructs that are no longer open. It changes by small steps, one for each
thing that an operation can do to the frames, so that what is to hold of every
body that can be reached is shown of one step at a time.
-/

namespace Wasm

/-! ## What is kept of a history -/

/-- A call that wrote an instruction, and for a construct the label that its
closures were given. -/
inductive Note where
  | instr (name : String) (argument : Argument)
  | block (label : Label) (name : String) (type : FuncType) (body : List Note)
  | ifThen (label : Label) (type : FuncType) (thenBody : List Note)
  | ifElse (label : Label) (type : FuncType) (thenBody elseBody : List Note)

namespace Note

mutual

/-- The call without its labels. -/
def call : Note → Call
  | .instr name argument => .instr name argument
  | .block _ name type body => .block name type (calls body)
  | .ifThen _ type thenBody => .ifThen type (calls thenBody)
  | .ifElse _ type thenBody elseBody => .ifElse type (calls thenBody) (calls elseBody)

def calls : List Note → List Call
  | [] => []
  | note :: rest => note.call :: calls rest

end

@[simp] theorem calls_append (notes notes' : List Note) :
    calls (notes ++ notes') = calls notes ++ calls notes' := by
  induction notes with
  | nil => rfl
  | cons note rest ih => exact congrArg (note.call :: ·) ih

mutual

/-- The labels of the constructs in a call. -/
def labels : Note → List Label
  | .instr .. => []
  | .block label _ _ body => label :: allLabels body
  | .ifThen label _ thenBody => label :: allLabels thenBody
  | .ifElse label _ thenBody elseBody => label :: (allLabels thenBody ++ allLabels elseBody)

def allLabels : List Note → List Label
  | [] => []
  | note :: rest => note.labels ++ allLabels rest

end

@[simp] theorem allLabels_append (notes notes' : List Note) :
    allLabels (notes ++ notes') = allLabels notes ++ allLabels notes' := by
  induction notes with
  | nil => rfl
  | cons note rest ih =>
      rw [List.cons_append, allLabels, allLabels, ih, List.append_assoc]

end Note

/-- An open construct as its closures know it. -/
structure Opened where
  label : Label
  kind : FrameKind
  type : FuncType

namespace Opened

/-- The function itself. -/
def function (type : FuncType) : Opened := ⟨⟨0⟩, .function, type⟩

/-- What a branch to the construct takes: for a loop what it starts with, and
otherwise what it ends with. -/
def labelTypes (construct : Opened) : List ValType :=
  match construct.kind with
  | .loop => construct.type.params
  | _ => construct.type.results

end Opened

/-- Where in a construct the writing goes on. The second arm of a conditional
has the first one behind it. -/
inductive Stage where
  | function
  | block
  | loop
  | thenArm
  | elseArm (notes : List Note) (drafts : List Draft)

namespace Stage

def kind : Stage → FrameKind
  | .function => .function
  | .block => .block
  | .loop => .loop
  | .thenArm => .thenArm
  | .elseArm .. => .elseArm

/-- The mnemonic of the construct. -/
def name : Stage → String
  | .block => "block"
  | .loop => "loop"
  | _ => "if"

/-- What the construct takes off the stack. -/
def operands (stage : Stage) (type : FuncType) : List ValType :=
  match stage with
  | .block | .loop => type.params
  | _ => type.params ++ [.i32]

/-- Constructs are begun at these stages. -/
def Begins (stage : Stage) : Prop := stage = .block ∨ stage = .loop ∨ stage = .thenArm

end Stage

/-- An open construct with its history. -/
structure Level where
  label : Label
  stage : Stage
  type : FuncType
  /-- What was made and kept in the arm that is being written. -/
  notes : List Note
  /-- The state from which the construct was begun. -/
  before : Context

namespace Level

def opened (level : Level) : Opened := ⟨level.label, level.stage.kind, level.type⟩

/-- The argument of the construct when it ends with the given body. -/
def argument (level : Level) (body : List Draft) : Argument :=
  match level.stage with
  | .thenArm => .ifThen level.type body
  | .elseArm _ first => .ifElse level.type first body
  | _ => .block level.type body

/-- The construct when it ends here. -/
def note (level : Level) : Note :=
  match level.stage with
  | .thenArm => .ifThen level.label level.type level.notes
  | .elseArm first _ => .ifElse level.label level.type first level.notes
  | stage => .block level.label stage.name level.type level.notes

def add (level : Level) (notes : List Note) : Level :=
  { level with notes := level.notes ++ notes }

@[simp] theorem add_nil (level : Level) : level.add [] = level := by
  rw [add, List.append_nil]

@[simp] theorem add_add (level : Level) (notes notes' : List Note) :
    (level.add notes).add notes' = level.add (notes ++ notes') := by
  rw [add, add, add, List.append_assoc]

@[simp] theorem opened_add (level : Level) (notes : List Note) :
    (level.add notes).opened = level.opened := rfl

end Level

/-! ## Labels are handed out where constructs begin -/

namespace Context

variable {c c' : Context} {d : InstrDef} {argument : Argument} {vars : List StackVar}

/-- As long as labels have not started over, the next one is their number. -/
theorem toNat_nextLabel (few : c.labelsMade < 2 ^ 32) : c.nextLabel.id.toNat = c.labelsMade := by
  rw [nextLabel, UInt32.toNat_ofNat', Nat.mod_eq_of_lt few]

theorem labelsMade_perform (done : c.perform d argument = .ok (vars, c')) :
    c'.labelsMade = c.labelsMade := by
  obtain ⟨effect, popped, -, taken, -, rfl⟩ := perform_eq_ok.mp done
  obtain ⟨-, rfl⟩ := pop_eq_ok.mp taken
  split <;> rfl

theorem labelsMade_conclude (done : c.conclude d argument = .ok (vars, c')) :
    c'.labelsMade = c.labelsMade := by
  obtain ⟨effect, -, -, rfl⟩ := conclude_eq_ok.mp done
  rfl

end Context

/-! ## Steps of a session -/

/-- A body under construction with its history. -/
structure Session where
  context : Context
  /-- The open constructs, innermost first. The last one is the function. -/
  levels : List Level
  /-- The labels of the constructs that ended or were undone. -/
  gone : List Label

namespace Session

open Relation (ReflTransGen)

/-- The start of a function of the given type. -/
def start (type : FuncType) : Session where
  context := Context.forFunction type
  levels := [⟨⟨0⟩, .function, type, [], Context.forFunction type⟩]
  gone := []

/-- One step of a body. -/
inductive Step : Session → Session → Prop
  /-- Something that leaves all frames as they are and hands out no label. -/
  | quiet {c c' : Context} {levels : List Level} {gone : List Label} (undone : c.Undone c')
      (same : c'.labelsMade = c.labelsMade) : Step ⟨c, levels, gone⟩ ⟨c', levels, gone⟩
  /-- An instruction without a body. -/
  | instr {c c' : Context} {level : Level} {rest : List Level} {gone : List Label} {name : String}
      {d : InstrDef} {argument : Argument} {vars : List StackVar}
      (found : InstrSet.standard.named name = .ok d) (plain : d.shape.isStructured = false)
      (done : c.perform d argument = .ok (vars, c')) :
      Step ⟨c, level :: rest, gone⟩ ⟨c', level.add [.instr name argument] :: rest, gone⟩
  /-- A construct begins, and its closure is given its label. -/
  | enter {c popped : Context} {levels : List Level} {gone : List Label} (stage : Stage)
      {type : FuncType} (begins : stage.Begins)
      (taken : c.pop stage.name (stage.operands type) = .ok popped) :
      Step ⟨c, levels, gone⟩ ⟨(popped.enter stage.kind type).2,
        ⟨(popped.enter stage.kind type).1, stage, type, [], c⟩ :: levels, gone⟩
  /-- A conditional goes from its first arm to its second. -/
  | switch {c c' : Context} {level : Level} {rest : List Level} {gone : List Label}
      {drafts : List Draft} (first : level.stage = .thenArm)
      (done : c.switchToElse = .ok (drafts, c')) :
      Step ⟨c, level :: rest, gone⟩
        ⟨c', { level with stage := .elseArm level.notes drafts, notes := [] } :: rest, gone⟩
  /-- A construct ends and is written in the frame around it. -/
  | close {c closed c' : Context} {level parent : Level} {rest : List Level} {gone : List Label}
      {d : InstrDef} {drafts : List Draft} {vars : List StackVar}
      (found : InstrSet.standard.named level.stage.name = .ok d)
      (left : c.exit = .ok (drafts, closed))
      (done : closed.conclude d (level.argument drafts) = .ok (vars, c')) :
      Step ⟨c, level :: parent :: rest, gone⟩
        ⟨c', parent.add [level.note] :: rest, level.label :: gone⟩
  /-- A construct fails and is undone. -/
  | abort {c : Context} {level parent : Level} {rest : List Level} {gone : List Label} :
      Step ⟨c, level :: parent :: rest, gone⟩
        ⟨c.rollbackTo level.before, parent :: rest, level.label :: gone⟩

/-- Any number of steps. -/
def Steps : Session → Session → Prop := ReflTransGen Step

theorem Step.steps {s s' : Session} (step : Step s s') : Steps s s' := ReflTransGen.single step

theorem Steps.trans {s₁ s₂ s₃ : Session} (first : Steps s₁ s₂) (second : Steps s₂ s₃) :
    Steps s₁ s₃ :=
  ReflTransGen.trans first second

theorem Steps.then {s₁ s₂ s₃ : Session} (first : Steps s₁ s₂) (last : Step s₂ s₃) : Steps s₁ s₃ :=
  ReflTransGen.tail first last

/-- The sessions of functions of the given type. -/
def Reached (type : FuncType) (s : Session) : Prop := Steps (start type) s

end Session

end Wasm
