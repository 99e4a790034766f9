import Wasm.Instr.Text

/-!
# Linear code

Code is a tree, but it is listed and exchanged as a sequence of items, in
which a structured instruction opens a body that runs to a matching end mark.
The two arms of a conditional are separated by an else mark.
-/

namespace Wasm

/-- One item of linear code. An instruction stands there without its bodies. -/
inductive CodeItem where
  | instr (name : String) (immediate : Immediate)
  | elseMark
  | endMark
deriving Inhabited

mutual

/-- The items behind a structured instruction. -/
def Immediate.linearBodies : Immediate → List CodeItem
  | .block _ body => Instr.linear body ++ [.endMark]
  | .ifThen _ thenBody => Instr.linear thenBody ++ [.endMark]
  | .ifElse _ thenBody elseBody =>
      Instr.linear thenBody ++ [.elseMark] ++ Instr.linear elseBody ++ [.endMark]
  | _ => []

/-- The items of one instruction. -/
def Instr.linearItems : Instr → List CodeItem
  | .mk name immediate =>
    let opener := match immediate with
      | .block type _ => .block type []
      | .ifThen type _ | .ifElse type _ _ => .ifThen type []
      | other => other
    .instr name opener :: immediate.linearBodies

/-- Code as a sequence of items. -/
def Instr.linear : List Instr → List CodeItem
  | [] => []
  | instr :: rest => instr.linearItems ++ Instr.linear rest

end

/-- The texts of all instructions of code, outer ones before inner ones. -/
def Instr.listing (body : List Instr) : List String :=
  (Instr.linear body).filterMap fun
    | .instr name immediate => some (Instr.mk name immediate).text
    | _ => none

/-- A body that is still open, with what came before it. -/
structure OpenBody where
  name : String
  type : BlockType
  isConditional : Bool
  /-- The first arm, once the second one has begun. -/
  firstArm : Option (List Instr) := none
  /-- The instructions around the construct, the last one first. -/
  before : List Instr

/-- The construct whose last body is `body`. -/
def OpenBody.close (o : OpenBody) (body : List Instr) : Instr :=
  match o.firstArm with
  | some thenBody => .mk o.name (.ifElse o.type thenBody body)
  | none => .mk o.name (if o.isConditional then .ifThen o.type body else .block o.type body)

/-- Reads items with some bodies open, innermost first, and with the
instructions of the current body, the last one first. -/
def CodeItem.collect : (stack : List OpenBody) → (written : List Instr) → List CodeItem →
    Option (List Instr)
  | [], written, [] => some written.reverse
  | _ :: _, _, [] => none
  | stack, written, .instr name (.block type _) :: rest =>
    collect (⟨name, type, false, none, written⟩ :: stack) [] rest
  | stack, written, .instr name (.ifThen type _) :: rest =>
    collect (⟨name, type, true, none, written⟩ :: stack) [] rest
  | stack, written, .instr name immediate :: rest =>
    collect stack (.mk name immediate :: written) rest
  | o :: stack, written, .endMark :: rest =>
    collect stack (o.close written.reverse :: o.before) rest
  | o :: stack, written, .elseMark :: rest =>
    if o.isConditional && o.firstArm.isNone then
      collect ({ o with firstArm := some written.reverse } :: stack) [] rest
    else none
  | [], _, _ :: _ => none

/-- The code that a sequence of items stands for, if its marks match. -/
def Instr.ofLinear? (items : List CodeItem) : Option (List Instr) :=
  CodeItem.collect [] [] items

end Wasm
