import Wasm.Proofs.Validation.Constructs

/-!
# Finished bodies are valid

What a program records becomes code that the validation algorithm accepts: an
instruction by its typing rule, a construct because its arms are accepted one
frame further in, and a construct that failed because it left the frame alone.
-/

namespace Wasm

/-! ## Calls -/

mutual

/-- The handles in the call are those of entities of `b`. -/
def Call.Own (b : ModuleBuilder) : Call → Prop
  | .instr _ argument => b.Owns argument
  | .block _ _ body => Call.AllOwn b body
  | .ifThen _ thenBody => Call.AllOwn b thenBody
  | .ifElse _ thenBody elseBody => Call.AllOwn b thenBody ∧ Call.AllOwn b elseBody

def Call.AllOwn (b : ModuleBuilder) : List Call → Prop
  | [] => True
  | call :: rest => call.Own b ∧ Call.AllOwn b rest

end

mutual

/-- How many constructs are nested in the call. -/
def Call.depth : Call → Nat
  | .instr _ _ => 0
  | .block _ _ body => Call.depthAll body + 1
  | .ifThen _ thenBody => Call.depthAll thenBody + 1
  | .ifElse _ thenBody elseBody => max (Call.depthAll thenBody) (Call.depthAll elseBody) + 1

def Call.depthAll : List Call → Nat
  | [] => 0
  | call :: rest => max call.depth (Call.depthAll rest)

end

theorem Call.allOwn_append {b : ModuleBuilder} {calls calls' : List Call} :
    AllOwn b (calls ++ calls') ↔ AllOwn b calls ∧ AllOwn b calls' := by
  induction calls with
  | nil => simp [AllOwn]
  | cons call rest ih => simp [AllOwn, ih, and_assoc]

theorem Call.depthAll_append (calls calls' : List Call) :
    depthAll (calls ++ calls') = max (depthAll calls) (depthAll calls') := by
  induction calls with
  | nil => simp [depthAll]
  | cons call rest ih => simp [depthAll, ih, Nat.max_assoc]

namespace Validation

variable {b : ModuleBuilder} {N : Reference → UInt32 → Prop} {Γ : Env} {d : InstrDef}
  {c c' : Context} {vars : List StackVar}

/-! ## Constructs -/

section Constructs

variable {popped after closed : Context} {name : String} {type : FuncType} {drafts : List Draft}
  {effect : Effect}

/-- Blocks and loops are told apart by their mnemonic on one side, by their frame on the other. -/
theorem simulates_block {kind : FrameKind} (fits : Γ.Fits b N) (opens : kind.Opens name)
    (found : InstrSet.standard.named name = .ok d)
    (taken : c.pop name type.params = .ok popped)
    (inner : Simulates Γ N (popped.enter kind type).2 drafts after)
    (left : after.exit = .ok (drafts, closed))
    (allowed : d.effect closed (.block type drafts) = .ok effect)
    (done : closed.conclude d (.block type drafts) = .ok (vars, c')) :
    Simulates Γ N c [Context.draftOf d effect] c' := by
  obtain ⟨member, rfl⟩ := InstrSet.mem_of_named found
  obtain ⟨rule, named, ruled⟩ := ruleOf_name member
  have known : rule = if d.name = "loop" then .loop else .block :=
    InstrDef.of_rule ruled (d.effect_block allowed).1
  have isRule : rule = if kind == .loop then .loop else .block := by
    rcases opens with ⟨rfl, same⟩ | ⟨rfl, same⟩ <;> rw [same] at known <;> exact known
  refine simulates_single named fun indices s numbers inStep => ?_
  rw [isRule]
  exact accepts_block (InstrSet.standard_coherent d member).links fits inStep taken inner left
    allowed done numbers

theorem simulates_ifThen (fits : Γ.Fits b N) (balanced : type.params = type.results)
    (found : InstrSet.standard.named "if" = .ok d)
    (taken : c.pop "if" (type.params ++ [.i32]) = .ok popped)
    (inner : Simulates Γ N (popped.enter .thenArm type).2 drafts after)
    (left : after.exit = .ok (drafts, closed))
    (allowed : d.effect closed (.ifThen type drafts) = .ok effect)
    (done : closed.conclude d (.ifThen type drafts) = .ok (vars, c')) :
    Simulates Γ N c [Context.draftOf d effect] c' := by
  obtain ⟨member, -⟩ := InstrSet.mem_of_named found
  obtain ⟨rule, named, ruled⟩ := ruleOf_name member
  obtain rfl := InstrDef.of_rule ruled (d.effect_ifThen allowed).1
  refine simulates_single named fun indices s numbers inStep => ?_
  exact accepts_ifThen (InstrSet.standard_coherent d member).links fits inStep balanced taken
    inner left allowed done numbers

theorem simulates_ifElse {switched last : Context} {elseDrafts : List Draft} (fits : Γ.Fits b N)
    (found : InstrSet.standard.named "if" = .ok d)
    (taken : c.pop "if" (type.params ++ [.i32]) = .ok popped)
    (inner : Simulates Γ N (popped.enter .thenArm type).2 drafts after)
    (stays : (popped.enter .thenArm type).2.Extends drafts after)
    (changed : after.switchToElse = .ok (drafts, switched))
    (innerElse : Simulates Γ N switched elseDrafts last)
    (left : last.exit = .ok (elseDrafts, closed))
    (allowed : d.effect closed (.ifElse type drafts elseDrafts) = .ok effect)
    (done : closed.conclude d (.ifElse type drafts elseDrafts) = .ok (vars, c')) :
    Simulates Γ N c [Context.draftOf d effect] c' := by
  obtain ⟨member, -⟩ := InstrSet.mem_of_named found
  obtain ⟨rule, named, ruled⟩ := ruleOf_name member
  obtain rfl := InstrDef.of_rule ruled (d.effect_ifElse allowed).1
  obtain ⟨values, unreachable, frame⟩ := stays.frame
  refine simulates_single named fun indices s numbers inStep => ?_
  exact accepts_ifElse (InstrSet.standard_coherent d member).links fits inStep taken inner
    (by rw [frame]; rfl) (by rw [frame]; rfl) changed innerElse left allowed done numbers

end Constructs

/-! ## Recorded calls -/

/-- The calls of an arm are nested one deeper, in a frame of their own. -/
theorem shallow_inside {popped : Context} {name : String} {types : List ValType}
    {call : Call} {calls : List Call} (taken : c.pop name types = .ok popped)
    (shallow : c.outer.length + Call.depthAll [call] < 2 ^ 32)
    (nested : Call.depthAll calls + 1 ≤ call.depth) :
    (popped.frame :: popped.outer).length + Call.depthAll calls < 2 ^ 32 := by
  simp only [Call.depthAll] at shallow
  rw [List.length_cons, (Context.extends_pop taken).outer]
  omega

/-- Whatever calls recorded, the algorithm accepts what becomes of it. Locals
are only ever added, so those of the finished body serve all the way. -/
theorem simulates_records {calls : List Call} {drafts : List Draft} (fits : Γ.Fits b N)
    (recorded : c.Records calls drafts c') (own : Call.AllOwn b calls)
    (shallow : c.outer.length + Call.depthAll calls < 2 ^ 32)
    (locals : c'.locals.toList <+: Γ.locals) : Simulates Γ N c drafts c' := by
  induction recorded with
  | nothing same => exact simulates_undone same
  | append first second ih ih' =>
      -- The second half begins in the frame where the first one ended.
      obtain ⟨ownFirst, ownSecond⟩ := Call.allOwn_append.mp own
      rw [Call.depthAll_append] at shallow
      refine (ih ownFirst ?_ ?_).append (ih' ownSecond ?_ locals)
      · omega
      · exact second.extends.locals.trans locals
      · rw [first.extends.outer]
        omega
  | instr found plain allowed done =>
      obtain ⟨member, rfl⟩ := InstrSet.mem_of_named found
      obtain ⟨rule, named, ruled⟩ := ruleOf_name member
      obtain ⟨_, -, written⟩ := Context.extends_perform done
      refine simulates_single named fun indices s numbers inStep => ?_
      exact accepts_of_perform member plain ruled allowed numbers fits own.1
        (written.locals.trans locals) (by omega) inStep done
  | block opens found taken inner left allowed done ih =>
      obtain ⟨rfl, -⟩ := (Context.inside_enter _ _ _).exit inner.extends left
      refine simulates_block fits opens found taken (ih own.1 ?_ ?_) left allowed done
      · exact shallow_inside taken shallow (Nat.le_refl _)
      · exact ((Context.grows_exit left).trans (Context.grows_conclude done)).locals.trans locals
  | ifThen balanced found taken inner left allowed done ih =>
      obtain ⟨rfl, -⟩ := (Context.inside_enter _ _ _).exit inner.extends left
      refine simulates_ifThen fits balanced found taken (ih own.1 ?_ ?_) left allowed done
      · exact shallow_inside taken shallow (Nat.le_refl _)
      · exact ((Context.grows_exit left).trans (Context.grows_conclude done)).locals.trans locals
  | ifElse found taken inner changed innerElse left allowed done ih ihElse =>
      obtain ⟨rfl, insideElse⟩ := (Context.inside_enter _ _ _).switch inner.extends changed
      obtain ⟨rfl, -⟩ := insideElse.exit innerElse.extends left
      have behind :=
        ((Context.grows_exit left).trans (Context.grows_conclude done)).locals.trans locals
      -- Locals that the second arm declares are there for the first one, too.
      have between := (Context.grows_switchToElse changed).trans innerElse.extends.toGrows
      refine simulates_ifElse fits found taken (ih own.1.1 ?_ (between.locals.trans behind))
        inner.extends changed (ihElse own.1.2 ?_ behind) left allowed done
      · exact shallow_inside taken shallow (Nat.succ_le_succ (Nat.le_max_left _ _))
      · rw [insideElse.outer]
        exact shallow_inside taken shallow (Nat.succ_le_succ (Nat.le_max_right _ _))

/-- The start of a function is the start of the algorithm. -/
theorem follows_start (type : FuncType) : Follows (Context.forFunction type).frames
    { controls := [{ startTypes := [], endTypes := type.results, height := 0 }] } :=
  .empty ⟨rfl, rfl, rfl, rfl⟩ rfl rfl .nil

end Validation

/-! ## Finished bodies -/

/-- A body that the stack checker lets through is valid. Whatever the client
does, and whichever of its calls fail, the code that the finished body becomes
passes the validation algorithm, for numbers of entities of the types that
the handles have. Labels of constructs and depths of branches are numbers of
32 bits, so no more constructs than that can be open at a time. -/
theorem FuncBody.valid_of_builtBy {b : ModuleBuilder} {N : Reference → UInt32 → Prop}
    {Γ : Validation.Env} {type : FuncType} {calls : List Call} {body : FuncBody}
    {indices : List UInt32} (built : FuncBody.BuiltBy type calls body)
    (own : Call.AllOwn b calls) (shallow : Call.depthAll calls < 2 ^ 32) (fits : Γ.Fits b N)
    (locals : Γ.locals = type.params ++ body.locals)
    (numbers : List.Forall₂ N (Draft.allReferences body.code) indices) : ∃ code,
      Draft.linkAll indices body.code = .ok code ∧ Γ.validates type.results code = true := by
  obtain ⟨after, recorded, checked, declared⟩ := built.records
  have grows := recorded.extends.toGrows
  -- The algorithm knows all locals from the start, the builder those declared so far.
  have whole : after.locals.toList = Γ.locals := by
    obtain ⟨more, same⟩ := grows.locals
    rw [locals, declared, Context.declaredLocals, grows.paramCount, ← same]
    simp [Context.forFunction]
  have outermost : (Context.forFunction type).outer.length + Call.depthAll calls < 2 ^ 32 := by
    rwa [Context.forFunction, List.length_nil, Nat.zero_add]
  obtain ⟨code, s, linked, accepted, inStep⟩ := Validation.simulates_records fits recorded own
    outermost (whole ▸ List.prefix_rfl) indices _ numbers (Validation.follows_start type)
  obtain ⟨s', closes, -⟩ := inStep.leave checked
  refine ⟨code, linked, ?_⟩
  simp [Validation.Env.validates, accepted, closes]

/-! ## An example -/

namespace Validation

open Construction

/-- Hands a function what is left of a block that a branch leaves. -/
def handsOn : Construction Unit Unit := do
  let _ ← block ⟨[], [.i32]⟩ fun label => do
    let _ ← instr "br" (.branch (.label label)) [.i32 7]
  let _ ← instr "call" (.func ⟨0, ⟨[.i32], [.i32]⟩⟩) []

def blockDraft : Draft :=
  ⟨⟨"block", InstrSet.byte 0x02, .block, none, .block, .block⟩, [], [], [.i32],
    .block ⟨[], [.i32]⟩ [
      ⟨InstrSet.constant "i32.const" (InstrSet.byte 0x41) .i32 .i32, [], [], [.i32],
        .literal (.i32 7)⟩,
      ⟨⟨"br", InstrSet.byte 0x0C, .index, none, .br, .literal⟩, [], [.i32], [],
        .literal (.index 0)⟩]⟩

def callDraft : Draft :=
  ⟨⟨"call", InstrSet.byte 0x10, .index, none, .call, .index⟩, [.func 0], [.i32], [.i32],
    .literal .none⟩

/-- The body behind the block and behind the call: one value is on the stack. -/
def handsOnState (made : Nat) (written : List Draft) : Workspace Unit where
  context := {
    frame := {
      label := ⟨0⟩
      kind := .function
      startTypes := []
      endTypes := [.i32]
      values := [⟨UInt32.ofNat made, .i32⟩]
      written }
    locals := #[]
    paramCount := 0
    varsMade := made + 1
    labelsMade := 2 }
  client := ()

theorem block_eq : block ⟨[], [.i32]⟩ (fun label => do
      let _ ← instr "br" (.branch (.label label)) [.i32 7])
    ⟨Context.forFunction ⟨[], [.i32]⟩, ()⟩ = .ok [⟨1, .i32⟩] (handsOnState 1 [blockDraft]) := by
  rfl

theorem call_eq : instr "call" (.func ⟨0, ⟨[.i32], [.i32]⟩⟩) [] (handsOnState 1 [blockDraft]) =
    .ok [⟨2, .i32⟩] (handsOnState 2 [callDraft, blockDraft]) := by
  rfl

theorem handsOn_builtBy : FuncBody.BuiltBy ⟨[], [.i32]⟩
    [.block "block" ⟨[], [.i32]⟩ [.instr "i32.const" (.literal (.i32 7)),
        .instr "br" (.branch (.label ⟨1⟩))],
      .instr "call" (.func ⟨0, ⟨[.i32], [.i32]⟩⟩)]
    ⟨[], [blockDraft, callDraft]⟩ := by
  refine ⟨Unit, (), (), handsOn, _,
    .bind (.block fun label => .bind (.instr _ _ _) fun _ => .pure ()) fun _ =>
      .bind (.instr _ _ _) fun _ => .pure (), ?_, ?_⟩
  · simp only [ifOk, andThen, block_eq, instrCalls, call_eq]
    rfl
  · refine FuncBody.construct_eq_ok.mpr
      ⟨handsOnState 2 [callDraft, blockDraft], ?_, rfl, rfl, rfl⟩
    exact EStateM.bind_eq_ok.mpr ⟨_, _, block_eq,
      EStateM.bind_eq_ok.mpr ⟨_, _, call_eq, rfl⟩⟩

/-- A module of one function. -/
def oneFunc : ModuleBuilder where
  funcs := [⟨⟨[.i32], [.i32]⟩, .imported ⟨"m", "f"⟩⟩]

theorem fits_oneFunc : Env.Fits { funcs := [⟨[.i32], [.i32]⟩] } oneFunc
    fun reference n => reference = .func 0 ∧ n = 0 where
  funcs := by
    rintro id decl n declared ⟨same, rfl⟩
    cases same
    cases declared
    rfl
  globals := by rintro _ _ _ _ ⟨⟨⟩, -⟩
  tables := by rintro _ _ _ _ ⟨⟨⟩, -⟩
  signatures := by rintro _ _ ⟨⟨⟩, -⟩
  memory := by rintro _ ⟨⟨⟩, -⟩
  mentions := by rintro _ _ _ _ ⟨⟨⟩, -⟩

end Validation

theorem FuncBody.valid_of_builtBy_handsOn : ∃ code,
    Draft.linkAll [0] [Validation.blockDraft, Validation.callDraft] = .ok code ∧
      Validation.Env.validates { funcs := [⟨[.i32], [.i32]⟩] } [.i32] code = true :=
  FuncBody.valid_of_builtBy (b := Validation.oneFunc) Validation.handsOn_builtBy
    ⟨⟨trivial, trivial, trivial⟩, ⟨_, rfl, rfl⟩, trivial⟩ (by decide) Validation.fits_oneFunc rfl
    (.cons ⟨rfl, rfl⟩ .nil)

end Wasm
