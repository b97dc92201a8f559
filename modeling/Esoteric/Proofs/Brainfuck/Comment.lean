import Esoteric.Proofs.Brainfuck.StructuredRun
import Esoteric.Proofs.Budget

/-! Comments make no difference to a run, wherever they stand. -/

namespace Esoteric.Brainfuck

variable {enter leave c : Char} {depth length : Nat}
  {text before after otherBefore otherAfter first second : List Char}

def isCommand (c : Char) : Bool :=
  (Command.ofChar? c).isSome

theorem isCommand_of_decoded {command : Command}
    (decoded : Command.ofChar? c = some command) : isCommand c = true := by
  rw [isCommand, decoded]
  rfl

theorem decoded_of_isCommand (given : isCommand c = true) :
    ∃ command, Command.ofChar? c = some command :=
  Option.isSome_iff_exists.1 given

theorem comment_of_not_isCommand (comment : ¬ isCommand c = true) :
    Command.ofChar? c = none :=
  Option.not_isSome_iff_eq_none.1 comment

theorem Unwinds.filter_iff (distinct : enter ≠ leave)
    (enters : isCommand enter = true) (leaves : isCommand leave = true) :
    Unwinds enter leave depth (text.filter isCommand) ↔
      Unwinds enter leave depth text := by
  induction text generalizing depth with
  | nil => exact Iff.rfl
  | cons c text induction =>
      by_cases isEnter : c = enter
      · subst isEnter
        rw [List.filter_cons_of_pos enters, cons_enter_iff distinct,
          cons_enter_iff distinct, induction]
      · by_cases isLeave : c = leave
        · subst isLeave
          simp only [List.filter_cons_of_pos leaves, cons_leave_iff distinct,
            induction]
        · rw [cons_other_iff isEnter isLeave]
          cases given : isCommand c with
          | true =>
              rw [List.filter_cons_of_pos given,
                cons_other_iff isEnter isLeave, induction]
          | false =>
              have dropped : ¬ isCommand c = true := by simp [given]
              rw [List.filter_cons_of_neg dropped, induction]

theorem exists_split_of_filter_eq
    (same : text.filter isCommand =
      before.filter isCommand ++ c :: after.filter isCommand) :
    ∃ body rest, text = body ++ c :: rest ∧
      body.filter isCommand = before.filter isCommand ∧
      rest.filter isCommand = after.filter isCommand := by
  obtain ⟨body, tail, rfl, sameBody, sameTail⟩ := List.filter_eq_append_iff.1 same
  obtain ⟨comments, rest, rfl, areComments, _, sameRest⟩ :=
    List.filter_eq_cons_iff.1 sameTail
  refine ⟨body ++ comments, rest, by rw [List.append_assoc], ?_, sameRest⟩
  rw [List.filter_append, List.filter_eq_nil_iff.2 areComments, List.append_nil,
    sameBody]

/-- Texts with the same commands are left at the same bracket, or nowhere. -/
inductive LeftAlike (enter leave : Char) (depth : Nat)
    (first second : List Char) : Prop
  | found {body rest otherBody otherRest : List Char}
      (layout : first = body ++ leave :: rest)
      (otherLayout : second = otherBody ++ leave :: otherRest)
      (passed : body.filter isCommand = otherBody.filter isCommand)
      (ahead : rest.filter isCommand = otherRest.filter isCommand)
      (scan : unwinding? enter leave depth first = some body.length)
      (otherScan : unwinding? enter leave depth second =
        some otherBody.length)
  | missed (scan : unwinding? enter leave depth first = none)
      (otherScan : unwinding? enter leave depth second = none)

theorem leftAlike_of_scan (distinct : enter ≠ leave)
    (enters : isCommand enter = true) (leaves : isCommand leave = true)
    (same : first.filter isCommand = second.filter isCommand)
    (scan : unwinding? enter leave depth first = some length) :
    LeftAlike enter leave depth first second := by
  obtain ⟨body, rest, rfl, unwinds⟩ := exists_unwinds_of_unwinding? distinct scan
  rw [List.filter_append, List.filter_cons_of_pos leaves] at same
  obtain ⟨otherBody, otherRest, rfl, sameBody, sameRest⟩ :=
    exists_split_of_filter_eq same.symm
  have otherUnwinds : Unwinds enter leave depth otherBody := by
    rw [← Unwinds.filter_iff distinct enters leaves, sameBody,
      Unwinds.filter_iff distinct enters leaves]
    exact unwinds
  exact .found rfl rfl sameBody.symm sameRest.symm
    (unwinding?_append distinct unwinds rest)
    (unwinding?_append distinct otherUnwinds otherRest)

theorem LeftAlike.symm (alike : LeftAlike enter leave depth first second) :
    LeftAlike enter leave depth second first := by
  cases alike with
  | found layout otherLayout passed ahead scan otherScan =>
      exact .found otherLayout layout passed.symm ahead.symm otherScan scan
  | missed scan otherScan => exact .missed otherScan scan

theorem leftAlike_of_filter_eq (distinct : enter ≠ leave)
    (enters : isCommand enter = true) (leaves : isCommand leave = true)
    (depth : Nat) (same : first.filter isCommand = second.filter isCommand) :
    LeftAlike enter leave depth first second := by
  cases scan : unwinding? enter leave depth first with
  | some length => exact leftAlike_of_scan distinct enters leaves same scan
  | none =>
      cases otherScan : unwinding? enter leave depth second with
      | some length =>
          exact (leftAlike_of_scan distinct enters leaves same.symm
            otherScan).symm
      | none => exact .missed scan otherScan

namespace Machine

open Esoteric.Machine

variable {machine counterpart reached : Machine} {memory otherMemory : Memory}
  {step other : Step Machine} {comments : List Char} {ending : Ending}
  {final : Esoteric.Machine}

structure SameStore (machine counterpart : Machine) : Prop where
  head : counterpart.head = machine.head
  tape : counterpart.tape = machine.tape
  input : counterpart.input = machine.input
  output : counterpart.output = machine.output

/-- Machines with the same store, whose programs have the same commands behind and
ahead of them. -/
structure Alongside (before after otherBefore otherAfter : List Char)
    (machine counterpart : Machine) : Prop where
  stands : machine.Stands before after machine.contents
  otherStands : counterpart.Stands otherBefore otherAfter counterpart.contents
  passed : before.filter isCommand = otherBefore.filter isCommand
  ahead : after.filter isCommand = otherAfter.filter isCommand
  same : machine.SameStore counterpart

def Abreast (machine counterpart : Machine) : Prop :=
  ∃ before after otherBefore otherAfter,
    Alongside before after otherBefore otherAfter machine counterpart

/-- Steps that leave machines abreast, or fail alike. -/
inductive Agrees (step other : Step Machine) : Prop
  | ok (succeeds : step.outcome = .ok) (otherSucceeds : other.outcome = .ok)
      (abreast : Abreast step.state other.state)
  | fault {cause : Fault} (fails : step.outcome = .fault cause)
      (otherFails : other.outcome = .fault cause)
      (same : SameStore step.state other.state)

theorem SameStore.trans (first : machine.SameStore counterpart)
    (second : counterpart.SameStore reached) : machine.SameStore reached :=
  ⟨second.head.trans first.head, second.tape.trans first.tape,
    second.input.trans first.input, second.output.trans first.output⟩

theorem SameStore.symm (same : machine.SameStore counterpart) :
    counterpart.SameStore machine :=
  ⟨same.head.symm, same.tape.symm, same.input.symm, same.output.symm⟩

theorem SameStore.cell (same : machine.SameStore counterpart) :
    counterpart.cell = machine.cell := by
  rw [Machine.cell, Machine.cell, same.head, same.tape]

theorem SameStore.execute_action (same : machine.SameStore counterpart)
    (action : Action) :
    SameStore (machine.execute action.command).state
      (counterpart.execute action.command).state := by
  obtain ⟨program, pointer, head, tape, input, output, cycles⟩ := machine
  obtain ⟨_, _, _, _, _, _, _⟩ := counterpart
  obtain ⟨rfl, rfl, rfl, rfl⟩ := same
  cases action <;> exact ⟨rfl, rfl, rfl, rfl⟩

theorem Alongside.of_places
    (layout : machine.program.toList = before ++ after)
    (pointer : machine.pointer = before.length)
    (otherLayout : counterpart.program.toList = otherBefore ++ otherAfter)
    (otherPointer : counterpart.pointer = otherBefore.length)
    (passed : before.filter isCommand = otherBefore.filter isCommand)
    (ahead : after.filter isCommand = otherAfter.filter isCommand)
    (same : machine.SameStore counterpart) :
    Alongside before after otherBefore otherAfter machine counterpart :=
  ⟨⟨layout, pointer, rfl⟩, ⟨otherLayout, otherPointer, rfl⟩, passed, ahead, same⟩

theorem Agrees.counted (agrees : Agrees step other)
    (diagnostic otherDiagnostic : Diagnostic) :
    Agrees
      ((step.andThen fun reached => .ok reached.count).report diagnostic)
      ((other.andThen fun reached => .ok reached.count).report
        otherDiagnostic) := by
  cases agrees with
  | ok succeeds otherSucceeds abreast =>
      simp only [Step.andThen, Step.report, succeeds, otherSucceeds]
      obtain ⟨_, _, _, _, stands, otherStands, passed, ahead, same⟩ := abreast
      exact .ok rfl rfl ⟨_, _, _, _, .of_places stands.layout stands.pointer
        otherStands.layout otherStands.pointer passed ahead
        ⟨same.head, same.tape, same.input, same.output⟩⟩
  | fault fails otherFails same =>
      simp only [Step.andThen, Step.report, fails, otherFails]
      exact .fault rfl rfl same

theorem Stands.closing?_eq
    (stands : machine.Stands before ('[' :: after) memory) :
    machine.program.closing? 0 (machine.pointer + 1) =
      (unwinding? '[' ']' 0 after).map
        fun length => ((before.length + 1 + length : Nat) : Int) := by
  have ahead : machine.program.toList.drop (before.length + 1) = after := by
    simp [stands.layout]
  rw [stands.pointer, ← Int.natCast_succ, Program.closing?_eq, ahead]

theorem Stands.opening?_eq
    (stands : machine.Stands before (']' :: after) memory) :
    machine.program.opening? 0 machine.pointer.toNat =
      (unwinding? ']' '[' 0 before.reverse).map
        fun length => before.length - 1 - length := by
  have behind : machine.program.toList.take before.length = before := by
    rw [stands.layout, List.take_left]
  have within : before.length ≤ machine.program.size := by
    rw [← Array.length_toList, stands.layout, List.length_append]
    exact Nat.le_add_right ..
  rw [stands.pointer, Int.toNat_natCast, Program.opening?_eq _ 0 within, behind]

namespace Alongside

theorem ahead_of_command (given : isCommand c = true)
    (alongside : Alongside before (c :: after) otherBefore (c :: otherAfter)
      machine counterpart) :
    after.filter isCommand = otherAfter.filter isCommand := by
  have ahead := alongside.ahead
  rw [List.filter_cons_of_pos given, List.filter_cons_of_pos given] at ahead
  exact (List.cons.inj ahead).2

theorem next (given : isCommand c = true)
    (alongside : Alongside before (c :: after) otherBefore (c :: otherAfter)
      machine counterpart) {state otherState : Machine}
    (sameProgram : state.program = machine.program)
    (pointer : state.pointer = machine.pointer + 1)
    (sameOther : otherState.program = counterpart.program)
    (otherPointer : otherState.pointer = counterpart.pointer + 1)
    (same : state.SameStore otherState) :
    Alongside (before ++ [c]) after (otherBefore ++ [c]) otherAfter
      state otherState := by
  obtain ⟨layout, start, _⟩ := alongside.stands.next
  obtain ⟨otherLayout, otherStart, _⟩ := alongside.otherStands.next
  apply of_places
  · exact (congrArg Array.toList sameProgram).trans layout
  · exact pointer.trans start
  · exact (congrArg Array.toList sameOther).trans otherLayout
  · exact otherPointer.trans otherStart
  · rw [List.filter_append, List.filter_append, alongside.passed]
  · exact alongside.ahead_of_command given
  · exact same

theorem move
    (alongside : Alongside before after otherBefore otherAfter machine
      counterpart)
    (start finish otherStart otherFinish : List Char) {place otherPlace : Int}
    (layout : before ++ after = start ++ finish)
    (pointer : place = start.length)
    (otherLayout : otherBefore ++ otherAfter = otherStart ++ otherFinish)
    (otherPointer : otherPlace = otherStart.length)
    (passed : start.filter isCommand = otherStart.filter isCommand)
    (ahead : finish.filter isCommand = otherFinish.filter isCommand) :
    Abreast { machine with pointer := place }
      { counterpart with pointer := otherPlace } :=
  ⟨start, finish, otherStart, otherFinish,
    .of_places (alongside.stands.layout.trans layout) pointer
      (alongside.otherStands.layout.trans otherLayout) otherPointer passed ahead
      ⟨alongside.same.head, alongside.same.tape, alongside.same.input,
        alongside.same.output⟩⟩

theorem enterLoop_agrees
    (alongside : Alongside before ('[' :: after) otherBefore ('[' :: otherAfter)
      machine counterpart) :
    Agrees machine.enterLoop counterpart.enterLoop := by
  have same := alongside.same
  have rests := alongside.ahead_of_command rfl
  rw [enterLoop, enterLoop, same.cell]
  split
  · rw [alongside.stands.closing?_eq, alongside.otherStands.closing?_eq]
    have distinct : '[' ≠ ']' := by decide
    cases leftAlike_of_filter_eq distinct rfl rfl 0 rests with
    | @found body rest otherBody otherRest layout otherLayout bodies ahead scan
        otherScan =>
        rw [scan, otherScan]
        apply Agrees.ok rfl rfl
        apply alongside.move (before ++ '[' :: body ++ [']']) rest
          (otherBefore ++ '[' :: otherBody ++ [']']) otherRest
        · simp [layout]
        · simp only [List.length_append, List.length_cons, List.length_nil]
          omega
        · simp [otherLayout]
        · simp only [List.length_append, List.length_cons, List.length_nil]
          omega
        · simp only [List.filter_append, List.filter_cons, alongside.passed,
            bodies]
        · exact ahead
    | missed scan otherScan =>
        rw [scan, otherScan]
        exact .fault rfl rfl ⟨same.head, same.tape, same.input, same.output⟩
  · exact .ok rfl rfl ⟨_, _, _, _, alongside.next rfl rfl rfl rfl rfl
      ⟨same.head, same.tape, same.input, same.output⟩⟩

theorem repeatLoop_agrees
    (alongside : Alongside before (']' :: after) otherBefore (']' :: otherAfter)
      machine counterpart) :
    Agrees machine.repeatLoop counterpart.repeatLoop := by
  have same := alongside.same
  rw [repeatLoop, repeatLoop, same.cell]
  split
  · exact .ok rfl rfl ⟨_, _, _, _, alongside.next rfl rfl rfl rfl rfl
      ⟨same.head, same.tape, same.input, same.output⟩⟩
  · rw [alongside.stands.opening?_eq, alongside.otherStands.opening?_eq]
    have distinct : ']' ≠ '[' := by decide
    have behind : before.reverse.filter isCommand =
        otherBefore.reverse.filter isCommand := by
      rw [List.filter_reverse, List.filter_reverse, alongside.passed]
    cases leftAlike_of_filter_eq distinct rfl rfl 0 behind with
    | @found body rest otherBody otherRest layout otherLayout bodies rests scan
        otherScan =>
        rw [scan, otherScan]
        rw [List.reverse_eq_iff] at layout otherLayout
        apply Agrees.ok rfl rfl
        apply alongside.move
          rest.reverse ('[' :: body.reverse ++ ']' :: after)
          otherRest.reverse ('[' :: otherBody.reverse ++ ']' :: otherAfter)
        · simp [layout]
        · simp [layout]
        · simp [otherLayout]
        · simp [otherLayout]
        · rw [List.filter_reverse, List.filter_reverse, rests]
        · rw [List.filter_append, List.filter_append, alongside.ahead]
          simp only [List.filter_cons, List.filter_reverse, bodies]
    | missed scan otherScan =>
        rw [scan, otherScan]
        exact .fault rfl rfl ⟨same.head, same.tape, same.input, same.output⟩

theorem execute_agrees {command : Command}
    (decoded : Command.ofChar? c = some command)
    (alongside : Alongside before (c :: after) otherBefore (c :: otherAfter)
      machine counterpart) :
    Agrees (machine.execute command) (counterpart.execute command) := by
  obtain rfl | rfl | ⟨action, rfl⟩ := command.eq_bracket_or_action
  · obtain rfl := Command.ofChar?_eq_opening.1 decoded
    exact alongside.enterLoop_agrees
  · obtain rfl := Command.ofChar?_eq_closing.1 decoded
    exact alongside.repeatLoop_agrees
  · have same := alongside.same.execute_action action
    obtain ⟨state, executed, sameProgram, pointer, _⟩ :=
      machine.execute_action action
    obtain ⟨otherState, otherExecuted, sameOther, otherPointer, _⟩ :=
      counterpart.execute_action action
    rw [executed, otherExecuted] at same ⊢
    exact .ok rfl rfl ⟨_, _, _, _,
      alongside.next (isCommand_of_decoded decoded) sameProgram pointer sameOther
        otherPointer same⟩

theorem cycle_agrees (given : isCommand c = true)
    (alongside : Alongside before (c :: after) otherBefore (c :: otherAfter)
      machine counterpart) : Agrees machine.cycle counterpart.cycle := by
  obtain ⟨command, decoded⟩ := decoded_of_isCommand given
  rw [cycle, cycle, alongside.stands.character?, alongside.otherStands.character?]
  simp only [decoded]
  exact (alongside.execute_agrees decoded).counted _ _

end Alongside

theorem Stands.comment_sameStore
    (stands : machine.Stands before (c :: after) memory)
    (isComment : Command.ofChar? c = none) :
    machine.SameStore machine.cycle.state := by
  rw [cycle, stands.character?]
  simp only [isComment]
  exact ⟨rfl, rfl, rfl, rfl⟩

theorem continues_of_ok (succeeds : machine.cycle.outcome = .ok) :
    (Esoteric.Machine.tape machine).Continues none :=
  ⟨not_finished_of_ok succeeds, nofun, succeeds⟩

/-- A machine ends as it does from behind the comments that it has come to. -/
theorem Stands.passes
    (stands : machine.Stands before (comments ++ after) memory)
    (areComments : ∀ c ∈ comments, ¬ isCommand c = true) :
    ∃ reached, reached.Stands (before ++ comments) after memory ∧
      machine.SameStore reached ∧
      ∀ ending final, Iterates none (.tape reached) ending final →
        Iterates none (.tape machine) ending final := by
  induction comments generalizing machine before with
  | nil =>
      refine ⟨machine, ?_, ⟨rfl, rfl, rfl, rfl⟩, fun _ _ => id⟩
      rw [List.append_nil]
      exact stands
  | cons c comments induction =>
      have isComment :=
        comment_of_not_isCommand (areComments c List.mem_cons_self)
      obtain ⟨succeeds, arrives⟩ := stands.comment isComment
      obtain ⟨reached, beyond, same, ends⟩ := induction arrives
        fun c member => areComments c (List.mem_cons_of_mem _ member)
      refine ⟨reached, ?_, (stands.comment_sameStore isComment).trans same, ?_⟩
      · rw [List.append_cons]
        exact beyond
      · intro ending final iterates
        exact .step (continues_of_ok succeeds) (ends ending final iterates)

namespace Alongside

theorem comment (isComment : ¬ isCommand c = true)
    (alongside : Alongside before (c :: after) otherBefore otherAfter machine
      counterpart) :
    machine.cycle.outcome = .ok ∧
      machine.cycle.state.Abreast counterpart := by
  have passes := comment_of_not_isCommand isComment
  obtain ⟨succeeds, arrives⟩ := alongside.stands.comment passes
  have kept := alongside.stands.comment_sameStore passes
  refine ⟨succeeds, before ++ [c], after, otherBefore, otherAfter, ?_⟩
  apply of_places arrives.layout arrives.pointer alongside.otherStands.layout
    alongside.otherStands.pointer
  · rw [List.filter_append, List.filter_cons_of_neg isComment, List.filter_nil,
      List.append_nil, alongside.passed]
  · rw [← alongside.ahead, List.filter_cons_of_neg isComment]
  · exact kept.symm.trans alongside.same

theorem catchUp (given : isCommand c = true)
    (alongside : Alongside before (c :: after) otherBefore otherAfter machine
      counterpart) :
    ∃ reached start finish,
      Alongside before (c :: after) start (c :: finish) machine reached ∧
      ∀ ending final, Iterates none (.tape reached) ending final →
        Iterates none (.tape counterpart) ending final := by
  have ahead := alongside.ahead.symm
  rw [List.filter_cons_of_pos given] at ahead
  obtain ⟨comments, finish, rfl, areComments, _, rest⟩ :=
    List.filter_eq_cons_iff.1 ahead
  obtain ⟨reached, beyond, same, ends⟩ :=
    alongside.otherStands.passes areComments
  refine ⟨reached, otherBefore ++ comments, finish, ?_, ends⟩
  apply of_places alongside.stands.layout alongside.stands.pointer beyond.layout
    beyond.pointer
  · rw [List.filter_append, List.filter_eq_nil_iff.2 areComments,
      List.append_nil, alongside.passed]
  · rw [List.filter_cons_of_pos given, List.filter_cons_of_pos given, rest]
  · exact alongside.same.trans same

theorem finish
    (alongside : Alongside before [] otherBefore otherAfter machine
      counterpart) :
    ∃ reached, Iterates none (.tape counterpart) .finished (.tape reached) ∧
      machine.SameStore reached := by
  have areComments := List.filter_eq_nil_iff.1 alongside.ahead.symm
  have stands := alongside.otherStands
  rw [← List.append_nil otherAfter] at stands
  obtain ⟨reached, beyond, same, ends⟩ := stands.passes areComments
  have finished : (Esoteric.Machine.tape reached).finished = true :=
    beyond.finished_iff.2 rfl
  exact ⟨reached, ends _ _ (.stop (.finished finished)),
    alongside.same.trans same⟩

end Alongside

theorem iterates_of_fault {cause : Fault}
    (fails : machine.cycle.outcome = .fault cause) :
    Iterates none (.tape machine) (.failed cause)
      (.tape machine.cycle.state) := by
  have unfinished : (Esoteric.Machine.tape machine).finished = false := by
    cases finished : machine.finished with
    | false => exact finished
    | true =>
        rw [cycle_of_finished finished] at fails
        contradiction
  exact .stop (.cycle unfinished nofun (Outcome.ending?_eq_failed_iff.2 fails))

theorem Abreast.stops (abreast : machine.Abreast counterpart)
    (stops : Stops none (.tape machine) ending final) :
    ∃ state other, final = .tape state ∧
      Iterates none (.tape counterpart) ending (.tape other) ∧
      state.SameStore other := by
  have stopped : machine.cycle.outcome ≠ .ok :=
    mt continues_of_ok stops.not_continues
  obtain ⟨before, after, otherBefore, otherAfter, alongside⟩ := abreast
  cases stops with
  | finished finished =>
      obtain rfl := alongside.stands.finished_iff.1 finished
      obtain ⟨reached, ends, same⟩ := alongside.finish
      exact ⟨machine, reached, rfl, ends, same⟩
  | spent _ limited _ => contradiction
  | cycle unfinished _ result =>
      cases after with
      | nil =>
          have finished := alongside.stands.finished_iff.2 rfl
          exact absurd (finished.symm.trans unfinished) (by decide)
      | cons c after =>
          by_cases given : isCommand c = true
          · obtain ⟨reached, _, _, caughtUp, ends⟩ := alongside.catchUp given
            cases caughtUp.cycle_agrees given with
            | ok succeeds _ _ => exact absurd succeeds stopped
            | fault fails otherFails same =>
                obtain rfl := Option.some.inj
                  ((Outcome.ending?_eq_failed_iff.2 fails).symm.trans result)
                exact ⟨_, _, rfl, ends _ _ (iterates_of_fault otherFails), same⟩
          · exact absurd (alongside.comment given).1 stopped

theorem Abreast.iterates (abreast : machine.Abreast counterpart)
    (iterates : Iterates none (.tape machine) ending final) :
    ∃ state other, final = .tape state ∧
      Iterates none (.tape counterpart) ending (.tape other) ∧
      state.SameStore other := by
  generalize initial : Esoteric.Machine.tape machine = start at iterates
  induction iterates generalizing machine counterpart with
  | stop stops =>
      subst initial
      exact abreast.stops stops
  | step continues _ induction =>
      subst initial
      obtain ⟨before, after, otherBefore, otherAfter, alongside⟩ := abreast
      have succeeds : machine.cycle.outcome = .ok := continues.succeeds
      cases after with
      | nil =>
          have finished := alongside.stands.finished_iff.2 rfl
          exact absurd (finished.symm.trans continues.unfinished) (by decide)
      | cons c after =>
          by_cases given : isCommand c = true
          · obtain ⟨reached, _, _, caughtUp, ends⟩ := alongside.catchUp given
            cases caughtUp.cycle_agrees given with
            | ok _ otherSucceeds abreast =>
                obtain ⟨state, other, rfl, later, same⟩ :=
                  induction abreast rfl
                exact ⟨state, other, rfl,
                  ends _ _ (.step (continues_of_ok otherSucceeds) later), same⟩
            | fault fails _ _ =>
                rw [succeeds] at fails
                contradiction
          -- The first machine comes nearer to a command, and the second waits.
          · exact induction (alongside.comment given).2 rfl

end Machine

variable {input : Input} {ending : Ending} {final : Esoteric.Machine}

theorem abreast_begin (same : first.filter isCommand = second.filter isCommand)
    (input : Input) :
    Machine.Abreast { program := first.toArray, input }
      { program := second.toArray, input } :=
  ⟨[], first, [], second, .of_places rfl rfl rfl rfl rfl same
    ⟨rfl, rfl, rfl, rfl⟩⟩

theorem leaves_of_filter_eq
    (same : first.filter isCommand = second.filter isCommand) {traced : Bool}
    (leaves : (begin first input traced).Leaves none ending final) :
    ∃ state other, final = .tape state ∧
      (begin second input traced).Leaves none ending (.tape other) ∧
      state.SameStore other := by
  obtain ⟨state, other, isTape, iterates, kept⟩ :=
    (abreast_begin same input).iterates (Session.leaves_iff.1 leaves)
  exact ⟨state, other, isTape, Session.leaves_iff.2 iterates, kept⟩

/-- Whether and how a program ends, and what it leaves, does not depend on its
comments. -/
theorem run_without_comments (text : List Char) (input : Input) (traced : Bool)
    (ending : Ending) :
    let whole := begin text input traced
    let bare := begin (text.filter isCommand) input traced
    ((∃ final, whole.Leaves none ending final) ↔
        ∃ final, bare.Leaves none ending final) ∧
      ∀ final other, whole.Leaves none ending final →
        bare.Leaves none ending other →
          ∃ state otherState, final = .tape state ∧ other = .tape otherState ∧
            state.SameStore otherState := by
  intro whole bare
  have same : text.filter isCommand =
      (text.filter isCommand).filter isCommand := by
    rw [List.filter_filter]
    simp only [Bool.and_self]
  refine ⟨⟨?_, ?_⟩, ?_⟩
  · rintro ⟨final, leaves⟩
    obtain ⟨_, other, _, otherLeaves, _⟩ := leaves_of_filter_eq same leaves
    exact ⟨.tape other, otherLeaves⟩
  · rintro ⟨final, leaves⟩
    obtain ⟨_, other, _, otherLeaves, _⟩ := leaves_of_filter_eq same.symm leaves
    exact ⟨.tape other, otherLeaves⟩
  · intro final other leaves otherLeaves
    obtain ⟨state, otherState, isTape, again, kept⟩ :=
      leaves_of_filter_eq same leaves
    obtain ⟨reached, ends, rfl⟩ := otherLeaves
    obtain ⟨last, otherEnds, equality⟩ := again
    obtain ⟨_, rfl⟩ := otherEnds.unique ends
    exact ⟨state, otherState, isTape, equality, kept⟩

theorem run_without_comments_of_surplus :
    let text := ['a', '+', 'b', ']', 'c']
    let whole := begin text .empty false
    let bare := begin (text.filter isCommand) .empty false
    ∃ final other, whole.Leaves none (.failed .unmatchedClosing) final ∧
      bare.Leaves none (.failed .unmatchedClosing) other ∧
      ∃ state otherState, final = .tape state ∧ other = .tape otherState ∧
        state.SameStore otherState := by
  intro text whole bare
  have fails : (whole.run none 4).map Prod.fst =
      some (.failed .unmatchedClosing) := by decide +kernel
  obtain ⟨⟨_, reached⟩, result, rfl⟩ := Option.map_eq_some_iff.1 fails
  have leaves := Session.leaves_iff.2 (Session.iterates_of_run result)
  obtain ⟨ends, agrees⟩ := run_without_comments text .empty false
    (.failed .unmatchedClosing)
  obtain ⟨other, otherLeaves⟩ := ends.1 ⟨_, leaves⟩
  exact ⟨_, other, leaves, otherLeaves, agrees _ other leaves otherLeaves⟩

end Esoteric.Brainfuck
