import Esoteric.Proofs.Brainfuck.Unmatched
import Esoteric.Proofs.Grid.Changes
import Esoteric.Proofs.Tracing

/-! How the run of a machine ends that nothing leads astray, and what is then shown
as errors. -/

namespace Esoteric

namespace Machine

variable {machine : Machine}

def language : Machine → Language
  | grid .befunge _ => .befunge
  | grid .argh _ => .argh
  | tape _ => .brainfuck

/-- A machine whose draws all give a direction, or whose pointer is not before its
program. -/
def Guided : Machine → Prop
  | grid _ state => ∀ turn, state.chance.draws turn ≠ none
  | tape state => 0 ≤ state.pointer

theorem language_cycle (machine : Machine) :
    machine.cycle.state.language = machine.language := by
  cases machine with
  | grid dialect state => cases dialect <;> rfl
  | tape state => rfl

theorem language_grid (dialect : Grid.Dialect) (state : Grid.Machine) :
    (grid dialect state).language ≠ .brainfuck := by
  cases dialect <;> exact nofun

theorem language_of_finished (finished : machine.finished = true) :
    machine.language = .brainfuck := by
  cases machine with
  | grid dialect state => contradiction
  | tape state => rfl

end Machine

namespace Grid.Machine

variable {dialect : Dialect} {machine : Machine}

theorem draws_chanceAfter (dialect : Dialect) (machine : Machine) :
    (dialect.chanceAfter machine).draws = machine.chance.draws := by
  rw [Dialect.chanceAfter]
  split <;> rfl

theorem draws_cycle (succeeds : (machine.cycle dialect).outcome = .ok) :
    (machine.cycle dialect).state.chance.draws = machine.chance.draws := by
  cases stored : machine.field.cell? machine.pointer with
  | none =>
      obtain ⟨fails, _⟩ := cycle_of_outside dialect stored
      rw [fails] at succeeds
      contradiction
  | some cell =>
      have ensures := cycle_ensures stored (dialect.execute_changes stored)
      rw [(ensures succeeds).chance, draws_chanceAfter]

theorem outcome_ne_astray (gives : machine.chance.next ≠ none) :
    (machine.cycle dialect).outcome ≠ .astray := by
  cases dialect with
  | befunge => exact mt (Befunge.cycle_justified machine).astray gives
  | argh => exact mt (Argh.cycle_justified machine).astray not_false

end Grid.Machine

namespace Brainfuck.Machine

variable {machine : Machine}

theorem pointer_cycle (lower : 0 ≤ machine.pointer)
    (succeeds : machine.cycle.outcome = .ok) :
    0 ≤ machine.cycle.state.pointer := by
  have within : machine.Within machine.program :=
    ⟨rfl, lower, Int.le_of_lt (lt_size_of_ok succeeds)⟩
  exact (within.cycle succeeds).lower

theorem outcome_of_inside (lower : 0 ≤ machine.pointer)
    (unfinished : machine.finished = false) :
    machine.cycle.outcome = .ok ∨
      ∃ cause, machine.cycle.outcome = .fault cause := by
  obtain ⟨place, stands⟩ := Int.eq_ofNat_of_zero_le lower
  have inside : place < machine.program.size := by
    rw [finished, decide_eq_false_iff_not] at unfinished
    omega
  obtain succeeds | fails | fails := (matchesBrackets stands inside).outcome
  · exact .inl succeeds
  · exact .inr ⟨_, fails⟩
  · exact .inr ⟨_, fails⟩

end Brainfuck.Machine

namespace Machine

variable {machine : Machine}

theorem Guided.cycle (guided : machine.Guided)
    (succeeds : machine.cycle.outcome = .ok) : machine.cycle.state.Guided := by
  cases machine with
  | grid dialect state =>
      have kept := Grid.Machine.draws_cycle succeeds
      intro turn
      rw [kept]
      exact guided turn
  | tape state => exact Brainfuck.Machine.pointer_cycle guided succeeds

theorem Guided.outcome_ne_astray (guided : machine.Guided)
    (unfinished : machine.finished = false) :
    machine.cycle.outcome ≠ .astray := by
  cases machine with
  | grid dialect state =>
      exact Grid.Machine.outcome_ne_astray (guided state.chance.drawn)
  | tape state =>
      obtain succeeds | ⟨cause, fails⟩ :=
        Brainfuck.Machine.outcome_of_inside guided unfinished
      · exact fun strays => nomatch succeeds.symm.trans strays
      · exact fun strays => nomatch fails.symm.trans strays

theorem Guided.language_of_quit (guided : machine.Guided)
    (unfinished : machine.finished = false)
    (quits : machine.cycle.outcome = .quit) : machine.language ≠ .brainfuck := by
  cases machine with
  | grid dialect state => exact language_grid dialect state
  | tape state =>
      obtain succeeds | ⟨cause, fails⟩ :=
        Brainfuck.Machine.outcome_of_inside guided unfinished
      · exact nomatch succeeds.symm.trans quits
      · exact nomatch fails.symm.trans quits

end Machine

namespace Diagnostic

def isFailure : Diagnostic → Bool
  | failed _ => true
  | _ => false

theorem isFailure_of_isTrace {diagnostic : Diagnostic}
    (traces : diagnostic.isTrace = true) : diagnostic.isFailure = false := by
  cases diagnostic with
  | failed cause => contradiction
  | _ => rfl

def errorStart : List Char :=
  ['E', 'R', 'R', ':', ' ']

theorem errorStart_of_not_isFailure {diagnostic : Diagnostic} {text : String}
    (other : diagnostic.isFailure = false) (told : diagnostic.text? = some text) :
    ¬ errorStart <+: text.toList := by
  cases traces : diagnostic.isTrace with
  | true =>
      have begins := begins_of_isTrace traces told
      rw [Begins, List.isPrefixOf_iff_prefix] at begins
      obtain ⟨rest, whole⟩ := begins
      rw [← whole]
      rintro ⟨later, same⟩
      simp [errorStart, debugStart] at same
  | false =>
      cases diagnostic with
      | sourceExpected =>
          cases told
          decide
      | _ => contradiction

end Diagnostic

def Plain (line : String) : Prop :=
  SingleLine line ∧ ¬ Diagnostic.errorStart <+: line.toList

instance (line : String) : Decidable (Plain line) :=
  inferInstanceAs (Decidable (_ ∧ _))

/-- What is taken from a host for granted: each draw gives a direction, and what
follows on a report that cannot be told are lines that tell of no failure. -/
structure Host.Reliable (host : Host) : Prop where
  steady : ∀ turn, host.chance.draws turn ≠ none
  plain : ∀ diagnostic, ∀ line ∈ host.traceback diagnostic, Plain line

theorem Host.Reliable.plain_lines {host : Host} (reliable : host.Reliable)
    {diagnostic : Diagnostic} (legible : diagnostic.Legible)
    (other : diagnostic.isFailure = false) :
    ∀ line ∈ host.lines diagnostic, Plain line := by
  rw [lines]
  cases told : diagnostic.text? with
  | none => exact List.forall_mem_cons.2 ⟨by decide, reliable.plain diagnostic⟩
  | some text =>
      rw [List.forall_mem_singleton]
      exact ⟨legible text told,
        Diagnostic.errorStart_of_not_isFailure other told⟩

def Quiet (diagnostics : Array Diagnostic) : Prop :=
  ∀ diagnostic ∈ diagnostics, diagnostic.isFailure = false

/-- How a run ends, in so far as its language and its reports tell. -/
inductive Ending.Recorded (language : Language) (diagnostics : Array Diagnostic) :
    Ending → Prop
  | finished (linear : language = .brainfuck) (quiet : Quiet diagnostics) :
      Recorded language diagnostics .finished
  | quit (laid : language ≠ .brainfuck) (quiet : Quiet diagnostics) :
      Recorded language diagnostics .quit
  | failed {earlier : Array Diagnostic} {cause : Fault} {message : String}
      (words : cause.message? = some message) (quiet : Quiet earlier)
      (last : diagnostics = earlier.push (.failed message)) :
      Recorded language diagnostics (.failed cause)
  | overlong {cause : Fault} (long : ∃ number ∈ cause.numbers, ¬ Numeral.Short number)
      (quiet : Quiet diagnostics) :
      Recorded language diagnostics (.failed cause)

structure Session.Sound (language : Language) (session : Session) : Prop where
  runs : session.machine.language = language
  guided : session.machine.Guided
  quiet : Quiet session.diagnostics

def Turn.Sound (language : Language) : Turn → Prop
  | ended ending session => ending.Recorded language session.diagnostics
  | going session => session.Sound language

namespace Session

variable {session reached : Session} {language : Language} {limit : Option Int}
  {fuel : Nat} {ending : Ending}

theorem quiet_recordAll (quiet : Quiet session.diagnostics)
    {diagnostics : List Diagnostic}
    (traces : ∀ diagnostic ∈ diagnostics, diagnostic.isTrace = true) :
    Quiet (session.recordAll diagnostics).diagnostics := by
  apply forall_recordAll quiet
  intro diagnostic member
  exact Diagnostic.isFailure_of_isTrace (traces diagnostic member)

theorem quiet_after (quiet : Quiet session.diagnostics) {step : Step Machine}
    (traces : step.Traces) : Quiet (session.after step).diagnostics := by
  let reached : Session := { session with machine := step.state }
  have begins : Quiet reached.diagnostics := quiet
  exact quiet_recordAll begins traces

theorem diagnostics_fail (session : Session) (message : String) :
    (session.recordAll
        (session.machine.stopReport ++ [.failed message])).diagnostics =
      (session.recordAll session.machine.stopReport).diagnostics.push
        (.failed message) := by
  rw [recordAll, List.foldl_append, List.foldl_cons, List.foldl_nil, record,
    if_pos]
  · rfl
  · exact Bool.or_true _

theorem sound_fail {cause : Fault} (quiet : Quiet session.diagnostics)
    (proper : cause.Proper) : (session.fail cause).Sound language := by
  rw [fail, Machine.failReport]
  cases words : cause.message? with
  | none => exact .overlong ((Fault.message?_eq_none_iff proper).1 words) quiet
  | some message =>
      refine .failed words ?_ (session.diagnostics_fail message)
      apply quiet_recordAll quiet
      intro diagnostic member
      exact session.machine.isTrace_of_mem_stopReport member

theorem Sound.turn (sound : session.Sound language) (limit : Option Int) :
    (session.turn limit).Sound language := by
  obtain ⟨runs, guided, quiet⟩ := sound
  have later := quiet_after quiet session.machine.cycle_traces
  rw [Session.turn]
  split
  · rename_i finished
    exact .finished (runs ▸ Machine.language_of_finished finished) quiet
  · rename_i going
    have unfinished := eq_false_of_ne_true going
    cases session.spent? limit with
    | some limit =>
        apply sound_fail quiet
        rintro number ⟨⟩
    | none =>
        simp only [cycle_eq]
        cases result : session.machine.cycle.outcome with
        | ok =>
            refine ⟨?_, ?_, later⟩
            · rw [after_machine, Machine.language_cycle, runs]
            · rw [after_machine]
              exact guided.cycle result
        | quit =>
            have laid := guided.language_of_quit unfinished result
            exact .quit (runs ▸ laid) later
        | fault cause => exact sound_fail later (Machine.proper_of_fault result)
        | astray => exact absurd result (guided.outcome_ne_astray unfinished)

theorem Sound.run (sound : session.Sound language)
    (result : session.run limit fuel = some (ending, reached)) :
    ending.Recorded language reached.diagnostics := by
  induction fuel generalizing session with
  | zero => contradiction
  | succ fuel induction =>
      have recorded := sound.turn limit
      rw [Session.run] at result
      cases turned : session.turn limit with
      | ended ending last =>
          rw [turned] at result recorded
          cases result
          exact recorded
      | going later =>
          rw [turned] at result recorded
          exact induction recorded result

end Session

/-- How a run ends, in so far as its language tells and the lines that are shown as
errors. A failure is told in the last line, unless it has too long a number. -/
inductive Ending.Shown (language : Language) (lines : List (List Char)) :
    Ending → Prop
  | finished (linear : language = .brainfuck)
      (quiet : ∀ line ∈ lines, ¬ Diagnostic.errorStart <+: line) :
      Shown language lines .finished
  | quit (laid : language ≠ .brainfuck)
      (quiet : ∀ line ∈ lines, ¬ Diagnostic.errorStart <+: line) :
      Shown language lines .quit
  | failed {earlier : List (List Char)} {cause : Fault} {message : String}
      (raises : cause.raised = .failure message)
      (quiet : ∀ line ∈ earlier, ¬ Diagnostic.errorStart <+: line)
      (told : lines = earlier ++ [("ERR: " ++ message ++ "\n").toList]) :
      Shown language lines (.failed cause)
  | overlong {cause : Fault} (raises : cause.raised = .overlong)
      (long : ∃ number ∈ cause.numbers, ¬ Numeral.Short number)
      (quiet : ∀ line ∈ lines, ¬ Diagnostic.errorStart <+: line) :
      Shown language lines (.failed cause)

namespace Launch

variable {host : Host} {diagnostics : Array Diagnostic} {language : Language}
  {ending : Ending}

theorem whole_flatMap {lines : List String}
    (single : ∀ line ∈ lines, SingleLine line) :
    Lines.whole (lines.flatMap fun line => line.toList ++ ['\n']) =
      lines.map fun line => line.toList ++ ['\n'] := by
  induction lines with
  | nil => rfl
  | cons line lines induction =>
      obtain ⟨head, tail⟩ := List.forall_mem_cons.1 single
      rw [List.flatMap_cons, List.append_assoc, List.singleton_append,
        Lines.whole_line head, induction tail]
      rfl

theorem whole_render
    (single : ∀ line ∈ diagnostics.toList.flatMap host.lines, SingleLine line) :
    Lines.whole (render host diagnostics).toList =
      (diagnostics.toList.flatMap host.lines).map fun line =>
        line.toList ++ ['\n'] := by
  rw [← whole_flatMap single, toList_render, List.flatMap_assoc]
  rfl

theorem errorStart_of_plain {lines : List String}
    (plain : ∀ line ∈ lines, Plain line) :
    ∀ line ∈ lines.map fun line => line.toList ++ ['\n'],
      ¬ Diagnostic.errorStart <+: line := by
  rw [List.forall_mem_map]
  intro line member begins
  obtain same | begins := List.prefix_concat_iff.1 begins
  · have last : '\n' ∈ Diagnostic.errorStart := by
      rw [same]
      exact List.mem_append_right _ List.mem_cons_self
    exact absurd last (by decide)
  · exact (plain line member).2 begins

theorem plain_of_quiet (reliable : host.Reliable)
    (legible : ∀ diagnostic ∈ diagnostics, diagnostic.Legible)
    (quiet : Quiet diagnostics) :
    ∀ line ∈ diagnostics.toList.flatMap host.lines, Plain line := by
  intro line member
  obtain ⟨diagnostic, present, inside⟩ := List.mem_flatMap.1 member
  rw [Array.mem_toList_iff] at present
  exact reliable.plain_lines (legible diagnostic present)
    (quiet diagnostic present) line inside

theorem errorStart_of_quiet (reliable : host.Reliable)
    (legible : ∀ diagnostic ∈ diagnostics, diagnostic.Legible)
    (quiet : Quiet diagnostics) :
    ∀ line ∈ Lines.whole (render host diagnostics).toList,
      ¬ Diagnostic.errorStart <+: line := by
  have plain := plain_of_quiet reliable legible quiet
  rw [whole_render fun line member => (plain line member).1]
  exact errorStart_of_plain plain

theorem shown_of_recorded (reliable : host.Reliable)
    (legible : ∀ diagnostic ∈ diagnostics, diagnostic.Legible)
    (recorded : ending.Recorded language diagnostics) :
    ending.Shown language (Lines.whole (render host diagnostics).toList) := by
  cases recorded with
  | finished linear quiet =>
      exact .finished linear (errorStart_of_quiet reliable legible quiet)
  | quit laid quiet =>
      exact .quit laid (errorStart_of_quiet reliable legible quiet)
  | overlong long quiet =>
      exact .overlong (Fault.raised_of_long long) long
        (errorStart_of_quiet reliable legible quiet)
  | @failed earlier cause message words quiet last =>
      rw [last] at legible ⊢
      have before : ∀ diagnostic ∈ earlier, diagnostic.Legible := by
        intro diagnostic member
        exact legible diagnostic (Array.mem_push_of_mem _ member)
      have plain := plain_of_quiet reliable before quiet
      have lines : (earlier.push (.failed message)).toList.flatMap host.lines =
          earlier.toList.flatMap host.lines ++ ["ERR: " ++ message] := by
        rw [Array.toList_push, List.flatMap_append, List.flatMap_singleton]
        rfl
      have raises := Fault.raised_eq_failure_iff.2 words
      refine .failed raises (errorStart_of_plain plain) ?_
      rw [whole_render, lines, List.map_append, String.toList_append]
      · rfl
      · rw [lines, List.forall_mem_append, List.forall_mem_singleton]
        refine ⟨fun line member => (plain line member).1, ?_⟩
        exact legible _ (Array.mem_push_self) _ rfl

end Launch

end Esoteric
