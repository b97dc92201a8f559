import Esoteric.Proofs.Run
import Esoteric.Session

namespace Esoteric

open Run

namespace Machine

theorem not_finished_of_ok {machine : Machine}
    (succeeds : machine.cycle.outcome = .ok) : machine.finished = false := by
  cases machine with
  | grid dialect state => rfl
  | tape state =>
      cases found : state.program.character? state.pointer with
      | none =>
          have stops : state.cycle.outcome = .astray := by
            rw [Brainfuck.Machine.cycle, found]
            rfl
          exact absurd (stops.symm.trans succeeds) (by decide)
      | some c =>
          have within := Brainfuck.Program.lt_size_of_character? found
          simpa [finished, Brainfuck.Machine.finished] using within

theorem cycle_of_finished {state : Brainfuck.Machine}
    (finished : state.finished) : state.cycle = .astray state := by
  have outside : state.program.character? state.pointer = none := by
    cases found : state.program.character? state.pointer with
    | none => rfl
    | some c =>
        have within := Brainfuck.Program.lt_size_of_character? found
        rw [Brainfuck.Machine.finished, decide_eq_true_eq] at finished
        omega
  rw [Brainfuck.Machine.cycle, outside]

theorem reaches_tape_iff {state : Brainfuck.Machine} {finish : Machine}
    {count : Nat} :
    Reaches cycle count (tape state) finish ↔
      ∃ final, finish = tape final ∧
        Reaches Brainfuck.Machine.cycle count state final := by
  constructor
  · generalize initial : tape state = start
    intro run
    induction run generalizing state with
    | refl => exact ⟨state, initial.symm, .refl⟩
    | step succeeds _ induction =>
        subst initial
        obtain ⟨final, equality, later⟩ := induction rfl
        exact ⟨final, equality, .step succeeds later⟩
  · rintro ⟨final, rfl, run⟩
    induction run with
    | refl => exact .refl
    | step succeeds _ induction => exact .step succeeds induction

theorem reaches_grid {dialect : Grid.Dialect} {start final : Grid.Machine}
    {count : Nat} (run : Reaches (Grid.Machine.cycle dialect) count start final) :
    Reaches cycle count (grid dialect start) (grid dialect final) := by
  induction run with
  | refl => exact .refl
  | step succeeds _ induction => exact .step succeeds induction

end Machine

namespace Session

variable {session reached : Session} {finish : Machine} {ending : Ending}
  {fuel count : Nat}

@[simp] theorem recordAll_machine (session : Session)
    (diagnostics : List Diagnostic) :
    (session.recordAll diagnostics).machine = session.machine := by
  have record_machine (session : Session) (diagnostic : Diagnostic) :
      (session.record diagnostic).machine = session.machine := by
    rw [record]
    split <;> rfl
  induction diagnostics generalizing session with
  | nil => rfl
  | cons diagnostic diagnostics induction =>
      exact (induction (session.record diagnostic)).trans
        (record_machine session diagnostic)

@[simp] theorem after_machine (session : Session) (step : Step Machine) :
    (session.after step).machine = step.state :=
  recordAll_machine ..

theorem forall_recordAll {holds : Diagnostic → Prop}
    (earlier : ∀ diagnostic ∈ session.diagnostics, holds diagnostic)
    {diagnostics : List Diagnostic}
    (added : ∀ diagnostic ∈ diagnostics, holds diagnostic) :
    ∀ diagnostic ∈ (session.recordAll diagnostics).diagnostics,
      holds diagnostic := by
  induction diagnostics generalizing session with
  | nil => exact earlier
  | cons diagnostic diagnostics induction =>
      obtain ⟨head, tail⟩ := List.forall_mem_cons.1 added
      refine induction ?_ tail
      rw [record]
      split
      · intro other member
        rcases Array.mem_push.1 member with before | rfl
        · exact earlier other before
        · exact head
      · exact earlier

theorem turn_of_finished (limit : Option Int)
    (finished : session.machine.finished = true) :
    session.turn limit = .ended .finished session := by
  rw [turn, if_pos finished]

theorem turn_of_ok {limit : Option Int} (unspent : session.spent? limit = none)
    (succeeds : session.machine.cycle.outcome = .ok) :
    session.turn limit = .going (session.after session.machine.cycle) := by
  have going := Machine.not_finished_of_ok succeeds
  simp only [turn, going, unspent, cycle_eq, succeeds]
  rfl

theorem reaches_of_run
    (result : session.run none fuel = some (.finished, reached)) :
    reached.machine.finished = true ∧
      ∃ count, Reaches Machine.cycle count session.machine reached.machine := by
  induction fuel generalizing session with
  | zero => contradiction
  | succ fuel induction =>
      cases finished : session.machine.finished with
      | true =>
          rw [run, turn_of_finished none finished] at result
          cases result
          exact ⟨finished, 0, .refl⟩
      | false =>
          cases succeeds : session.machine.cycle.outcome with
          | ok =>
              rw [run, turn_of_ok rfl succeeds] at result
              obtain ⟨done, count, later⟩ := induction result
              rw [after_machine] at later
              exact ⟨done, count + 1, .step succeeds later⟩
          | quit | fault _ | astray =>
              simp [run, turn, finished, cycle_eq, succeeds, spent?, fail] at result

theorem run_of_reaches
    (whole : Reaches Machine.cycle count session.machine finish)
    (finished : finish.finished = true) :
    ∃ reached, session.run none (count + 1) = some (.finished, reached) ∧
      reached.machine = finish := by
  generalize initial : session.machine = start at whole
  induction whole generalizing session with
  | refl =>
      subst initial
      refine ⟨session, ?_, rfl⟩
      rw [run, turn_of_finished none finished]
  | step succeeds _ induction =>
      subst initial
      obtain ⟨reached, result, equality⟩ :=
        induction finished (after_machine session session.machine.cycle)
      refine ⟨reached, ?_, equality⟩
      rw [run, turn_of_ok rfl succeeds]
      exact result

theorem ending_of_safe {safe : Machine → Prop}
    (progress : ∀ machine, safe machine → machine.finished = false →
      machine.cycle.outcome = .ok ∧ safe machine.cycle.state)
    (initial : safe session.machine)
    (result : session.run none fuel = some (ending, reached)) :
    ending = .finished := by
  induction fuel generalizing session with
  | zero => contradiction
  | succ fuel induction =>
      cases finished : session.machine.finished with
      | true =>
          rw [run, turn_of_finished none finished] at result
          cases result
          rfl
      | false =>
          obtain ⟨succeeds, later⟩ := progress session.machine initial finished
          rw [run, turn_of_ok rfl succeeds] at result
          rw [← after_machine session] at later
          exact induction later result

end Session

end Esoteric
