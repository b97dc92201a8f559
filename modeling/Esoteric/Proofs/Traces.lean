import Esoteric.Session
import Esoteric.Proofs.Grid.Effect
import Esoteric.Proofs.Text.SingleLine

/-! A cycle reports nothing but its trace, and every fault is told in one line. -/

namespace Esoteric

namespace Step

variable {State : Type} {step : Step State}

def Traces (step : Step State) : Prop :=
  ∀ diagnostic ∈ step.diagnostics, diagnostic.isTrace = true

namespace Traces

theorem of_nil (silent : step.diagnostics = []) : step.Traces := by
  rw [Traces, silent]
  nofun

theorem report {diagnostic : Diagnostic} (traces : step.Traces)
    (also : diagnostic.isTrace = true) : (step.report diagnostic).Traces :=
  List.forall_mem_cons.2 ⟨also, traces⟩

theorem andThen_ok (traces : step.Traces) (finish : State → State) :
    (step.andThen fun reached => .ok (finish reached)).Traces := by
  rw [Step.andThen]
  split
  · rw [Traces]
    intro diagnostic member
    exact traces diagnostic (List.append_nil step.diagnostics ▸ member)
  · exact traces

end Traces

end Step

namespace Grid

theorem Machine.store_traces (machine : Machine) (position : Position)
    (value : Int) : (machine.store position value).Traces := by
  rw [store]
  cases machine.field.write position value with
  | inside field => exact .of_nil rfl
  | dropped => exact Step.Traces.report (.of_nil rfl) rfl
  | refused cause => exact .of_nil rfl

theorem Effect.traces {dialect : Dialect} {machine : Machine}
    {step : Step Machine} (effect : Effect dialect machine step) :
    step.Traces := by
  cases effect with
  | still silent _ _ => exact .of_nil silent
  | store position value _ _ => exact Machine.store_traces _ position value
  | bridge _ | found _ _ | missed _ _ => exact .of_nil rfl

theorem Machine.cycle_traces (dialect : Dialect) (machine : Machine) :
    (machine.cycle dialect).Traces := by
  rw [cycle]
  split
  · exact .of_nil rfl
  · rename_i cell stored
    exact ((dialect.execute_effect stored).traces.andThen_ok _).report rfl

theorem Befunge.Fails.legible {machine left : Machine} {cause : Fault}
    (fails : Fails machine cause left) : cause.Legible := by
  apply Fault.legible_of_named
  rintro operation rfl
  cases fails with
  | putShort _ _ | getShort _ _ => decide

theorem Argh.Fails.legible {machine left : Machine} {cause : Fault}
    (fails : Fails machine cause left) : cause.Legible := by
  apply Fault.legible_of_named
  rintro operation rfl
  cases fails

theorem Machine.legible_of_fault {dialect : Dialect} {machine : Machine}
    {cause : Fault} (fails : (machine.cycle dialect).outcome = .fault cause) :
    cause.Legible := by
  cases dialect with
  | befunge => exact ((Befunge.cycle_justified machine).fault cause fails).legible
  | argh => exact ((Argh.cycle_justified machine).fault cause fails).legible

theorem Machine.proper_of_fault {dialect : Dialect} {machine : Machine}
    {cause : Fault} (fails : (machine.cycle dialect).outcome = .fault cause) :
    cause.Proper := by
  cases dialect with
  | befunge => exact ((Befunge.cycle_justified machine).fault cause fails).proper
  | argh => exact ((Argh.cycle_justified machine).fault cause fails).proper

end Grid

namespace Brainfuck.Machine

variable {machine : Machine} {cause : Fault}

theorem execute_silent (command : Command) (machine : Machine) :
    (machine.execute command).diagnostics = [] ∧
      ((machine.execute command).outcome = .ok ∨
        (machine.execute command).outcome = .fault .unmatchedOpening ∨
        (machine.execute command).outcome = .fault .unmatchedClosing) := by
  cases command with
  | opening =>
      simp only [execute, enterLoop]
      split
      · split
        · exact ⟨rfl, .inl rfl⟩
        · exact ⟨rfl, .inr (.inl rfl)⟩
      · exact ⟨rfl, .inl rfl⟩
  | closing =>
      simp only [execute, repeatLoop]
      split
      · exact ⟨rfl, .inl rfl⟩
      · split
        · exact ⟨rfl, .inl rfl⟩
        · exact ⟨rfl, .inr (.inr rfl)⟩
  | _ => exact ⟨rfl, .inl rfl⟩

theorem cycle_traces (machine : Machine) : machine.cycle.Traces := by
  unfold cycle
  split
  · exact .of_nil rfl
  · rename_i c _
    cases Command.ofChar? c with
    | none => exact Step.Traces.report (.of_nil rfl) rfl
    | some command =>
        refine Step.Traces.report (Step.Traces.andThen_ok (.of_nil ?_) _) rfl
        exact (machine.execute_silent command).1

theorem unmatched_of_fault (fails : machine.cycle.outcome = .fault cause) :
    cause = .unmatchedOpening ∨ cause = .unmatchedClosing := by
  unfold cycle at fails
  split at fails
  · contradiction
  · rename_i c _
    cases found : Command.ofChar? c with
    | none =>
        rw [found] at fails
        contradiction
    | some command =>
        rw [found] at fails
        simp only [Step.report, Step.andThen] at fails
        obtain ⟨_, ok | opening | closing⟩ := machine.execute_silent command
        · rw [ok] at fails
          contradiction
        · simp only [opening] at fails
          cases fails
          exact .inl rfl
        · simp only [closing] at fails
          cases fails
          exact .inr rfl

end Brainfuck.Machine

namespace Machine

theorem cycle_traces (machine : Machine) : machine.cycle.Traces := by
  cases machine with
  | grid dialect state => exact state.cycle_traces dialect
  | tape state => exact state.cycle_traces

theorem isTrace_of_mem_stopReport (machine : Machine)
    {diagnostic : Diagnostic} (member : diagnostic ∈ machine.stopReport) :
    diagnostic.isTrace = true := by
  cases machine with
  | grid dialect state =>
      rw [stopReport, List.mem_singleton] at member
      rw [member]
      rfl
  | tape state => contradiction

theorem legible_of_fault {machine : Machine} {cause : Fault}
    (fails : machine.cycle.outcome = .fault cause) : cause.Legible := by
  cases machine with
  | grid dialect state => exact Grid.Machine.legible_of_fault fails
  | tape state =>
      obtain rfl | rfl := Brainfuck.Machine.unmatched_of_fault fails
      · exact Fault.legible_of_named nofun
      · exact Fault.legible_of_named nofun

theorem proper_of_fault {machine : Machine} {cause : Fault}
    (fails : machine.cycle.outcome = .fault cause) : cause.Proper := by
  cases machine with
  | grid dialect state => exact Grid.Machine.proper_of_fault fails
  | tape state =>
      obtain rfl | rfl := Brainfuck.Machine.unmatched_of_fault fails
      · exact nofun
      · exact nofun

end Machine

end Esoteric
