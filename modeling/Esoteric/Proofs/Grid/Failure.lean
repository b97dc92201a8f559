import Esoteric.Proofs.Grid.Argh.Failure
import Esoteric.Proofs.Grid.Befunge.Failure

namespace Esoteric.Grid

variable {machine left : Machine} {cause : Fault}

/-- What a cycle that fails never changes, and how far it may have moved. -/
structure Machine.Spares (machine : Machine) (cause : Fault)
    (left : Machine) : Prop where
  field : left.field = machine.field
  output : left.output = machine.output
  cycles : left.cycles = machine.cycles
  chance : left.chance = machine.chance
  heading : left.heading = machine.heading ∨
    machine.Holds (Argh.jumpLetter left.heading) ∧
      ∃ target, cause = .noLanding target left.pointer
  pointer : left.pointer = machine.pointer ∨
    ∃ passed, machine.field.Crosses left.heading machine.pointer passed
      left.pointer
  input : left.input = machine.input ∨
    left.input = machine.input.rest ∧
      ∃ side : Argh.Side, machine.Holds (side.letter 'g')

theorem Machine.Spares.of_stack (machine : Machine) (cause : Fault)
    (stack : List Int) : machine.Spares cause { machine with stack } where
  field := rfl
  output := rfl
  cycles := rfl
  chance := rfl
  heading := .inl rfl
  pointer := .inl rfl
  input := .inl rfl

theorem Befunge.Fails.spares (fails : Befunge.Fails machine cause left) :
    machine.Spares cause left := by
  have kept := Machine.Spares.of_stack machine cause machine.stack
  cases fails with
  | unterminated holds crosses _ =>
      exact { kept with
        heading := .inl rfl
        pointer := .inr ⟨_, .cons holds crosses⟩ }
  | _ => exact .of_stack machine _ _

theorem Argh.Fails.spares (fails : Argh.Fails machine cause left) :
    machine.Spares cause left := by
  have kept := Machine.Spares.of_stack machine cause machine.stack
  cases fails with
  | noLanding holds _ crosses _ =>
      exact { kept with
        heading := .inr ⟨holds, _, rfl⟩
        pointer := .inr ⟨_, crosses⟩ }
  | ask holds _ => exact { kept with input := .inr ⟨rfl, _, holds⟩ }
  | _ => exact .of_stack machine _ _

def Dialect.Fails (dialect : Dialect) (machine : Machine) (cause : Fault)
    (left : Machine) : Prop :=
  match dialect with
  | befunge => Befunge.Fails machine cause left
  | argh => Argh.Fails machine cause left

/-- A cycle that fails leaves the program, the output and the count alone, and of
the rest it leaves what its failure says. -/
theorem Machine.cycle_of_fault (dialect : Dialect) (machine : Machine)
    {cause : Fault} (fails : (machine.cycle dialect).outcome = .fault cause) :
    dialect.Fails machine cause (machine.cycle dialect).state ∧
      machine.Spares cause (machine.cycle dialect).state := by
  cases dialect with
  | befunge =>
      have reason := (Befunge.cycle_justified machine).fault cause fails
      exact ⟨reason, reason.spares⟩
  | argh =>
      have reason := (Argh.cycle_justified machine).fault cause fails
      exact ⟨reason, reason.spares⟩

theorem Machine.cycle_of_fault_of_question :
    let machine : Machine :=
      { field := ⟨#[#[103]], .strict⟩, input := ⟨['a', 'b']⟩ }
    let cause : Fault := .writeOutside ⟨0, 1⟩
    (machine.cycle .argh).outcome = .fault cause ∧
      Dialect.argh.Fails machine cause (machine.cycle .argh).state ∧
      machine.Spares cause (machine.cycle .argh).state := by
  intro machine cause
  have fails : (machine.cycle .argh).outcome = .fault cause := rfl
  exact ⟨fails, Machine.cycle_of_fault .argh machine fails⟩

end Esoteric.Grid
