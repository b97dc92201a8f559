import Esoteric.Machine

/-! Cycles that succeed are counted, other cycles are not, and no cycle looks at
the count. -/

namespace Esoteric

def Outcome.isOverrun : Outcome → Bool
  | .fault (.cycleLimit _) => true
  | _ => false

namespace Step

variable {State : Type} {count : State → Nat} {cycles : Nat}
  {step : Step State}

structure Uncounted (count : State → Nat) (cycles : Nat)
    (step : Step State) : Prop where
  count : count step.state = cycles
  overrun : step.outcome.isOverrun = false

/-- An effect that counts one cycle when it succeeds. -/
structure Counted (count : State → Nat) (cycles : Nat)
    (step : Step State) : Prop where
  ok : step.outcome = .ok → count step.state = cycles + 1
  other : step.outcome ≠ .ok → count step.state = cycles
  overrun : step.outcome.isOverrun = false

theorem Uncounted.counted {finish : State → State}
    (uncounted : step.Uncounted count cycles)
    (counts : ∀ state, count (finish state) = count state + 1)
    (diagnostic : Diagnostic) :
    ((step.andThen fun reached => .ok (finish reached)).report
      diagnostic).Counted count cycles := by
  obtain ⟨kept, overrun⟩ := uncounted
  simp only [andThen, report]
  split
  · refine ⟨?_, absurd rfl, rfl⟩
    intro _
    exact (counts step.state).trans (congrArg (· + 1) kept)
  · rename_i fails
    exact ⟨fun succeeds => absurd succeeds fails, fun _ => kept, overrun⟩

theorem Counted.map {Other : Type} {otherCount : Other → Nat}
    {change : State → Other} (counted : step.Counted count cycles)
    (same : ∀ state, otherCount (change state) = count state) :
    (step.map change).Counted otherCount cycles :=
  ⟨fun succeeds => (same step.state).trans (counted.ok succeeds),
    fun fails => (same step.state).trans (counted.other fails),
    counted.overrun⟩

end Step

namespace Grid

variable {machine : Machine} {cycles : Nat}

namespace Machine

theorem load_uncounted (machine : Machine) {position : Position}
    {use : Int → Step Machine}
    (uses : ∀ value, (use value).Uncounted Machine.cycles machine.cycles) :
    (machine.load position use).Uncounted Machine.cycles machine.cycles := by
  unfold load Playfield.read
  cases machine.field.cell? position with
  | some value => exact uses value
  | none =>
      cases machine.field.edge with
      | strict => exact ⟨rfl, rfl⟩
      | silent filler => exact uses filler

theorem store_uncounted (machine : Machine) (position : Position)
    (value : Int) :
    (machine.store position value).Uncounted Machine.cycles
      machine.cycles := by
  unfold store Playfield.write
  cases machine.field.cell? position with
  | some present => exact ⟨rfl, rfl⟩
  | none =>
      cases machine.field.edge with
      | strict => exact ⟨rfl, rfl⟩
      | silent filler => exact ⟨rfl, rfl⟩

end Machine

namespace Befunge

theorem Operator.isOverrun_of_error {operator : Operator} {left right : Int}
    {cause : Fault} (fails : operator.apply left right = .error cause) :
    (Outcome.fault cause).isOverrun = false := by
  cases operator with
  | divide =>
      simp only [apply, quotient] at fails
      split at fails
      · cases fails
        rfl
      · contradiction
  | modulo =>
      simp only [apply, remainder] at fails
      split at fails
      · cases fails
        rfl
      · contradiction
  | add | subtract | multiply | greater => contradiction

theorem Instruction.execute_uncounted (instruction : Instruction)
    (machine : Machine) :
    (instruction.execute machine).Uncounted Machine.cycles
      machine.cycles := by
  cases instruction with
  | wander =>
      simp only [execute]
      split
      · exact ⟨rfl, rfl⟩
      · exact ⟨rfl, rfl⟩
  | readText =>
      simp only [execute, executeText]
      split
      · exact ⟨rfl, rfl⟩
      · exact ⟨rfl, rfl⟩
  | compute operator =>
      simp only [execute]
      split
      · exact ⟨rfl, rfl⟩
      · rename_i fails
        exact ⟨rfl, Operator.isOverrun_of_error fails⟩
  | put =>
      simp only [execute, Machine.need]
      split
      · exact ⟨rfl, rfl⟩
      · exact (machine.consume 3).store_uncounted _ _
  | get =>
      simp only [execute, Machine.need]
      split
      · exact ⟨rfl, rfl⟩
      · rw [Step.andThen_ok]
        apply (machine.consume 2).load_uncounted
        intro value
        exact ⟨rfl, rfl⟩
  | showNumber =>
      simp only [execute, Machine.printNumber]
      split
      · exact ⟨rfl, rfl⟩
      · exact ⟨rfl, rfl⟩
  | _ => exact ⟨rfl, rfl⟩

end Befunge

namespace Argh.Instruction

theorem executeJump_uncounted (direction : Direction) (machine : Machine) :
    (executeJump direction machine).Uncounted Machine.cycles
      machine.cycles := by
  unfold executeJump
  cases machine.stack with
  | nil => exact ⟨rfl, rfl⟩
  | cons target rest =>
      simp only
      split
      · exact ⟨rfl, rfl⟩
      · exact ⟨rfl, rfl⟩

theorem execute_uncounted (instruction : Instruction) (machine : Machine) :
    (instruction.execute machine).Uncounted Machine.cycles
      machine.cycles := by
  cases instruction with
  | jump direction => exact executeJump_uncounted direction machine
  | turnRight | turnLeft =>
      simp only [execute]
      split
      · exact ⟨rfl, rfl⟩
      · exact ⟨rfl, rfl⟩
  | duplicate =>
      simp only [execute]
      cases machine.stack with
      | nil => exact ⟨rfl, rfl⟩
      | cons top rest => exact ⟨rfl, rfl⟩
  | copy side | print side =>
      apply Machine.load_uncounted
      intro value
      exact ⟨rfl, rfl⟩
  | add side | subtract side =>
      simp only [execute]
      cases machine.stack with
      | nil => exact ⟨rfl, rfl⟩
      | cons top rest =>
          apply Machine.load_uncounted
          intro value
          exact ⟨rfl, rfl⟩
  | fetch side =>
      simp only [execute]
      cases machine.stack with
      | nil => exact ⟨rfl, rfl⟩
      | cons top rest =>
          exact Machine.store_uncounted { machine with stack := rest } _ top
  | ask side => exact machine.consumeInput.store_uncounted _ _
  | clear side => exact machine.store_uncounted _ 0
  | comment =>
      simp only [execute]
      split
      · apply Machine.load_uncounted
        intro value
        split
        · exact ⟨rfl, rfl⟩
        · exact ⟨rfl, rfl⟩
      · exact ⟨rfl, rfl⟩
  | head _ | halt | discard => exact ⟨rfl, rfl⟩

end Argh.Instruction

theorem Dialect.execute_uncounted (dialect : Dialect) (cell : Int)
    (machine : Machine) :
    (dialect.execute cell machine).Uncounted Machine.cycles
      machine.cycles := by
  cases dialect with
  | befunge =>
      simp only [execute]
      split
      · exact Befunge.Instruction.execute_uncounted _ machine
      · exact ⟨rfl, rfl⟩
  | argh =>
      simp only [execute]
      split
      · exact Argh.Instruction.execute_uncounted _ machine
      · exact ⟨rfl, rfl⟩

theorem Machine.cycle_counted (dialect : Dialect) (machine : Machine) :
    (machine.cycle dialect).Counted Machine.cycles machine.cycles := by
  unfold cycle
  split
  · exact ⟨nofun, fun _ => rfl, rfl⟩
  · rename_i cell _
    apply (dialect.execute_uncounted cell machine).counted
    exact fun _ => rfl

end Grid

namespace Brainfuck.Machine

theorem execute_uncounted (command : Command) (machine : Machine) :
    (machine.execute command).Uncounted Machine.cycles machine.cycles := by
  cases command with
  | opening =>
      simp only [execute, enterLoop]
      split
      · split
        · exact ⟨rfl, rfl⟩
        · exact ⟨rfl, rfl⟩
      · exact ⟨rfl, rfl⟩
  | closing =>
      simp only [execute, repeatLoop]
      split
      · exact ⟨rfl, rfl⟩
      · split
        · exact ⟨rfl, rfl⟩
        · exact ⟨rfl, rfl⟩
  | _ => exact ⟨rfl, rfl⟩

theorem cycle_counted (machine : Machine) :
    machine.cycle.Counted Machine.cycles machine.cycles := by
  unfold cycle
  split
  · exact ⟨nofun, fun _ => rfl, rfl⟩
  · rename_i c _
    extract_lets diagnostic step
    have uncounted : step.Uncounted Machine.cycles machine.cycles := by
      unfold step
      cases Command.ofChar? c with
      | none => exact ⟨rfl, rfl⟩
      | some command => exact machine.execute_uncounted command
    apply uncounted.counted
    exact fun _ => rfl

end Brainfuck.Machine

theorem Machine.cycle_counted (machine : Machine) :
    machine.cycle.Counted Machine.cycles machine.cycles := by
  cases machine with
  | grid dialect state =>
      exact (state.cycle_counted dialect).map fun _ => rfl
  | tape state => exact state.cycle_counted.map fun _ => rfl

end Esoteric
