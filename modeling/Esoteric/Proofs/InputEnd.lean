import Esoteric.Machine
import Esoteric.Proofs.Brainfuck.Cycle
import Esoteric.Proofs.Grid.Stack

/-! The end of the input is read as zeros without end. -/

namespace Esoteric

open Run

namespace Input

def withZeros (zeros : Nat) (input : Input) : Input :=
  ⟨input.pending ++ List.replicate zeros '\x00'⟩

theorem next_withZeros (input : Input) (zeros : Nat) :
    (input.withZeros zeros).next = input.next := by
  obtain ⟨pending⟩ := input
  cases pending with
  | cons unit units => rfl
  | nil =>
      cases zeros with
      | zero => rfl
      | succ zeros => rfl

theorem rest_withZeros (input : Input) (zeros : Nat) :
    ∃ left ≤ zeros,
      (input.withZeros zeros).rest = input.rest.withZeros left := by
  obtain ⟨pending⟩ := input
  cases pending with
  | cons unit units => exact ⟨zeros, Nat.le_refl zeros, rfl⟩
  | nil =>
      cases zeros with
      | zero => exact ⟨0, Nat.le_refl 0, rfl⟩
      | succ zeros => exact ⟨zeros, Nat.le_succ zeros, rfl⟩

end Input

namespace Grid

variable {machine counterpart : Machine} {position : Position}

namespace Machine

def later (zeros : Nat) (machine : Machine) : Machine :=
  { machine with input := machine.input.withZeros zeros }

/-- Machines that are the same, but that at most so many zeros are still to be
read after the input of the first. -/
def EndsLater (limit : Nat) (machine counterpart : Machine) : Prop :=
  ∃ left ≤ limit, counterpart = machine.later left

theorem endsLater_later (machine : Machine) (zeros : Nat) :
    EndsLater zeros machine (machine.later zeros) :=
  ⟨zeros, Nat.le_refl zeros, rfl⟩

theorem EndsLater.finish {limit : Nat}
    (later : EndsLater limit machine counterpart) :
    EndsLater limit machine.finish counterpart.finish := by
  obtain ⟨left, bound, rfl⟩ := later
  exact ⟨left, bound, rfl⟩

theorem next_later (machine : Machine) (zeros : Nat) :
    (machine.later zeros).input.next = machine.input.next :=
  machine.input.next_withZeros zeros

theorem consumeInput_later (machine : Machine) (zeros : Nat) :
    EndsLater zeros machine.consumeInput
      (machine.later zeros).consumeInput := by
  obtain ⟨left, bound, same⟩ := machine.input.rest_withZeros zeros
  refine ⟨left, bound, ?_⟩
  simp only [consumeInput, later, same]

theorem load_later {limit : Nat} {use other : Int → Step Machine}
    (later : EndsLater limit machine counterpart)
    (uses : ∀ value, (use value).Related (EndsLater limit) (other value)) :
    (machine.load position use).Related (EndsLater limit)
      (counterpart.load position other) := by
  have same := later
  obtain ⟨left, _, rfl⟩ := later
  exact load_related rfl same uses

theorem store_later {limit : Nat} (value : Int)
    (later : EndsLater limit machine counterpart) :
    (machine.store position value).Related (EndsLater limit)
      (counterpart.store position value) := by
  obtain ⟨left, bound, rfl⟩ := later
  have sameField : (machine.later left).field = machine.field := rfl
  simp only [store, sameField]
  cases machine.field.write position value with
  | inside field => exact .ok ⟨left, bound, rfl⟩
  | dropped =>
      apply Step.Related.report
      exact .ok ⟨left, bound, rfl⟩
  | refused cause => exact .fault cause ⟨left, bound, rfl⟩

end Machine

open Grid.Machine

namespace Befunge.Instruction

theorem execute_later (instruction : Instruction) (machine : Machine)
    (zeros : Nat) :
    (instruction.execute machine).Related (EndsLater zeros)
      (instruction.execute (machine.later zeros)) := by
  cases instruction with
  | wander =>
      have sameChance : (machine.later zeros).chance = machine.chance := rfl
      simp only [execute, sameChance]
      cases machine.chance.next with
      | none => exact .astray (endsLater_later _ zeros)
      | some direction => exact .ok (endsLater_later _ zeros)
  | readText =>
      have sameHeading : (machine.later zeros).heading = machine.heading := rfl
      have samePointer : (machine.later zeros).pointer = machine.pointer := rfl
      have sameField : (machine.later zeros).field = machine.field := rfl
      simp only [execute, executeText, sameHeading, samePointer, sameField]
      split
      · exact .ok (endsLater_later _ zeros)
      · exact .fault _ (endsLater_later _ zeros)
  | halt => exact .quit (endsLater_later _ zeros)
  | compute operator =>
      have sameOperand (depth : Nat) :
          (machine.later zeros).operand depth = machine.operand depth := rfl
      simp only [execute, sameOperand]
      cases operator.apply (machine.operand 1) (machine.operand 0) with
      | ok result => exact .ok (endsLater_later _ zeros)
      | error cause => exact .fault cause (endsLater_later _ zeros)
  | put =>
      by_cases enough : 3 ≤ machine.stack.length
      · have otherEnough : 3 ≤ (machine.later zeros).stack.length := enough
        rw [execute_put enough, execute_put otherEnough]
        exact store_later _ (endsLater_later (machine.consume 3) zeros)
      · have short : machine.stack.length < 3 := Nat.lt_of_not_le enough
        have otherShort : (machine.later zeros).stack.length < 3 := short
        rw [execute_put_of_short short, execute_put_of_short otherShort]
        exact .fault _ (endsLater_later _ zeros)
  | get =>
      by_cases enough : 2 ≤ machine.stack.length
      · have otherEnough : 2 ≤ (machine.later zeros).stack.length := enough
        rw [execute_get enough, execute_get otherEnough]
        apply load_later (endsLater_later (machine.consume 2) zeros)
        intro value
        exact .ok (endsLater_later _ zeros)
      · have short : machine.stack.length < 2 := Nat.lt_of_not_le enough
        have otherShort : (machine.later zeros).stack.length < 2 := short
        rw [execute_get_of_short short, execute_get_of_short otherShort]
        exact .fault _ (endsLater_later _ zeros)
  | askNumber =>
      rw [execute, execute, next_later]
      exact .ok (consumeInput_later
        ((machine.emit prompt).push machine.input.next) zeros)
  | askCharacter =>
      rw [execute, execute, next_later]
      exact .ok (consumeInput_later (machine.push machine.input.next) zeros)
  | showNumber =>
      apply printNumber_related (endsLater_later (machine.consume 1) zeros)
      intro text
      exact endsLater_later ((machine.consume 1).emit text) zeros
  | _ => exact .ok (endsLater_later _ zeros)

end Befunge.Instruction

namespace Argh.Instruction

theorem execute_later (instruction : Instruction) (machine : Machine)
    (zeros : Nat) :
    (instruction.execute machine).Related (EndsLater zeros)
      (instruction.execute (machine.later zeros)) := by
  have same : EndsLater zeros machine (machine.later zeros) :=
    endsLater_later machine zeros
  have sameStack : (machine.later zeros).stack = machine.stack := rfl
  have samePointer : (machine.later zeros).pointer = machine.pointer := rfl
  have sameOperand :
      (machine.later zeros).operand 0 = machine.operand 0 := rfl
  cases instruction with
  | jump direction =>
      have sameField : (machine.later zeros).field = machine.field := rfl
      simp only [execute, executeJump, sameStack, samePointer, sameField]
      cases machine.stack with
      | nil => exact .ok (endsLater_later _ zeros)
      | cons target rest =>
          dsimp only
          split
          · exact .ok (endsLater_later _ zeros)
          · exact .fault _ (endsLater_later _ zeros)
  | turnRight | turnLeft =>
      simp only [execute, sameOperand]
      split
      · exact .ok (endsLater_later _ zeros)
      · exact .ok same
  | halt => exact .quit same
  | duplicate =>
      simp only [execute, sameStack]
      cases machine.stack with
      | nil => exact .ok same
      | cons top rest => exact .ok (endsLater_later _ zeros)
  | copy side | print side =>
      apply load_later same
      intro value
      exact .ok (endsLater_later _ zeros)
  | add side | subtract side =>
      simp only [execute, sameStack]
      cases machine.stack with
      | nil => exact .ok same
      | cons top rest =>
          apply load_later same
          intro value
          exact .ok (endsLater_later _ zeros)
  | fetch side =>
      simp only [execute, sameStack]
      cases machine.stack with
      | nil => exact .ok same
      | cons top rest => exact store_later top (endsLater_later _ zeros)
  | ask side =>
      rw [execute, execute, next_later]
      exact store_later _ (consumeInput_later machine zeros)
  | clear side => exact store_later 0 same
  | comment =>
      simp only [execute, samePointer]
      split
      · apply load_later same
        intro value
        split
        · exact .ok (endsLater_later _ zeros)
        · exact .ok same
      · exact .ok same
  | head _ | discard => exact .ok (endsLater_later _ zeros)

end Argh.Instruction

namespace Machine

theorem cycle_later (dialect : Dialect) {limit : Nat}
    (later : EndsLater limit machine counterpart) :
    (machine.cycle dialect).Related (EndsLater limit)
      (counterpart.cycle dialect) := by
  have finishes : ∀ first second, EndsLater limit first second →
      EndsLater limit first.finish second.finish := fun _ _ => EndsLater.finish
  have same := later
  obtain ⟨left, bound, rfl⟩ := later
  have fewer : ∀ state counterpart, EndsLater left state counterpart →
      EndsLater limit state counterpart := by
    rintro state counterpart ⟨fewer, within, rfl⟩
    exact ⟨fewer, Nat.le_trans within bound, rfl⟩
  apply cycle_related dialect same rfl rfl finishes
  intro cell stored
  cases dialect with
  | befunge =>
      apply Dialect.befunge_related same
      intro instruction _
      exact (instruction.execute_later machine left).mono fewer
  | argh =>
      apply Dialect.argh_related same
      intro instruction _
      exact (instruction.execute_later machine left).mono fewer

end Machine

end Grid

namespace Brainfuck.Machine

variable {machine counterpart : Machine}

def later (zeros : Nat) (machine : Machine) : Machine :=
  { machine with input := machine.input.withZeros zeros }

def EndsLater (limit : Nat) (machine counterpart : Machine) : Prop :=
  ∃ left ≤ limit, counterpart = machine.later left

theorem endsLater_later (machine : Machine) (zeros : Nat) :
    EndsLater zeros machine (machine.later zeros) :=
  ⟨zeros, Nat.le_refl zeros, rfl⟩

theorem execute_later (command : Command) (machine : Machine) (zeros : Nat) :
    (machine.execute command).Related (EndsLater zeros)
      ((machine.later zeros).execute command) := by
  have sameCell : (machine.later zeros).cell = machine.cell := rfl
  have sameProgram : (machine.later zeros).program = machine.program := rfl
  have samePointer : (machine.later zeros).pointer = machine.pointer := rfl
  cases command with
  | input =>
      have sameNext : (machine.later zeros).input.next = machine.input.next :=
        machine.input.next_withZeros zeros
      obtain ⟨left, bound, same⟩ := machine.input.rest_withZeros zeros
      rw [execute, execute, sameNext]
      refine .ok ⟨left, bound, ?_⟩
      exact congrArg (fun input : Input =>
        { (machine.setCell machine.input.next).next with input }) same
  | opening =>
      simp only [execute, enterLoop, sameCell, sameProgram, samePointer]
      split
      · split
        · exact .ok (endsLater_later _ zeros)
        · exact .fault _ (endsLater_later _ zeros)
      · exact .ok (endsLater_later _ zeros)
  | closing =>
      simp only [execute, repeatLoop, sameCell, sameProgram, samePointer]
      split
      · exact .ok (endsLater_later _ zeros)
      · split
        · exact .ok (endsLater_later _ zeros)
        · exact .fault _ (endsLater_later _ zeros)
  | _ => exact .ok (endsLater_later _ zeros)

theorem cycle_later {limit : Nat}
    (later : EndsLater limit machine counterpart) :
    machine.cycle.Related (EndsLater limit) counterpart.cycle := by
  obtain ⟨left, bound, rfl⟩ := later
  have same : EndsLater limit machine (machine.later left) :=
    ⟨left, bound, rfl⟩
  rw [cycle_eq_cycleBy, cycle_eq_cycleBy]
  apply cycleBy_related same rfl rfl
  · intro command
    apply (machine.execute_later command left).mono
    rintro state _ ⟨fewer, within, rfl⟩
    exact ⟨fewer, Nat.le_trans within bound, rfl⟩
  · exact ⟨left, bound, rfl⟩
  · rintro state _ ⟨fewer, within, rfl⟩
    exact ⟨fewer, within, rfl⟩

end Brainfuck.Machine

namespace Machine

def EndsLater (limit : Nat) (machine counterpart : Machine) : Prop :=
  ∃ left ≤ limit,
    counterpart = machine.withInput (machine.input.withZeros left)

theorem cycle_later {limit : Nat} {machine counterpart : Machine}
    (later : EndsLater limit machine counterpart) :
    machine.cycle.Related (EndsLater limit) counterpart.cycle := by
  obtain ⟨left, bound, rfl⟩ := later
  cases machine with
  | grid dialect state =>
      have later : state.EndsLater limit (state.later left) :=
        ⟨left, bound, rfl⟩
      apply (Grid.Machine.cycle_later dialect later).map_map
      rintro reached _ ⟨fewer, within, rfl⟩
      exact ⟨fewer, within, rfl⟩
  | tape state =>
      have later : state.EndsLater limit (state.later left) :=
        ⟨left, bound, rfl⟩
      apply (Brainfuck.Machine.cycle_later later).map_map
      rintro reached _ ⟨fewer, within, rfl⟩
      exact ⟨fewer, within, rfl⟩

/-- No machine tells zeros behind its input from the end of the input. -/
theorem withZeros_run (machine : Machine) (zeros turn : Nat) :
    let longer := machine.withInput (machine.input.withZeros zeros)
    outcome cycle turn longer = outcome cycle turn machine ∧
      ∃ left ≤ zeros, after cycle (turn + 1) longer =
        (after cycle (turn + 1) machine).withInput
          ((after cycle (turn + 1) machine).input.withZeros left) := by
  intro longer
  have step : ∀ state counterpart, EndsLater zeros state counterpart →
      True → state.cycle.Related (EndsLater zeros) counterpart.cycle :=
    fun _ _ later _ => cycle_later later
  have start : EndsLater zeros machine longer :=
    ⟨zeros, Nat.le_refl zeros, rfl⟩
  exact lockstep step start (fun _ _ => trivial) turn (Nat.lt_succ_self turn)

end Machine

end Esoteric
