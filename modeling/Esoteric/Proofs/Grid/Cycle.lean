import Esoteric.Grid.Cycle
import Esoteric.Proofs.Run

namespace Esoteric.Grid

variable {relation : Machine → Machine → Prop} {first second machine : Machine}
  {cell : Int}

namespace Dialect

theorem befunge_related (related : relation first second)
    (executes : ∀ instruction, Befunge.Instruction.decode cell = some instruction →
      (instruction.execute first).Related relation (instruction.execute second)) :
    (befunge.execute cell first).Related relation
      (befunge.execute cell second) := by
  simp only [execute]
  cases decoded : Befunge.Instruction.decode cell with
  | none => exact .ok related
  | some instruction => exact executes instruction decoded

theorem argh_related (related : relation first second)
    (executes : ∀ instruction, Argh.Instruction.decode cell = some instruction →
      (instruction.execute first).Related relation (instruction.execute second)) :
    (argh.execute cell first).Related relation (argh.execute cell second) := by
  simp only [execute]
  cases decoded : Argh.Instruction.decode cell with
  | none => exact .ok related
  | some instruction => exact executes instruction decoded

end Dialect

namespace Machine

theorem load_related {position : Position} {use other : Int → Step Machine}
    (sameRead : second.field.read position = first.field.read position)
    (related : relation first second)
    (uses : ∀ value, (use value).Related relation (other value)) :
    (first.load position use).Related relation (second.load position other) := by
  simp only [load, sameRead]
  cases first.field.read position with
  | ok value => exact uses value
  | error cause => exact .fault cause related

theorem printNumber_related (related : relation first second)
    (emits : ∀ text, relation (first.emit text) (second.emit text))
    (value : Int) :
    (first.printNumber value).Related relation (second.printNumber value) := by
  simp only [printNumber]
  cases Numeral.show? value with
  | some text => exact .ok (emits (text ++ " "))
  | none => exact .fault _ related

theorem printNumber_of_short {value : Int} (short : Numeral.Short value)
    (machine : Machine) :
    machine.printNumber value = .ok (machine.emit (toString value ++ " ")) := by
  rw [printNumber, Numeral.show?_of_short short]

theorem printNumber_of_long {value : Int} (long : ¬ Numeral.Short value)
    (machine : Machine) :
    machine.printNumber value = .fault (.longNumber value) machine := by
  rw [printNumber, Numeral.show?_eq_none_iff.2 long]

theorem outcome_cycle (dialect : Dialect)
    (stored : machine.field.cell? machine.pointer = some cell) :
    (machine.cycle dialect).outcome = (dialect.execute cell machine).outcome := by
  simp only [cycle, stored, Step.report, Step.andThen]
  split
  · rename_i succeeds
    exact succeeds.symm
  · rfl

theorem state_cycle_of_ok (dialect : Dialect) {reached : Machine}
    (stored : machine.field.cell? machine.pointer = some cell)
    (succeeds : dialect.execute cell machine = .ok reached) :
    (machine.cycle dialect).state = reached.finish := by
  simp only [cycle, stored, succeeds, Step.andThen_ok]
  rfl

theorem cycle_of_ok (dialect : Dialect) {reached : Machine}
    (stored : machine.field.cell? machine.pointer = some cell)
    (succeeds : dialect.execute cell machine = .ok reached) :
    (machine.cycle dialect).outcome = .ok ∧
      (machine.cycle dialect).state = reached.finish := by
  refine ⟨?_, state_cycle_of_ok dialect stored succeeds⟩
  rw [outcome_cycle dialect stored, succeeds]
  rfl

theorem cycle_of_invariant {holds : Machine → Prop} (dialect : Dialect)
    (start : holds machine)
    (executes : ∀ cell, machine.field.cell? machine.pointer = some cell →
      holds (dialect.execute cell machine).state)
    (finishes : ∀ reached, holds reached → holds reached.finish) :
    holds (machine.cycle dialect).state := by
  cases stored : machine.field.cell? machine.pointer with
  | none =>
      simp only [cycle, stored]
      exact start
  | some cell =>
      simp only [cycle, stored, Step.report, Step.andThen]
      split
      · exact finishes _ (executes cell stored)
      · exact executes cell stored

theorem cycle_related (dialect : Dialect) (related : relation first second)
    (samePointer : second.pointer = first.pointer)
    (sameCell : second.field.cell? first.pointer =
      first.field.cell? first.pointer)
    (finishes : ∀ first second, relation first second →
      relation first.finish second.finish)
    (executes : ∀ cell, first.field.cell? first.pointer = some cell →
      (dialect.execute cell first).Related relation
        (dialect.execute cell second)) :
    (first.cycle dialect).Related relation (second.cycle dialect) := by
  simp only [cycle, samePointer, sameCell]
  cases stored : first.field.cell? first.pointer with
  | none => exact .fault _ related
  | some cell =>
      refine .report ((executes cell stored).andThen ?_) _ _
      intro first second related
      exact .ok (finishes first second related)

end Machine

end Esoteric.Grid
