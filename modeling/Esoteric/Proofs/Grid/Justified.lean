import Esoteric.Proofs.Grid.Cycle
import Esoteric.Proofs.Playfield.Access

namespace Esoteric.Grid.Machine

variable {quits strays : Prop} {fails : Fault → Machine → Prop}
  {machine left : Machine} {position : Position} {cell : Int} {cause : Fault}

theorem load_of_refuses (refuses : machine.field.Refuses position)
    (use : Int → Step Machine) :
    machine.load position use = .fault (.readOutside position) machine := by
  simp only [load, Playfield.read_of_strict refuses.strict refuses.outside]

theorem store_of_refuses (refuses : machine.field.Refuses position)
    (value : Int) :
    machine.store position value =
      .fault (.writeOutside position) machine := by
  simp only [store, Playfield.write_of_strict refuses.strict refuses.outside]

theorem printNumber_justified (machine : Machine) {value : Int}
    (unshown : ¬ Numeral.Short value → fails (.longNumber value) machine) :
    (machine.printNumber value).Justified quits strays fails := by
  by_cases short : Numeral.Short value
  · rw [printNumber_of_short short]
    exact .of_ok rfl
  · rw [printNumber_of_long short]
    exact .of_fault (unshown short)

theorem load_justified (machine : Machine) {use : Int → Step Machine}
    (refused : machine.field.Refuses position →
      fails (.readOutside position) machine)
    (uses : ∀ value, (use value).Justified quits strays fails) :
    (machine.load position use).Justified quits strays fails := by
  cases stored : machine.field.cell? position with
  | some value =>
      simp only [load, Playfield.read_of_some stored]
      exact uses value
  | none =>
      cases edge : machine.field.edge with
      | strict =>
          rw [load_of_refuses ⟨edge, stored⟩]
          exact .of_fault (refused ⟨edge, stored⟩)
      | silent filler =>
          simp only [load, Playfield.read, stored, edge]
          exact uses filler

theorem store_justified (machine : Machine) {value : Int}
    (refused : machine.field.Refuses position →
      fails (.writeOutside position) machine) :
    (machine.store position value).Justified quits strays fails := by
  cases stored : machine.field.cell? position with
  | some present =>
      apply Step.Justified.of_ok
      simp only [store, Playfield.write_of_some stored]
      rfl
  | none =>
      cases edge : machine.field.edge with
      | strict =>
          rw [store_of_refuses ⟨edge, stored⟩]
          exact .of_fault (refused ⟨edge, stored⟩)
      | silent filler =>
          apply Step.Justified.of_ok
          simp only [store, Playfield.write, stored, edge]
          rfl

theorem cycle_justified (dialect : Dialect)
    (outside : machine.field.cell? machine.pointer = none →
      fails (.pointerOutside machine.pointer) machine)
    (executes : ∀ cell, machine.field.cell? machine.pointer = some cell →
      (dialect.execute cell machine).Justified quits strays fails) :
    (machine.cycle dialect).Justified quits strays fails := by
  rw [cycle]
  cases stored : machine.field.cell? machine.pointer with
  | none => exact .of_fault (outside stored)
  | some cell => exact ((executes cell stored).andThen_ok finish).report _

theorem cycle_of_outside (dialect : Dialect)
    (outside : machine.field.cell? machine.pointer = none) :
    (machine.cycle dialect).outcome =
        .fault (.pointerOutside machine.pointer) ∧
      (machine.cycle dialect).state = machine := by
  rw [cycle, outside]
  exact ⟨rfl, rfl⟩

theorem cycle_of_failure (dialect : Dialect)
    (stored : machine.field.cell? machine.pointer = some cell)
    (executed : dialect.execute cell machine = .fault cause left) :
    (machine.cycle dialect).outcome = .fault cause ∧
      (machine.cycle dialect).state = left := by
  rw [cycle, stored]
  simp only [executed, Step.andThen_fault]
  exact ⟨rfl, rfl⟩

end Esoteric.Grid.Machine
