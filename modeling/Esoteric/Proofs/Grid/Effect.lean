import Esoteric.Proofs.Grid.Failure

/-! What an instruction does to the playfield and to the place of a machine. -/

namespace Esoteric.Grid

variable {machine reached : Machine} {position : Position}
  {cell : Int} {dialect : Dialect}

/-- Most instructions leave the playfield and the pointer alone. The others store
one value, jump over a cell, or search for one, which they find on the playfield or
nowhere. -/
inductive Effect (dialect : Dialect) (machine : Machine) : Step Machine → Prop
  | still {step : Step Machine} (silent : step.diagnostics = [])
      (field : step.state.field = machine.field)
      (pointer : step.state.pointer = machine.pointer) :
      Effect dialect machine step
  | store {reached : Machine} (position : Position) (value : Int)
      (field : reached.field = machine.field)
      (pointer : reached.pointer = machine.pointer) :
      Effect dialect machine (reached.store position value)
  | bridge (jumps : dialect = .befunge) :
      Effect dialect machine (.ok machine.advance)
  | found {reached : Machine} (field : reached.field = machine.field)
      (inside : machine.field.contains reached.pointer = true) :
      Effect dialect machine (.ok reached)
  | missed {reached : Machine} {cause : Fault} {direction : Direction}
      {value : Int} {passed : List Int}
      (field : reached.field = machine.field)
      (crosses : machine.field.Crosses direction machine.pointer
        (value :: passed) reached.pointer) :
      Effect dialect machine (.fault cause reached)

theorem Machine.load_effect (sameField : reached.field = machine.field)
    (samePointer : reached.pointer = machine.pointer)
    {use : Int → Step Machine}
    (uses : ∀ value, Effect dialect machine (use value)) :
    Effect dialect machine (reached.load position use) := by
  rw [load]
  cases reached.field.read position with
  | ok value => exact uses value
  | error cause => exact .still rfl sameField samePointer

namespace Befunge.Instruction

theorem executeText_effect
    (stored : machine.field.cell? machine.pointer = some cell) :
    Effect .befunge machine (executeText machine) := by
  by_cases quoted : quote ∈ machine.field.ray
      (machine.pointer.advance machine.heading) machine.heading
  · have found := Playfield.length_takeWhile_lt quoted
    rw [executeText, if_pos found]
    exact .found rfl (Playfield.contains_of_search found)
  · have crosses := machine.field.crosses_ray machine.heading
      (machine.pointer.advance machine.heading)
    rw [executeText_of_crosses crosses quoted]
    exact .missed rfl (.cons stored crosses)

theorem execute_effect (instruction : Instruction)
    (stored : machine.field.cell? machine.pointer = some cell) :
    Effect .befunge machine (instruction.execute machine) := by
  cases instruction with
  | wander =>
      rw [execute]
      split
      · exact .still rfl rfl rfl
      · exact .still rfl rfl rfl
  | readText => exact executeText_effect stored
  | bridge => exact .bridge rfl
  | compute operator =>
      rw [execute]
      split
      · exact .still rfl rfl rfl
      · exact .still rfl rfl rfl
  | put =>
      by_cases short : machine.stack.length < 3
      · rw [execute_put_of_short short]
        exact .still rfl rfl rfl
      · rw [execute_put (Nat.not_lt.1 short)]
        exact .store _ _ rfl rfl
  | get =>
      by_cases short : machine.stack.length < 2
      · rw [execute_get_of_short short]
        exact .still rfl rfl rfl
      · rw [execute_get (Nat.not_lt.1 short)]
        refine Machine.load_effect ?_ ?_ fun value => .still rfl rfl rfl
        · rfl
        · rfl
  | showNumber =>
      rw [execute, Machine.printNumber]
      split
      · exact .still rfl rfl rfl
      · exact .still rfl rfl rfl
  | _ => exact .still rfl rfl rfl

end Befunge.Instruction

namespace Argh.Instruction

theorem executeJump_effect (direction : Direction)
    (stored : machine.field.cell? machine.pointer = some cell) :
    Effect .argh machine (executeJump direction machine) := by
  cases operand : machine.stack with
  | nil =>
      simp only [executeJump, operand]
      exact .still rfl rfl rfl
  | cons target rest =>
      by_cases met : target ∈ machine.field.ray machine.pointer direction
      · have found := Playfield.length_takeWhile_lt met
        simp only [executeJump, operand, if_pos found]
        exact .found rfl (Playfield.contains_of_search found)
      · rw [Playfield.ray_of_some direction stored] at met
        have crosses := Playfield.Crosses.cons stored
          (machine.field.crosses_ray direction _)
        rw [executeJump_of_crosses operand crosses met]
        exact .missed rfl crosses

theorem execute_effect (instruction : Instruction)
    (stored : machine.field.cell? machine.pointer = some cell) :
    Effect .argh machine (instruction.execute machine) := by
  cases instruction with
  | jump direction => exact executeJump_effect direction stored
  | turnRight | turnLeft | duplicate =>
      rw [execute]
      split
      · exact .still rfl rfl rfl
      · exact .still rfl rfl rfl
  | copy side | print side =>
      exact Machine.load_effect rfl rfl fun value => .still rfl rfl rfl
  | add side | subtract side =>
      rw [execute]
      split
      · exact .still rfl rfl rfl
      · exact Machine.load_effect rfl rfl fun value => .still rfl rfl rfl
  | fetch side =>
      rw [execute]
      split
      · exact .still rfl rfl rfl
      · exact .store _ _ rfl rfl
  | ask side | clear side => exact .store _ _ rfl rfl
  | comment =>
      rw [execute]
      split
      · apply Machine.load_effect rfl rfl
        intro value
        split
        · exact .still rfl rfl rfl
        · exact .still rfl rfl rfl
      · exact .still rfl rfl rfl
  | head _ | halt | discard => exact .still rfl rfl rfl

end Argh.Instruction

theorem Dialect.execute_effect (dialect : Dialect)
    (stored : machine.field.cell? machine.pointer = some cell) :
    Effect dialect machine (dialect.execute cell machine) := by
  cases dialect with
  | befunge =>
      rw [execute]
      split
      · exact Befunge.Instruction.execute_effect _ stored
      · exact .still rfl rfl rfl
  | argh =>
      rw [execute]
      split
      · exact Argh.Instruction.execute_effect _ stored
      · exact .still rfl rfl rfl

end Esoteric.Grid
