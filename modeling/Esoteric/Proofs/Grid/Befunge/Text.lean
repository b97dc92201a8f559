import Mathlib.Data.List.Basic
import Esoteric.Proofs.Grid.Befunge.Failure
import Esoteric.Proofs.Playfield.Stop

/-! A text between quotes is read in a single cycle, up to the next quote. -/

namespace Esoteric.Grid.Befunge

variable {machine : Machine}

namespace Instruction

def textAhead (machine : Machine) : List Int :=
  (machine.field.ray (machine.pointer.advance machine.heading)
    machine.heading).takeWhile (· ≠ quote)

theorem executeText_of_quote
    (closed : machine.field.cell? (machine.pointer.moved machine.heading
      ((textAhead machine).length + 1)) = some quote) :
    executeText machine = .ok
      { machine with
        pointer := machine.pointer.moved machine.heading
          ((textAhead machine).length + 1)
        stack := (textAhead machine).reverse ++ machine.stack } := by
  rw [Position.moved_succ, textAhead, Playfield.cell?_search] at closed
  have quoted := (Option.ite_none_right_eq_some.1 closed).1
  rw [executeText, if_pos (Playfield.length_takeWhile_lt quoted),
    Position.moved_succ]
  rfl

end Instruction

end Esoteric.Grid.Befunge
