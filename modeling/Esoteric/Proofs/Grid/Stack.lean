import Esoteric.Proofs.Grid.Cycle

namespace Esoteric.Grid

variable {machine : Machine}

namespace Machine

def onto (below : List Int) (machine : Machine) : Machine :=
  { machine with stack := machine.stack ++ below }

theorem finish_onto (below : List Int) (machine : Machine) :
    (machine.onto below).finish = machine.finish.onto below := rfl

theorem store_onto (below : List Int) (machine : Machine) (position : Position)
    (value : Int) :
    (machine.onto below).store position value =
      (machine.store position value).map (onto below) := by
  simp only [store, onto]
  split <;> rfl

theorem operand_onto (below : List Int) {depth : Nat}
    (within : depth < machine.stack.length) :
    (machine.onto below).operand depth = machine.operand depth := by
  simp only [operand, onto, List.getD_eq_getElem?_getD]
  rw [List.getElem?_append_left within]

end Machine

namespace Befunge.Instruction

theorem executeText_onto (below : List Int) (machine : Machine) :
    executeText (machine.onto below) =
      (executeText machine).map (Machine.onto below) := by
  simp only [executeText, Machine.onto, ← List.append_assoc]
  split <;> rfl

theorem execute_put (enough : 3 ≤ machine.stack.length) :
    put.execute machine =
      (machine.consume 3).store ⟨machine.operand 1, machine.operand 0⟩
        (machine.operand 2) := by
  rw [execute, Machine.need, if_neg (by omega)]
  rfl

theorem execute_put_of_short (short : machine.stack.length < 3) :
    put.execute machine = .fault (.shortage "p") machine := by
  rw [execute, Machine.need, if_pos (by omega)]
  rfl

theorem execute_get (enough : 2 ≤ machine.stack.length) :
    get.execute machine =
      (machine.consume 2).load ⟨machine.operand 1, machine.operand 0⟩
        fun value => .ok ((machine.consume 2).push value) := by
  rw [execute, Machine.need, if_neg (by omega)]
  rfl

theorem execute_get_of_short (short : machine.stack.length < 2) :
    get.execute machine = .fault (.shortage "g") machine := by
  rw [execute, Machine.need, if_pos (by omega)]
  rfl

end Befunge.Instruction

end Esoteric.Grid
