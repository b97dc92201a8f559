import Esoteric.Proofs.Grid.Stack

/-! What lies below the values that a run takes from the stack is neither seen
nor disturbed. -/

namespace Esoteric.Grid

open Run

variable {machine : Machine} {top : Int} {rest : List Int}

namespace Machine

theorem stack_onto (below : List Int) (operand : machine.stack = top :: rest) :
    (machine.onto below).stack = top :: (rest ++ below) := by
  rw [onto, operand, List.cons_append]

theorem consume_onto (below : List Int) {count : Nat}
    (enough : count ≤ machine.stack.length) :
    (machine.onto below).consume count =
      (machine.consume count).onto below := by
  simp only [consume, onto, List.drop_append_of_le_length enough]

theorem printNumber_onto (below : List Int) (machine : Machine)
    (value : Int) :
    (machine.onto below).printNumber value =
      (machine.printNumber value).map (onto below) := by
  simp only [printNumber]
  cases Numeral.show? value with
  | some text => rfl
  | none => rfl

theorem load_onto (below : List Int) (machine : Machine)
    (position : Position) {use other : Int → Step Machine}
    (uses : ∀ value, other value = (use value).map (onto below)) :
    (machine.onto below).load position other =
      (machine.load position use).map (onto below) := by
  have sameField : (machine.onto below).field = machine.field := rfl
  simp only [load, sameField]
  cases machine.field.read position with
  | ok value => exact uses value
  | error cause => rfl

end Machine

open Grid.Machine

namespace Befunge.Instruction

/-- The number of values that an instruction takes from the stack. -/
def demand : Instruction → Nat
  | branchAcross | branchAlong | duplicate | discard | invert | showNumber
  | showCharacter => 1
  | swap | compute _ | get => 2
  | put => 3
  | head _ | wander | readText | bridge | halt | digit _ | askNumber
  | askCharacter => 0

theorem execute_onto (instruction : Instruction) (below : List Int)
    (enough : instruction.demand ≤ machine.stack.length) :
    instruction.execute (machine.onto below) =
      (instruction.execute machine).map (onto below) := by
  cases instruction with
  | branchAcross | branchAlong | duplicate | invert | showCharacter =>
      have top : 0 < machine.stack.length := enough
      rw [execute, execute, operand_onto below top, consume_onto below top]
      rfl
  | showNumber =>
      have top : 0 < machine.stack.length := enough
      rw [execute, execute, operand_onto below top, consume_onto below top]
      exact printNumber_onto below (machine.consume 1) _
  | discard =>
      have top : 1 ≤ machine.stack.length := enough
      rw [execute, execute, consume_onto below top]
      rfl
  | swap =>
      have second : 1 < machine.stack.length := enough
      have top : 0 < machine.stack.length := Nat.zero_lt_of_lt second
      rw [execute, execute, operand_onto below top, operand_onto below second,
        consume_onto below second]
      rfl
  | compute operator =>
      have second : 1 < machine.stack.length := enough
      have top : 0 < machine.stack.length := Nat.zero_lt_of_lt second
      simp only [execute, operand_onto below top, operand_onto below second,
        consume_onto below second]
      cases operator.apply (machine.operand 1) (machine.operand 0) with
      | ok result => rfl
      | error cause => rfl
  | put =>
      have third : 2 < machine.stack.length := enough
      have second : 1 < machine.stack.length := Nat.lt_of_succ_lt third
      have top : 0 < machine.stack.length := Nat.zero_lt_of_lt second
      have more : 3 ≤ (machine.onto below).stack.length := by
        rw [onto, List.length_append]
        exact Nat.le_add_right_of_le enough
      rw [execute_put enough, execute_put more, operand_onto below top,
        operand_onto below second, operand_onto below third,
        consume_onto below third]
      exact store_onto below (machine.consume 3) _ _
  | get =>
      have second : 1 < machine.stack.length := enough
      have top : 0 < machine.stack.length := Nat.zero_lt_of_lt second
      have more : 2 ≤ (machine.onto below).stack.length := by
        rw [onto, List.length_append]
        exact Nat.le_add_right_of_le enough
      rw [execute_get enough, execute_get more, operand_onto below top,
        operand_onto below second, consume_onto below second]
      apply load_onto below (machine.consume 2)
      intro value
      rfl
  | wander =>
      have sameChance : (machine.onto below).chance = machine.chance := rfl
      simp only [execute, sameChance]
      cases machine.chance.next with
      | none => rfl
      | some direction => rfl
  | readText => exact executeText_onto below machine
  | head _ | bridge | halt | digit _ | askNumber | askCharacter => rfl

end Befunge.Instruction

namespace Argh.Instruction

def demand : Instruction → Nat
  | jump _ | turnRight | turnLeft | duplicate | discard | add _ | subtract _
  | fetch _ => 1
  | head _ | halt | copy _ | print _ | ask _ | clear _ | comment => 0

theorem execute_onto (instruction : Instruction) (below : List Int)
    (enough : instruction.demand ≤ machine.stack.length) :
    instruction.execute (machine.onto below) =
      (instruction.execute machine).map (onto below) := by
  have samePointer : (machine.onto below).pointer = machine.pointer := rfl
  cases instruction with
  | jump direction =>
      obtain ⟨target, rest, operand⟩ := List.exists_cons_of_length_pos enough
      have sameField : (machine.onto below).field = machine.field := rfl
      simp only [execute, executeJump, stack_onto below operand, operand,
        samePointer, sameField]
      split
      · rw [onto, operand]
        rfl
      · rw [onto, operand]
        rfl
  | turnRight | turnLeft =>
      simp only [execute, operand_onto below enough]
      split
      · rfl
      · rfl
  | duplicate =>
      obtain ⟨top, rest, operand⟩ := List.exists_cons_of_length_pos enough
      simp only [execute, stack_onto below operand, operand]
      rfl
  | discard =>
      have top : 1 ≤ machine.stack.length := enough
      rw [execute, execute, consume_onto below top]
      rfl
  | copy side | print side =>
      apply load_onto below machine
      intro value
      rfl
  | add side | subtract side =>
      obtain ⟨top, rest, operand⟩ := List.exists_cons_of_length_pos enough
      simp only [execute, stack_onto below operand, operand]
      apply load_onto below machine
      intro value
      rfl
  | fetch side =>
      obtain ⟨top, rest, operand⟩ := List.exists_cons_of_length_pos enough
      simp only [execute, stack_onto below operand, operand]
      exact store_onto below { machine with stack := rest } _ top
  | ask side => exact store_onto below machine.consumeInput _ _
  | clear side => exact store_onto below machine _ 0
  | comment =>
      simp only [execute, samePointer]
      split
      · apply load_onto below machine
        intro value
        split
        · rfl
        · rfl
      · rfl
  | head _ | halt => rfl

end Argh.Instruction

namespace Dialect

def demand (dialect : Dialect) (cell : Int) : Nat :=
  match dialect with
  | befunge =>
      match Befunge.Instruction.decode cell with
      | some instruction => instruction.demand
      | none => 0
  | argh =>
      match Argh.Instruction.decode cell with
      | some instruction => instruction.demand
      | none => 0

theorem execute_onto (dialect : Dialect) {cell : Int} (below : List Int)
    (enough : dialect.demand cell ≤ machine.stack.length) :
    dialect.execute cell (machine.onto below) =
      (dialect.execute cell machine).map (onto below) := by
  cases dialect with
  | befunge =>
      simp only [execute, demand] at enough ⊢
      cases decoded : Befunge.Instruction.decode cell with
      | none => rfl
      | some instruction =>
          rw [decoded] at enough
          exact instruction.execute_onto below enough
  | argh =>
      simp only [execute, demand] at enough ⊢
      cases decoded : Argh.Instruction.decode cell with
      | none => rfl
      | some instruction =>
          rw [decoded] at enough
          exact instruction.execute_onto below enough

end Dialect

namespace Machine

def isSupplied (dialect : Dialect) (machine : Machine) : Bool :=
  (machine.field.cell? machine.pointer).all fun cell =>
    dialect.demand cell ≤ machine.stack.length

def Above (below : List Int) (machine counterpart : Machine) : Prop :=
  counterpart = machine.onto below

theorem cycle_onto (dialect : Dialect) (below : List Int)
    (supplied : machine.isSupplied dialect = true) :
    (machine.cycle dialect).Related (Above below)
      ((machine.onto below).cycle dialect) := by
  have finishes : ∀ first second, Above below first second →
      Above below first.finish second.finish := by
    rintro first _ rfl
    exact finish_onto below first
  have above : Above below machine (machine.onto below) := rfl
  apply cycle_related dialect above rfl rfl finishes
  intro cell stored
  have enough : dialect.demand cell ≤ machine.stack.length := by
    simpa [isSupplied, stored] using supplied
  rw [dialect.execute_onto below enough]
  exact .map _ _

/-- A run that finds on its stack all that it takes makes the same cycles on top
of any other values, and leaves them where they are. -/
theorem onto_run (dialect : Dialect) (machine : Machine) (below : List Int)
    (count : Nat)
    (supplied : ∀ turn < count,
      (after (cycle dialect) turn machine).isSupplied dialect = true) :
    ∀ turn < count,
      outcome (cycle dialect) turn (machine.onto below) =
          outcome (cycle dialect) turn machine ∧
        after (cycle dialect) (turn + 1) (machine.onto below) =
          (after (cycle dialect) (turn + 1) machine).onto below := by
  have step : ∀ state counterpart, Above below state counterpart →
      state.isSupplied dialect = true →
        (state.cycle dialect).Related (Above below)
          (counterpart.cycle dialect) := by
    rintro state _ rfl enough
    exact cycle_onto dialect below enough
  exact lockstep step rfl supplied

theorem onto_run_of_difference :
    let machine : Machine :=
      { field := ⟨#[#[51, 55, 92, 45, 58, 46, 64]], .strict⟩ }
    (∀ turn < 7,
        (after (cycle .befunge) turn machine).isSupplied .befunge = true) ∧
      ∀ turn < 7,
        outcome (cycle .befunge) turn (machine.onto [8, 9]) =
            outcome (cycle .befunge) turn machine ∧
          after (cycle .befunge) (turn + 1) (machine.onto [8, 9]) =
            (after (cycle .befunge) (turn + 1) machine).onto [8, 9] := by
  intro machine
  have supplied : ∀ turn < 7,
      (after (cycle .befunge) turn machine).isSupplied .befunge = true := by
    decide
  exact ⟨supplied, onto_run .befunge machine [8, 9] 7 supplied⟩

end Machine

end Esoteric.Grid
