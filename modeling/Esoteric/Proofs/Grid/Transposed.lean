import Esoteric.Proofs.Grid.Letter
import Esoteric.Proofs.Playfield.Transposed

/-! A run of a transposed program is the transposed run. -/

namespace Esoteric.Grid.Befunge

open Run

variable {columns : Nat} {machine : Machine} {cell : Int}

namespace Instruction

/-- The instruction that takes the place of an instruction when the axes change
places. -/
def exchange : Instruction → Instruction
  | head direction => head direction.exchange
  | branchAcross => branchAlong
  | branchAlong => branchAcross
  | instruction => instruction

end Instruction

/-- The arrows and branches are the only cells that tell the axes apart. -/
def exchangeCell (cell : Int) : Int :=
  match symbol cell with
  | '>' => 'v'.toNat
  | 'v' => '>'.toNat
  | '<' => '^'.toNat
  | '^' => '<'.toNat
  | '_' => '|'.toNat
  | '|' => '_'.toNat
  | _ => cell

theorem decode_exchangeCell (cell : Int) :
    Instruction.decode (exchangeCell cell) =
      (Instruction.decode cell).map Instruction.exchange := by
  unfold exchangeCell
  split
  case h_7 =>
    cases decoded : Instruction.decode cell with
    | none => rfl
    | some instruction =>
        have letter := Instruction.eq_letter decoded
        cases instruction with
        | head direction => cases direction <;> contradiction
        | branchAcross | branchAlong => contradiction
        | _ => rfl
  all_goals
    rename_i symbol
    rw [Instruction.decode, Instruction.decode, symbol]
    rfl

/-- A program whose text can be transposed: a rectangle without strings and
without access to its own cells. -/
structure Plain (columns : Nat) (field : Playfield) : Prop where
  rectangular : field.Rectangular columns
  unquoted : field.Lacks '"'
  unwritten : field.Lacks 'p'
  unread : field.Lacks 'g'

def transposed (columns : Nat) (machine : Machine) : Machine :=
  { machine with
    field := machine.field.transposed columns exchangeCell
    pointer := machine.pointer.swap
    heading := machine.heading.exchange
    chance := machine.chance.exchange }

/-- Outcomes that differ at most in the axes of the position that they report. -/
inductive Alike (strays : Prop) : Outcome → Outcome → Prop
  | ok : Alike strays .ok .ok
  | quit : Alike strays .quit .quit
  | pointerOutside (position : Position) :
      Alike strays (.fault (.pointerOutside position))
        (.fault (.pointerOutside position.swap))
  | longNumber (number : Int) :
      Alike strays (.fault (.longNumber number)) (.fault (.longNumber number))
  | divisionByZero : Alike strays (.fault .divisionByZero) (.fault .divisionByZero)
  | moduloByZero : Alike strays (.fault .moduloByZero) (.fault .moduloByZero)
  | astray (stray : strays) : Alike strays .astray .astray

/-- A step of a machine beside one of the transposed machine. -/
structure Reflects (columns : Nat) (machine : Machine)
    (step other : Step Machine) : Prop where
  outcome : Alike (∃ turn, machine.chance.draws turn = none) step.outcome
    other.outcome
  field : step.state.field = machine.field
  draws : step.state.chance.draws = machine.chance.draws
  state : other.state = transposed columns step.state

theorem advance_transposed (columns : Nat) (machine : Machine) :
    (transposed columns machine).advance =
      transposed columns machine.advance := by
  simp only [Machine.advance, transposed, Position.advance_swap]

theorem finish_transposed (columns : Nat) (machine : Machine) :
    (transposed columns machine).finish =
      transposed columns machine.finish := by
  simp only [Machine.finish, advance_transposed]
  rfl

theorem Reflects.finish {step other : Step Machine}
    (reflects : Reflects columns machine step other)
    (diagnostic second : Diagnostic) :
    Reflects columns machine
      ((step.andThen fun reached => .ok reached.finish).report diagnostic)
      ((other.andThen fun reached => .ok reached.finish).report second) := by
  obtain ⟨outcome, reached, _⟩ := step
  obtain ⟨otherOutcome, counterpart, _⟩ := other
  obtain ⟨alike, field, draws, state⟩ := reflects
  simp only at alike field draws state
  cases alike with
  | ok =>
      refine ⟨.ok, field, draws, ?_⟩
      rw [state]
      exact finish_transposed columns reached
  | quit => exact ⟨.quit, field, draws, state⟩
  | pointerOutside position =>
      exact ⟨.pointerOutside position, field, draws, state⟩
  | longNumber number => exact ⟨.longNumber number, field, draws, state⟩
  | divisionByZero => exact ⟨.divisionByZero, field, draws, state⟩
  | moduloByZero => exact ⟨.moduloByZero, field, draws, state⟩
  | astray stray => exact ⟨.astray stray, field, draws, state⟩

namespace Instruction

theorem compute_reflects (operator : Operator) (machine : Machine) :
    Reflects columns machine ((compute operator).execute machine)
      ((compute operator).execute (transposed columns machine)) := by
  have sameOperand (depth : Nat) :
      (transposed columns machine).operand depth = machine.operand depth := rfl
  simp only [execute, sameOperand]
  cases operator with
  | divide =>
      by_cases zero : machine.operand 0 = 0
      · simp only [Operator.apply, zero, quotient_zero]
        exact ⟨.divisionByZero, rfl, rfl, rfl⟩
      · simp only [Operator.apply, quotient, if_neg zero]
        exact ⟨.ok, rfl, rfl, rfl⟩
  | modulo =>
      by_cases zero : machine.operand 0 = 0
      · simp only [Operator.apply, zero, remainder_zero]
        exact ⟨.moduloByZero, rfl, rfl, rfl⟩
      · simp only [Operator.apply, remainder, if_neg zero]
        exact ⟨.ok, rfl, rfl, rfl⟩
  | add | subtract | multiply | greater => exact ⟨.ok, rfl, rfl, rfl⟩

theorem execute_reflects (instruction : Instruction) (machine : Machine)
    (outward : instruction ∉ [readText, put, get]) :
    Reflects columns machine (instruction.execute machine)
      (instruction.exchange.execute (transposed columns machine)) := by
  have sameOperand (depth : Nat) :
      (transposed columns machine).operand depth = machine.operand depth := rfl
  cases instruction with
  | wander =>
      have sameChance : (transposed columns machine).chance =
          machine.chance.exchange := rfl
      simp only [exchange, execute, sameChance, Chance.next_exchange]
      cases drawn : machine.chance.next with
      | none => exact ⟨.astray ⟨_, drawn⟩, rfl, rfl, rfl⟩
      | some direction => exact ⟨.ok, rfl, rfl, rfl⟩
  | branchAcross | branchAlong =>
      simp only [exchange, execute, sameOperand]
      split <;> exact ⟨.ok, rfl, rfl, rfl⟩
  | bridge => exact ⟨.ok, rfl, rfl, advance_transposed columns machine⟩
  | halt => exact ⟨.quit, rfl, rfl, rfl⟩
  | compute operator => exact compute_reflects operator machine
  | showNumber =>
      simp only [exchange, execute, sameOperand, Machine.printNumber]
      cases Numeral.show? (machine.operand 0) with
      | some text => exact ⟨.ok, rfl, rfl, rfl⟩
      | none => exact ⟨.longNumber _, rfl, rfl, rfl⟩
  | readText | put | get => simp at outward
  | _ => exact ⟨.ok, rfl, rfl, rfl⟩

end Instruction

theorem Plain.outward (plain : Plain columns machine.field)
    (stored : machine.field.cell? machine.pointer = some cell)
    {instruction : Instruction}
    (decoded : Instruction.decode cell = some instruction) :
    instruction ∉ [.readText, .put, .get] := by
  have holds := Instruction.holds_letter stored decoded
  intro member
  simp only [List.mem_cons, List.not_mem_nil, or_false] at member
  rcases member with rfl | rfl | rfl
  · exact plain.unquoted.cell?_ne _ holds
  · exact plain.unwritten.cell?_ne _ holds
  · exact plain.unread.cell?_ne _ holds

theorem cycle_reflects (plain : Plain columns machine.field) :
    Reflects columns machine (machine.cycle .befunge)
      ((transposed columns machine).cycle .befunge) := by
  have fetched := Playfield.cell?_transposed plain.rectangular exchangeCell
    machine.pointer
  have sameField : (transposed columns machine).field.cell?
      (transposed columns machine).pointer =
        (machine.field.cell? machine.pointer).map exchangeCell := fetched
  simp only [Machine.cycle, sameField]
  cases stored : machine.field.cell? machine.pointer with
  | none => exact ⟨.pointerOutside _, rfl, rfl, rfl⟩
  | some cell =>
      apply Reflects.finish
      simp only [Dialect.execute, decode_exchangeCell]
      cases decoded : Instruction.decode cell with
      | none => exact ⟨.ok, rfl, rfl, rfl⟩
      | some instruction =>
          exact instruction.execute_reflects machine
            (plain.outward stored decoded)

theorem after_transposed (plain : Plain columns machine.field) (count : Nat) :
    (after (Machine.cycle .befunge) count machine).field = machine.field ∧
      (after (Machine.cycle .befunge) count machine).chance.draws =
        machine.chance.draws ∧
      after (Machine.cycle .befunge) count (transposed columns machine) =
        transposed columns (after (Machine.cycle .befunge) count machine) := by
  induction count with
  | zero => exact ⟨rfl, rfl, rfl⟩
  | succ count induction =>
      obtain ⟨field, draws, state⟩ := induction
      rw [after_succ, after_succ, state]
      have still : Plain columns
          (after (Machine.cycle .befunge) count machine).field :=
        field ▸ plain
      have reflects := cycle_reflects still
      exact ⟨reflects.field.trans field, reflects.draws.trans draws,
        reflects.state⟩

/-- The axes mean the same to a program: transposed, it does at every turn what
it did, with the axes exchanged. -/
theorem run_transposed (plain : Plain columns machine.field) (count : Nat) :
    Alike (∃ turn, machine.chance.draws turn = none)
        (outcome (Machine.cycle .befunge) count machine)
        (outcome (Machine.cycle .befunge) count
          (transposed columns machine)) ∧
      after (Machine.cycle .befunge) count (transposed columns machine) =
        transposed columns
          (after (Machine.cycle .befunge) count machine) := by
  obtain ⟨field, draws, state⟩ := after_transposed plain count
  refine ⟨?_, state⟩
  rw [outcome, outcome, state, ← draws]
  exact (cycle_reflects (field ▸ plain)).outcome

/-- A program of two rows and three columns that draws and branches, and its
transpose of three rows and two columns. -/
theorem run_transposed_of_draw :
    let machine : Machine :=
      { field := ⟨#[#[63, 95, 64], #[35, 118, 63]], .silent 32⟩
        chance := .repeating #[1, 2, 3] }
    Plain 3 machine.field ∧
      (transposed 3 machine).field =
        ⟨#[#[63, 35], #[124, 62], #[64, 63]], .silent 32⟩ ∧
      Alike (∃ turn, machine.chance.draws turn = none)
        (outcome (Machine.cycle .befunge) 4 machine)
        (outcome (Machine.cycle .befunge) 4 (transposed 3 machine)) ∧
      after (Machine.cycle .befunge) 4 (transposed 3 machine) =
        transposed 3 (after (Machine.cycle .befunge) 4 machine) := by
  intro machine
  have plain : Plain 3 machine.field :=
    ⟨by decide +kernel, by decide +kernel, by decide +kernel,
      by decide +kernel⟩
  exact ⟨plain, by decide +kernel, run_transposed plain 4⟩

end Esoteric.Grid.Befunge
