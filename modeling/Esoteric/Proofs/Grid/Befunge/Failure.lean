import Esoteric.Proofs.Grid.Justified
import Esoteric.Proofs.Grid.Letter
import Esoteric.Proofs.Grid.Stack
import Esoteric.Proofs.Playfield.Crossing
import Esoteric.Proofs.Wording

namespace Esoteric.Grid.Befunge

/-- The ways in which a cycle fails, with what it leaves of the machine. -/
inductive Fails (machine : Machine) : Fault → Machine → Prop
  | pointerOutside (outside : machine.field.cell? machine.pointer = none) :
      Fails machine (.pointerOutside machine.pointer) machine
  | unterminated {passed : List Int} {finish : Position}
      (holds : machine.Holds '"')
      (crosses : machine.field.Crosses machine.heading
        (machine.pointer.advance machine.heading) passed finish)
      (unquoted : quote ∉ passed) :
      Fails machine (.unterminatedString finish)
        { machine with
          pointer := finish
          stack := passed.reverse ++ machine.stack }
  | division (holds : machine.Holds '/') (zero : machine.operand 0 = 0) :
      Fails machine .divisionByZero
        { machine with stack := machine.stack.drop 2 }
  | modulo (holds : machine.Holds '%') (zero : machine.operand 0 = 0) :
      Fails machine .moduloByZero
        { machine with stack := machine.stack.drop 2 }
  | putShort (holds : machine.Holds 'p')
      (short : machine.stack.length < 3) :
      Fails machine (.shortage "p") machine
  | putOutside {x y value : Int} {rest : List Int} (holds : machine.Holds 'p')
      (operands : machine.stack = y :: x :: value :: rest)
      (refused : machine.field.Refuses ⟨x, y⟩) :
      Fails machine (.writeOutside ⟨x, y⟩) { machine with stack := rest }
  | getShort (holds : machine.Holds 'g')
      (short : machine.stack.length < 2) :
      Fails machine (.shortage "g") machine
  | getOutside {x y : Int} {rest : List Int} (holds : machine.Holds 'g')
      (operands : machine.stack = y :: x :: rest)
      (refused : machine.field.Refuses ⟨x, y⟩) :
      Fails machine (.readOutside ⟨x, y⟩) { machine with stack := rest }
  | longNumber (holds : machine.Holds '.')
      (long : ¬ Numeral.Short (machine.operand 0)) :
      Fails machine (.longNumber (machine.operand 0))
        { machine with stack := machine.stack.drop 1 }

variable {machine left : Machine} {cause : Fault} {x y value : Int}
  {passed rest : List Int} {finish : Position}

namespace Instruction

theorem executeText_of_crosses
    (crosses : machine.field.Crosses machine.heading
      (machine.pointer.advance machine.heading) passed finish)
    (unquoted : quote ∉ passed) :
    executeText machine = .fault (.unterminatedString finish)
      { machine with
        pointer := finish
        stack := passed.reverse ++ machine.stack } := by
  obtain rfl := crosses.ends
  obtain rfl := crosses.eq_ray
  simp only [executeText, Playfield.takeWhile_of_not_mem unquoted,
    Nat.lt_irrefl, if_false]

theorem execute_put_of_operands
    (operands : machine.stack = y :: x :: value :: rest) :
    put.execute machine =
      { machine with stack := rest }.store ⟨x, y⟩ value := by
  rw [execute_put (by simp [operands])]
  simp only [Machine.consume, Machine.operand, operands]
  rfl

theorem execute_get_of_operands (operands : machine.stack = y :: x :: rest) :
    get.execute machine =
      { machine with stack := rest }.load ⟨x, y⟩ fun value =>
        .ok ({ machine with stack := rest }.push value) := by
  rw [execute_get (by simp [operands])]
  simp only [Machine.consume, Machine.operand, operands]
  rfl

theorem exists_two_operands (enough : 2 ≤ machine.stack.length) :
    ∃ y x rest, machine.stack = y :: x :: rest := by
  obtain ⟨y, below, first⟩ := List.exists_cons_of_length_pos
    (Nat.lt_of_lt_of_le Nat.zero_lt_two enough)
  rw [first] at enough ⊢
  obtain ⟨x, rest, rfl⟩ := List.exists_cons_of_length_pos
    (Nat.le_of_succ_le_succ enough)
  exact ⟨y, x, rest, rfl⟩

theorem exists_three_operands (enough : 3 ≤ machine.stack.length) :
    ∃ y x value rest, machine.stack = y :: x :: value :: rest := by
  obtain ⟨y, x, below, operands⟩ :=
    exists_two_operands (Nat.le_of_succ_le enough)
  rw [operands] at enough ⊢
  obtain ⟨value, rest, rfl⟩ := List.exists_cons_of_length_pos
    (Nat.le_of_succ_le_succ (Nat.le_of_succ_le_succ enough))
  exact ⟨y, x, value, rest, rfl⟩

theorem execute_justified (instruction : Instruction)
    (holds : machine.Holds instruction.letter) :
    (instruction.execute machine).Justified (machine.Holds '@')
      (machine.chance.next = none) (Fails machine) := by
  cases instruction with
  | wander =>
      rw [execute]
      cases drawn : machine.chance.next with
      | none => exact .of_astray rfl
      | some direction => exact .of_ok rfl
  | readText =>
      by_cases quoted : quote ∈ machine.field.ray
          (machine.pointer.advance machine.heading) machine.heading
      · apply Step.Justified.of_ok
        rw [execute, executeText, if_pos (Playfield.length_takeWhile_lt quoted)]
        rfl
      · have crosses := machine.field.crosses_ray machine.heading
          (machine.pointer.advance machine.heading)
        rw [execute, executeText_of_crosses crosses quoted]
        exact .of_fault (.unterminated holds crosses quoted)
  | halt => exact .of_quit holds
  | compute operator =>
      cases operator with
      | divide =>
          by_cases zero : machine.operand 0 = 0
          · rw [execute, Operator.apply, zero, quotient_zero]
            exact .of_fault (.division holds zero)
          · rw [execute, Operator.apply, quotient, if_neg zero]
            exact .of_ok rfl
      | modulo =>
          by_cases zero : machine.operand 0 = 0
          · rw [execute, Operator.apply, zero, remainder_zero]
            exact .of_fault (.modulo holds zero)
          · rw [execute, Operator.apply, remainder, if_neg zero]
            exact .of_ok rfl
      | add | subtract | multiply | greater => exact .of_ok rfl
  | put =>
      by_cases short : machine.stack.length < 3
      · rw [execute_put_of_short short]
        exact .of_fault (.putShort holds short)
      · obtain ⟨y, x, value, rest, operands⟩ :=
          exists_three_operands (Nat.not_lt.1 short)
        rw [execute_put_of_operands operands]
        apply Machine.store_justified
        intro refused
        exact .putOutside holds operands refused
  | get =>
      by_cases short : machine.stack.length < 2
      · rw [execute_get_of_short short]
        exact .of_fault (.getShort holds short)
      · obtain ⟨y, x, rest, operands⟩ :=
          exists_two_operands (Nat.not_lt.1 short)
        rw [execute_get_of_operands operands]
        apply Machine.load_justified
        · intro refused
          exact .getOutside holds operands refused
        · intro value
          exact .of_ok rfl
  | showNumber =>
      apply Machine.printNumber_justified
      intro long
      exact .longNumber holds long
  | _ => exact .of_ok rfl

end Instruction

theorem cycle_justified (machine : Machine) :
    (machine.cycle .befunge).Justified (machine.Holds '@')
      (machine.chance.next = none) (Fails machine) := by
  apply Machine.cycle_justified .befunge .pointerOutside
  intro cell stored
  rw [Dialect.execute]
  cases decoded : Instruction.decode cell with
  | none => exact .of_ok rfl
  | some instruction =>
      exact instruction.execute_justified
        (Instruction.holds_letter stored decoded)

theorem execute_of_read {c : Char} (instruction : Instruction)
    (read : Instruction.ofChar? c = some instruction) :
    Dialect.befunge.execute (c.toNat : Int) machine =
      instruction.execute machine := by
  simp only [Dialect.execute, Instruction.decode_character read]

theorem cycle_of_holds {c : Char} (instruction : Instruction)
    (holds : machine.Holds c)
    (read : Instruction.ofChar? c = some instruction)
    (executed : instruction.execute machine = .fault cause left) :
    (machine.cycle .befunge).outcome = .fault cause ∧
      (machine.cycle .befunge).state = left := by
  apply Machine.cycle_of_failure .befunge holds
  rw [execute_of_read instruction read, executed]

theorem cycle_of_read {c : Char} {reached : Machine}
    (instruction : Instruction) (holds : machine.Holds c)
    (read : Instruction.ofChar? c = some instruction)
    (executed : instruction.execute machine = .ok reached) :
    (machine.cycle .befunge).outcome = .ok ∧
      (machine.cycle .befunge).state = reached.finish := by
  apply Machine.cycle_of_ok .befunge holds
  rw [execute_of_read instruction read, executed]

theorem Fails.cycle (fails : Fails machine cause left) :
    (machine.cycle .befunge).outcome = .fault cause ∧
      (machine.cycle .befunge).state = left := by
  cases fails with
  | pointerOutside outside => exact Machine.cycle_of_outside .befunge outside
  | unterminated holds crosses unquoted =>
      apply cycle_of_holds .readText holds rfl
      exact Instruction.executeText_of_crosses crosses unquoted
  | division holds zero =>
      apply cycle_of_holds (.compute .divide) holds rfl
      rw [Instruction.execute, Operator.apply, zero, quotient_zero]
      rfl
  | modulo holds zero =>
      apply cycle_of_holds (.compute .modulo) holds rfl
      rw [Instruction.execute, Operator.apply, zero, remainder_zero]
      rfl
  | putShort holds short =>
      exact cycle_of_holds .put holds rfl (Instruction.execute_put_of_short short)
  | putOutside holds operands refused =>
      apply cycle_of_holds .put holds rfl
      rw [Instruction.execute_put_of_operands operands]
      refine Machine.store_of_refuses ?_ _
      exact refused
  | getShort holds short =>
      exact cycle_of_holds .get holds rfl (Instruction.execute_get_of_short short)
  | getOutside holds operands refused =>
      apply cycle_of_holds .get holds rfl
      rw [Instruction.execute_get_of_operands operands]
      refine Machine.load_of_refuses ?_ _
      exact refused
  | longNumber holds long =>
      apply cycle_of_holds .showNumber holds rfl
      exact Machine.printNumber_of_long long _

theorem Fails.proper (fails : Fails machine cause left) : cause.Proper := by
  rintro number rfl
  cases fails with
  | longNumber _ long => exact long

theorem outcome_of_halt (holds : machine.Holds '@') :
    (machine.cycle .befunge).outcome = .quit := by
  rw [Machine.outcome_cycle .befunge holds,
    execute_of_read .halt rfl]
  rfl

theorem state_of_halt (holds : machine.Holds '@') :
    (machine.cycle .befunge).state = machine := by
  have quits : Dialect.befunge.execute (('@').toNat : Int) machine =
      .quit machine := execute_of_read .halt rfl
  rw [Machine.Holds] at holds
  simp only [Machine.cycle, holds, quits, Step.andThen_quit]
  rfl

/-- A cycle quits at one character and fails for the stated reasons. Otherwise it
succeeds, if a draw that it may make gives a direction. A failure is told in words,
unless these hold a number with too many digits. -/
theorem befunge_outcome_iff (machine : Machine)
    (gives : machine.chance.next ≠ none) :
    ((machine.cycle .befunge).outcome = .quit ↔ machine.Holds '@') ∧
      (∀ cause, (machine.cycle .befunge).outcome = .fault cause ↔
        ∃ left, Fails machine cause left) ∧
      ((machine.cycle .befunge).outcome = .ok ↔
        ¬ machine.Holds '@' ∧ ∀ cause left, ¬ Fails machine cause left) ∧
      (machine.cycle .befunge).outcome ≠ .astray ∧
      (∀ message,
        (machine.cycle .befunge).outcome.raised? = some (.failure message) ↔
          ∃ cause left, Fails machine cause left ∧
            cause.message? = some message) ∧
      ((machine.cycle .befunge).outcome.raised? = some .overlong ↔
        ∃ cause left, Fails machine cause left ∧
          ∃ number ∈ cause.numbers, ¬ Numeral.Short number) := by
  obtain ⟨quits, faults, succeeds, guided⟩ :=
    (cycle_justified machine).outcome_iff outcome_of_halt
      (fun _ _ fails => fails.cycle.1) gives
  have raises := Outcome.raised?_iff faults fun _ _ => Fails.proper
  exact ⟨quits, faults, succeeds, guided, raises⟩

theorem befunge_outcome_iff_of_modulo :
    let machine : Machine := { field := ⟨#[#[37, 63]], .silent 32⟩ }
    machine.chance.next ≠ none ∧
      (machine.cycle .befunge).outcome = .fault .moduloByZero ∧
      (machine.cycle .befunge).outcome.raised? =
        some (.failure "modulo by zero") := by
  intro machine
  have gives : machine.chance.next ≠ none := by decide
  have fails : Fails machine .moduloByZero { machine with stack := [] } :=
    .modulo rfl rfl
  obtain ⟨_, faults, _, _, failure, _⟩ := befunge_outcome_iff machine gives
  exact ⟨gives, (faults _).2 ⟨_, fails⟩, (failure _).2 ⟨_, _, fails, rfl⟩⟩

/-- A number that is too long to be shown stops a program without a failure. -/
theorem overlong_of_shown_number :
    ¬ ∀ machine : Machine, machine.chance.next ≠ none →
      (machine.cycle .befunge).outcome = .ok ∨
        (machine.cycle .befunge).outcome = .quit ∨
        ∃ message,
          (machine.cycle .befunge).outcome.raised? = some (.failure message) := by
  intro meant
  let machine : Machine :=
    { field := ⟨#[#[46]], .strict⟩, stack := [(10 ^ Numeral.mostDigits : Nat)] }
  have fails : Fails machine (.longNumber (machine.operand 0))
      { machine with stack := [] } := .longNumber rfl Numeral.not_short_pow
  have outcome := fails.cycle.1
  obtain succeeds | quits | ⟨message, raises⟩ := meant machine (by decide)
  · rw [outcome] at succeeds
    contradiction
  · rw [outcome] at quits
    contradiction
  · rw [outcome] at raises
    have same := Option.some.inj raises
    contradiction

end Esoteric.Grid.Befunge
