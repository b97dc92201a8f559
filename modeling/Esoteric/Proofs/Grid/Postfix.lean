import Esoteric.Proofs.Grid.Straight
import Esoteric.Proofs.Grid.Word

namespace Esoteric.Grid.Befunge

open Run

inductive Expression where
  | digit (value : Fin 10)
  | binary (operator : Operator) (left right : Expression)
  | invert (operand : Expression)
deriving DecidableEq, Repr

namespace Expression

open Instruction

/-- An expression and the parts of it in the order of their evaluation: first
the operands from left to right. -/
def parts : Expression → List Expression
  | digit value => [digit value]
  | binary operator left right =>
      left.parts ++ (right.parts ++ [binary operator left right])
  | invert operand => operand.parts ++ [invert operand]

def character : Expression → Char
  | digit value => Nat.digitChar value
  | binary operator _ _ => operator.character
  | invert _ => '!'

def postfixCode (expression : Expression) : List Char :=
  expression.parts.map character

/-- The value of an expression, or what a zero divisor in it gives rise to. -/
def evaluate : Expression → Except Fault (BitVec 32)
  | digit value => .ok (BitVec.ofNat 32 value)
  | binary operator left right => do
      let first ← left.evaluate
      let second ← right.evaluate
      operator.combine first second
  | invert operand => do
      let value ← operand.evaluate
      return if value = 0 then 1 else 0

/-- A division whose divisor is zero, and what it gives rise to. -/
inductive LacksResult : Expression → Fault → Prop
  | divide {left right : Expression} : right.evaluate = .ok 0 →
      LacksResult (binary .divide left right) .divisionByZero
  | modulo {left right : Expression} : right.evaluate = .ok 0 →
      LacksResult (binary .modulo left right) .moduloByZero

variable {machine : Machine} {expression left right operand : Expression}
  {operator : Operator} {first second value : BitVec 32} {cause : Fault}

theorem postfixCode_binary (operator : Operator) (left right : Expression) :
    (binary operator left right).postfixCode =
      left.postfixCode ++ (right.postfixCode ++ [operator.character]) := by
  simp only [postfixCode, parts, List.map_append]
  rfl

theorem postfixCode_invert (operand : Expression) :
    (invert operand).postfixCode = operand.postfixCode ++ ['!'] := by
  simp only [postfixCode, parts, List.map_append]
  rfl

theorem length_postfixCode (expression : Expression) :
    expression.postfixCode.length = expression.parts.length :=
  List.length_map character

theorem decode_invert :
    Instruction.decode (('!').toNat : Int) = some .invert := rfl

theorem decode_digit (value : Fin 10) :
    Instruction.decode ((Nat.digitChar value).toNat : Int) =
      some (.digit value) := by
  revert value
  decide

theorem evaluate_binary (leftValue : left.evaluate = .ok first)
    (rightValue : right.evaluate = .ok second) :
    (binary operator left right).evaluate = operator.combine first second := by
  rw [evaluate, leftValue, rightValue]
  rfl

theorem evaluate_invert (operandValue : operand.evaluate = .ok value) :
    (invert operand).evaluate = .ok (if value = 0 then 1 else 0) := by
  rw [evaluate, operandValue]
  rfl

theorem length_binary (operator : Operator) (left right : Expression) :
    (binary operator left right).postfixCode.length =
      left.postfixCode.length + right.postfixCode.length + 1 := by
  rw [postfixCode_binary, List.length_append, List.length_append,
    Nat.add_assoc]
  rfl

theorem length_invert (operand : Expression) :
    (invert operand).postfixCode.length = operand.postfixCode.length + 1 := by
  rw [postfixCode_invert, List.length_append]
  rfl

/-- A run over the code of an expression leaves its value on the stack. -/
def Computes (expression : Expression) (value : BitVec 32) : Prop :=
  ∀ machine : Machine,
    machine.field.Spells machine.pointer machine.heading
        expression.postfixCode →
      Reaches (Machine.cycle .befunge) expression.postfixCode.length machine
        (machine.along expression.postfixCode.length
          (value.toInt :: machine.stack))

theorem Computes.operands (leftComputes : left.Computes first)
    (rightComputes : right.Computes second)
    (spelled : machine.field.Spells machine.pointer machine.heading
      (binary operator left right).postfixCode) :
    Reaches (Machine.cycle .befunge)
        (left.postfixCode.length + right.postfixCode.length) machine
        (machine.along (left.postfixCode.length + right.postfixCode.length)
          (second.toInt :: first.toInt :: machine.stack)) ∧
      machine.field.cell? (machine.pointer.moved machine.heading
          (left.postfixCode.length + right.postfixCode.length)) =
        some (operator.character.toNat : Int) := by
  rw [postfixCode_binary] at spelled
  obtain ⟨leftSpelled, remaining⟩ := spelled.append
  obtain ⟨rightSpelled, last⟩ := remaining.append
  have leftRun := leftComputes machine leftSpelled
  have rightRun := rightComputes
    (machine.along left.postfixCode.length (first.toInt :: machine.stack))
    rightSpelled
  refine ⟨?_, ?_⟩
  · rw [Machine.along_along] at rightRun
    exact leftRun.trans rightRun
  · rw [Position.moved_moved] at last
    exact last.head

theorem Computes.binary (leftComputes : left.Computes first)
    (rightComputes : right.Computes second)
    (combined : operator.combine first second = .ok value) :
    (Expression.binary operator left right).Computes value := by
  intro machine spelled
  obtain ⟨run, stored⟩ := leftComputes.operands rightComputes spelled
  have operands : (machine.along
      (left.postfixCode.length + right.postfixCode.length)
      (second.toInt :: first.toInt :: machine.stack)).stack =
        second.toInt :: first.toInt :: machine.stack := rfl
  have last := Machine.reaches_along stored operator.decode_character
    (execute_compute combined operands)
  rw [Machine.along_along] at last
  rw [length_binary]
  exact run.trans last

theorem Computes.invert (computes : operand.Computes value) :
    (Expression.invert operand).Computes (if value = 0 then 1 else 0) := by
  intro machine spelled
  rw [postfixCode_invert] at spelled
  obtain ⟨operandSpelled, last⟩ := spelled.append
  have run := computes machine operandSpelled
  have top : (machine.along operand.postfixCode.length
      (value.toInt :: machine.stack)).stack =
        value.toInt :: machine.stack := rfl
  have last := Machine.reaches_along last.head decode_invert
    (execute_invert top)
  rw [Machine.along_along] at last
  rw [length_invert]
  exact run.trans last

theorem computes_digit (value : Fin 10) :
    (digit value).Computes (BitVec.ofNat 32 value) := by
  intro machine spelled
  have pushed : ∀ value : Fin 10,
      (BitVec.ofNat 32 value).toInt = (value : Nat) := by
    decide
  rw [pushed value]
  exact Machine.reaches_along spelled.head (decode_digit value) rfl

theorem evaluate_binary_eq_ok
    (evaluates : (binary operator left right).evaluate = .ok value) :
    ∃ first second, left.evaluate = .ok first ∧
      right.evaluate = .ok second ∧ operator.combine first second = .ok value := by
  cases leftValue : left.evaluate with
  | error cause =>
      rw [evaluate, leftValue] at evaluates
      cases evaluates
  | ok first =>
      cases rightValue : right.evaluate with
      | error cause =>
          rw [evaluate, leftValue, rightValue] at evaluates
          cases evaluates
      | ok second =>
          rw [evaluate_binary leftValue rightValue] at evaluates
          exact ⟨first, second, rfl, rfl, evaluates⟩

theorem evaluate_invert_eq_ok (evaluates : (invert operand).evaluate = .ok value) :
    ∃ inner, operand.evaluate = .ok inner ∧
      value = if inner = 0 then 1 else 0 := by
  cases operandValue : operand.evaluate with
  | error cause =>
      rw [evaluate, operandValue] at evaluates
      cases evaluates
  | ok inner =>
      rw [evaluate_invert operandValue] at evaluates
      cases evaluates
      exact ⟨inner, rfl, rfl⟩

theorem computes_of_evaluate (evaluates : expression.evaluate = .ok value) :
    expression.Computes value := by
  induction expression generalizing value with
  | digit digit =>
      cases evaluates
      exact computes_digit digit
  | binary operator left right leftInduction rightInduction =>
      obtain ⟨first, second, leftValue, rightValue, combined⟩ :=
        evaluate_binary_eq_ok evaluates
      exact (leftInduction leftValue).binary (rightInduction rightValue) combined
  | invert operand induction =>
      obtain ⟨inner, operandValue, rfl⟩ := evaluate_invert_eq_ok evaluates
      exact (induction operandValue).invert

theorem evaluate_part (evaluates : expression.evaluate = .ok value) :
    ∀ part ∈ expression.parts, ∃ value, part.evaluate = .ok value := by
  induction expression generalizing value with
  | digit digit =>
      intro part among
      obtain rfl := List.mem_singleton.1 among
      exact ⟨value, evaluates⟩
  | binary operator left right leftInduction rightInduction =>
      obtain ⟨first, second, leftValue, rightValue, _⟩ :=
        evaluate_binary_eq_ok evaluates
      intro part among
      simp only [parts, List.mem_append, List.mem_singleton] at among
      rcases among with inLeft | inRight | rfl
      · exact leftInduction leftValue part inLeft
      · exact rightInduction rightValue part inRight
      · exact ⟨value, evaluates⟩
  | invert operand induction =>
      obtain ⟨inner, operandValue, _⟩ := evaluate_invert_eq_ok evaluates
      intro part among
      simp only [parts, List.mem_append, List.mem_singleton] at among
      rcases among with inOperand | rfl
      · exact induction operandValue part inOperand
      · exact ⟨value, evaluates⟩

theorem lacksResult_of_combine (rightValue : right.evaluate = .ok second)
    (fails : operator.combine first second = .error cause) :
    (binary operator left right).LacksResult cause := by
  obtain ⟨rfl, ⟨rfl, rfl⟩ | ⟨rfl, rfl⟩⟩ :=
    Operator.eq_of_combine_eq_error fails
  · exact .divide rightValue
  · exact .modulo rightValue

/-- Evaluation fails at a part that comes after others with values, and a run
fails once it has dealt with those. -/
structure FailsAt (expression : Expression) (before : List Expression)
    (part : Expression) (cause : Fault) : Prop where
  split : ∃ later, expression.parts = before ++ part :: later
  earlier : ∀ earlier ∈ before, ∃ value, earlier.evaluate = .ok value
  lacks : part.LacksResult cause
  stops : ∀ machine : Machine,
    machine.field.Spells machine.pointer machine.heading
        expression.postfixCode →
      ∃ stack,
        Reaches (Machine.cycle .befunge) before.length machine
          (machine.along before.length stack) ∧
        ((machine.along before.length stack).cycle .befunge).outcome =
          .fault cause

variable {before : List Expression} {part : Expression}

theorem FailsAt.of_left (fails : left.FailsAt before part cause) :
    (binary operator left right).FailsAt before part cause := by
  obtain ⟨⟨later, split⟩, earlier, lacks, stops⟩ := fails
  refine ⟨⟨later ++ (right.parts ++ [binary operator left right]), ?_⟩,
    earlier, lacks, ?_⟩
  · rw [parts, split, List.append_assoc, List.cons_append]
  · intro machine spelled
    rw [postfixCode_binary] at spelled
    exact stops machine spelled.append.1

theorem FailsAt.of_right (leftValue : left.evaluate = .ok first)
    (fails : right.FailsAt before part cause) :
    (binary operator left right).FailsAt (left.parts ++ before) part cause := by
  obtain ⟨⟨later, split⟩, earlier, lacks, stops⟩ := fails
  refine ⟨⟨later ++ [binary operator left right], ?_⟩, ?_, lacks, ?_⟩
  · rw [parts, split]
    simp only [List.append_assoc, List.cons_append]
  · intro part among
    rcases List.mem_append.1 among with inLeft | inBefore
    · exact evaluate_part leftValue part inLeft
    · exact earlier part inBefore
  · intro machine spelled
    rw [postfixCode_binary] at spelled
    obtain ⟨leftSpelled, remaining⟩ := spelled.append
    have leftRun := computes_of_evaluate leftValue machine leftSpelled
    obtain ⟨stack, rightRun, fault⟩ := stops
      (machine.along left.postfixCode.length (first.toInt :: machine.stack))
      remaining.append.1
    rw [Machine.along_along] at rightRun fault
    rw [List.length_append, ← length_postfixCode]
    exact ⟨stack, leftRun.trans rightRun, fault⟩

theorem failsAt_operator (leftValue : left.evaluate = .ok first)
    (rightValue : right.evaluate = .ok second)
    (fails : operator.combine first second = .error cause) :
    (binary operator left right).FailsAt (left.parts ++ right.parts)
      (binary operator left right) cause := by
  refine ⟨⟨[], ?_⟩, ?_, lacksResult_of_combine rightValue fails, ?_⟩
  · rw [parts, List.append_assoc]
  · intro part among
    rcases List.mem_append.1 among with inLeft | inRight
    · exact evaluate_part leftValue part inLeft
    · exact evaluate_part rightValue part inRight
  · intro machine spelled
    obtain ⟨run, stored⟩ := (computes_of_evaluate leftValue).operands
      (computes_of_evaluate rightValue) spelled
    rw [List.length_append, ← length_postfixCode, ← length_postfixCode]
    refine ⟨_, run, ?_⟩
    rw [Machine.outcome_cycle .befunge stored]
    simp only [Dialect.execute, operator.decode_character]
    exact execute_compute_of_error fails rfl

theorem FailsAt.of_operand (fails : operand.FailsAt before part cause) :
    (invert operand).FailsAt before part cause := by
  obtain ⟨⟨later, split⟩, earlier, lacks, stops⟩ := fails
  refine ⟨⟨later ++ [invert operand], ?_⟩, earlier, lacks, ?_⟩
  · rw [parts, split, List.append_assoc, List.cons_append]
  · intro machine spelled
    rw [postfixCode_invert] at spelled
    exact stops machine spelled.append.1

theorem exists_failsAt (fails : expression.evaluate = .error cause) :
    ∃ before part, expression.FailsAt before part cause := by
  induction expression with
  | digit digit => cases fails
  | binary operator left right leftInduction rightInduction =>
      cases leftValue : left.evaluate with
      | error other =>
          rw [evaluate, leftValue] at fails
          cases fails
          obtain ⟨before, part, inLeft⟩ := leftInduction leftValue
          exact ⟨before, part, inLeft.of_left⟩
      | ok first =>
          cases rightValue : right.evaluate with
          | error other =>
              rw [evaluate, leftValue, rightValue] at fails
              cases fails
              obtain ⟨before, part, inRight⟩ := rightInduction rightValue
              exact ⟨left.parts ++ before, part, inRight.of_right leftValue⟩
          | ok second =>
              rw [evaluate_binary leftValue rightValue] at fails
              exact ⟨left.parts ++ right.parts, binary operator left right,
                failsAt_operator leftValue rightValue fails⟩
  | invert operand induction =>
      cases operandValue : operand.evaluate with
      | error other =>
          rw [evaluate, operandValue] at fails
          cases fails
          obtain ⟨before, part, inOperand⟩ := induction operandValue
          exact ⟨before, part, inOperand.of_operand⟩
      | ok value =>
          rw [evaluate_invert operandValue] at fails
          cases fails

/-- Postfix code leaves the value of its expression on the stack, or fails at
the first part of it that lacks a result. -/
theorem run_of_postfixCode (expression : Expression) (machine : Machine)
    (spelled : machine.field.Spells machine.pointer machine.heading
      expression.postfixCode) :
    (∀ value, expression.evaluate = .ok value →
      Reaches (Machine.cycle .befunge) expression.postfixCode.length machine
        (machine.along expression.postfixCode.length
          (value.toInt :: machine.stack))) ∧
    ∀ cause, expression.evaluate = .error cause →
      ∃ before part later stack,
        expression.parts = before ++ part :: later ∧
        (∀ earlier ∈ before, ∃ value, earlier.evaluate = .ok value) ∧
        part.LacksResult cause ∧
        Reaches (Machine.cycle .befunge) before.length machine
          (machine.along before.length stack) ∧
        ((machine.along before.length stack).cycle .befunge).outcome =
          .fault cause := by
  refine ⟨?_, ?_⟩
  · intro value evaluates
    exact computes_of_evaluate evaluates machine spelled
  · intro cause fails
    obtain ⟨before, part, ⟨later, split⟩, earlier, lacks, stops⟩ :=
      exists_failsAt fails
    obtain ⟨stack, run, fault⟩ := stops machine spelled
    exact ⟨before, part, later, stack, split, earlier, lacks, run, fault⟩

theorem run_of_quotient :
    let expression := binary .divide (digit 7)
      (binary .subtract (digit 2) (digit 3))
    let machine : Machine :=
      { field := ⟨#[#[47, 45, 51, 50, 55]], .strict⟩
        pointer := ⟨4, 0⟩
        heading := .left }
    machine.field.Spells machine.pointer machine.heading
        expression.postfixCode ∧
      Reaches (Machine.cycle .befunge) 5 machine (machine.along 5 [-7]) := by
  intro expression machine
  have spelled : machine.field.Spells machine.pointer machine.heading
      expression.postfixCode := by decide
  have evaluates : expression.evaluate = .ok (-7) := rfl
  obtain ⟨computes, _⟩ := run_of_postfixCode expression machine spelled
  exact ⟨spelled, computes (-7) evaluates⟩

end Expression

end Esoteric.Grid.Befunge
