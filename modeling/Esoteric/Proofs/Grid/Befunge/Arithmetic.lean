import Esoteric.Proofs.Arithmetic
import Esoteric.Proofs.Grid.Befunge.Failure

/-! The arithmetic of the stack is that of signed 32-bit words. -/

namespace Esoteric.Grid.Befunge

theorem toInt_ofInt_of_isWord {number : Int} (isWord : IsWord number) :
    (BitVec.ofInt 32 number).toInt = number := by
  rw [BitVec.toInt_ofInt]
  exact signedWord_of_isWord isWord

theorem isWord_toInt (word : BitVec 32) : IsWord word.toInt := by
  rw [← signedWord_toInt]
  exact isWord_signedWord _

variable {machine : Machine} {operator : Operator} {left right : Int}
  {below : List Int} {value : BitVec 32} {cause : Fault}

theorem read_character (operator : Operator) :
    Instruction.ofChar? operator.character = some (.compute operator) := by
  cases operator <;> rfl

structure Faces (machine : Machine) (operator : Operator) (left right : Int)
    (below : List Int) : Prop where
  holds : machine.Holds operator.character
  operands : machine.stack = right :: left :: below
  left : IsWord left
  right : IsWord right

theorem Faces.stack (faces : Faces machine operator left right below) :
    machine.stack = (BitVec.ofInt 32 right).toInt ::
      (BitVec.ofInt 32 left).toInt :: below := by
  rw [toInt_ofInt_of_isWord faces.left, toInt_ofInt_of_isWord faces.right]
  exact faces.operands

theorem Faces.cycle_of_ok (faces : Faces machine operator left right below)
    (combined : operator.combine (.ofInt 32 left) (.ofInt 32 right) =
      .ok value) :
    (machine.cycle .befunge).outcome = .ok ∧
      (machine.cycle .befunge).state =
        { machine with
          pointer := machine.pointer.advance machine.heading
          stack := value.toInt :: below
          cycles := machine.cycles + 1 } :=
  cycle_of_read (.compute operator) faces.holds (read_character operator)
    (Instruction.execute_compute combined faces.stack)

theorem Faces.cycle_of_error (faces : Faces machine operator left right below)
    (fails : operator.combine (.ofInt 32 left) (.ofInt 32 right) =
      .error cause) :
    (machine.cycle .befunge).outcome = .fault cause := by
  rw [Machine.outcome_cycle .befunge faces.holds,
    execute_of_read (.compute operator) (read_character operator)]
  exact Instruction.execute_compute_of_error fails faces.stack

theorem Faces.subtract_add {later : Machine}
    (faces : Faces machine .add left right below)
    (holds : later.Holds Operator.subtract.character)
    (operands : later.stack = right :: (machine.cycle .befunge).state.stack) :
    (later.cycle .befunge).outcome = .ok ∧
      (later.cycle .befunge).state.stack = left :: below := by
  have sum : (machine.cycle .befunge).state.stack =
      (BitVec.ofInt 32 left + BitVec.ofInt 32 right).toInt :: below := by
    rw [(faces.cycle_of_ok rfl).2]
  have difference : Operator.subtract.combine
      (.ofInt 32 (BitVec.ofInt 32 left + BitVec.ofInt 32 right).toInt)
      (.ofInt 32 right) = .ok (.ofInt 32 left) := by
    rw [BitVec.ofInt_toInt, Operator.combine, BitVec.add_sub_cancel]
  rw [sum] at operands
  have again : Faces later .subtract
      (BitVec.ofInt 32 left + BitVec.ofInt 32 right).toInt right below :=
    ⟨holds, operands, isWord_toInt _, faces.right⟩
  obtain ⟨succeeds, leaves⟩ := again.cycle_of_ok difference
  refine ⟨succeeds, ?_⟩
  rw [leaves, toInt_ofInt_of_isWord faces.left]

/-- Quotients are rounded toward zero, every number leaves one word, which results
on the way may be cut down to as well, and the instructions of the stack compute
with words. What has been added can be subtracted again. -/
theorem arithmetic_of_words :
    (∀ dividend divisor : Int, divisor ≠ 0 →
      ∃ whole part, quotient dividend divisor = .ok whole ∧
        remainder dividend divisor = .ok part ∧
        (whole = if divisor < 0 ↔ dividend < 0 then
            ↑(dividend.natAbs / divisor.natAbs)
          else -↑(dividend.natAbs / divisor.natAbs)) ∧
        dividend = divisor * whole + part ∧
        part.natAbs < divisor.natAbs ∧
        (part = 0 ∨ part.sign = dividend.sign)) ∧
      (∀ number, signedWord number =
        (number + 0x80000000) % 0x100000000 - 0x80000000) ∧
      (∀ number word, word = signedWord number ↔
        IsWord word ∧ word ≡ number [ZMOD 0x100000000]) ∧
      (∀ formula result, Formula.Yields formula result →
        signedWord result = signedWord formula.value) ∧
      (∀ machine operator left right below,
        Faces machine operator left right below →
          (∀ value, operator.combine (.ofInt 32 left) (.ofInt 32 right) =
              .ok value →
            (machine.cycle .befunge).outcome = .ok ∧
              (machine.cycle .befunge).state =
                { machine with
                  pointer := machine.pointer.advance machine.heading
                  stack := value.toInt :: below
                  cycles := machine.cycles + 1 }) ∧
            ∀ cause, operator.combine (.ofInt 32 left) (.ofInt 32 right) =
                .error cause →
              (machine.cycle .befunge).outcome = .fault cause) ∧
      (Operator.divide.combine (.ofInt 32 (-0x80000000)) (.ofInt 32 (-1)) =
          .ok (.ofInt 32 (-0x80000000)) ∧
        Operator.modulo.combine (.ofInt 32 (-0x80000000)) (.ofInt 32 (-1)) =
          .ok 0) ∧
      ∀ machine later : Machine, ∀ left right below,
        Faces machine .add left right below →
        later.Holds Operator.subtract.character →
        later.stack = right :: (machine.cycle .befunge).state.stack →
          (later.cycle .befunge).outcome = .ok ∧
            (later.cycle .befunge).state.stack = left :: below := by
  refine ⟨?_, signedWord_eq_sub, ?_, ?_, ?_, ⟨rfl, rfl⟩, ?_⟩
  · intro dividend divisor nonzero
    exact exists_quotient_remainder dividend nonzero
  · intro number word
    exact eq_signedWord_iff
  · intro formula result yields
    exact signedWord_congr yields.modEq
  · intro machine operator left right below faces
    refine ⟨?_, ?_⟩
    · intro value combined
      exact faces.cycle_of_ok combined
    · intro cause fails
      exact faces.cycle_of_error fails
  · intro machine later left right below faces holds operands
    exact faces.subtract_add holds operands

/-- The only quotient of words that has to be cut down. -/
theorem arithmetic_of_words_of_overflow :
    let machine : Machine :=
      { field := ⟨#[#[47]], .strict⟩, stack := [-1, -0x80000000, 5] }
    Faces machine .divide (-0x80000000) (-1) [5] ∧
      (machine.cycle .befunge).outcome = .ok ∧
      (machine.cycle .befunge).state =
        { machine with
          pointer := ⟨1, 0⟩
          stack := [-0x80000000, 5]
          cycles := 1 } := by
  intro machine
  have faces : Faces machine .divide (-0x80000000) (-1) [5] :=
    ⟨rfl, rfl, by decide, by decide⟩
  obtain ⟨_, _, _, _, computes, ⟨quotient, _⟩, _⟩ := arithmetic_of_words
  exact ⟨faces, (computes machine .divide _ _ _ faces).1 _ quotient⟩

end Esoteric.Grid.Befunge
