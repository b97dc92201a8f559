import Esoteric.Grid.Befunge

namespace Esoteric.Grid.Befunge

theorem toInt_eq_zero_iff (word : BitVec 32) : word.toInt = 0 ↔ word = 0 := by
  rw [← BitVec.toInt_inj]
  rfl

theorem signedWord_toInt (word : BitVec 32) :
    signedWord word.toInt = word.toInt :=
  BitVec.toInt_bmod_cancel word

namespace Operator

variable {operator : Operator} {left right value : BitVec 32} {cause : Fault}

def character : Operator → Char
  | add => '+'
  | subtract => '-'
  | multiply => '*'
  | divide => '/'
  | modulo => '%'
  | greater => '\x60'

/-- Operators on signed words, where only a zero divisor has no result. -/
def combine (operator : Operator) (left right : BitVec 32) :
    Except Fault (BitVec 32) :=
  match operator with
  | add => .ok (left + right)
  | subtract => .ok (left - right)
  | multiply => .ok (left * right)
  | divide =>
      if right = 0 then .error .divisionByZero else .ok (left.sdiv right)
  | modulo =>
      if right = 0 then .error .moduloByZero else .ok (left.srem right)
  | greater => .ok (if right.slt left then 1 else 0)

theorem decode_character (operator : Operator) :
    Instruction.decode (operator.character.toNat : Int) =
      some (.compute operator) := by
  cases operator <;> rfl

theorem apply_toInt (operator : Operator) (left right : BitVec 32) :
    (operator.apply left.toInt right.toInt).map signedWord =
      (operator.combine left right).map BitVec.toInt := by
  cases operator with
  | add => exact congrArg Except.ok (BitVec.toInt_add left right).symm
  | subtract => exact congrArg Except.ok BitVec.toInt_sub.symm
  | multiply => exact congrArg Except.ok (BitVec.toInt_mul left right).symm
  | divide =>
      by_cases zero : right = 0
      · subst zero
        rfl
      · have nonzero : right.toInt ≠ 0 := mt (toInt_eq_zero_iff right).1 zero
        simp only [apply, quotient, combine, if_neg nonzero, if_neg zero]
        exact congrArg Except.ok (BitVec.toInt_sdiv left right).symm
  | modulo =>
      by_cases zero : right = 0
      · subst zero
        rfl
      · have nonzero : right.toInt ≠ 0 := mt (toInt_eq_zero_iff right).1 zero
        simp only [apply, remainder, combine, if_neg nonzero, if_neg zero]
        rw [← BitVec.toInt_srem]
        exact congrArg Except.ok (signedWord_toInt _)
  | greater =>
      by_cases greater : left.toInt > right.toInt
      · have less : right.slt left = true := BitVec.slt_iff_toInt_lt.2 greater
        simp only [apply, combine, if_pos greater, if_pos less]
        rfl
      · have notLess : ¬ right.slt left = true := by
          rw [BitVec.slt_iff_toInt_lt]
          exact greater
        simp only [apply, combine, if_neg greater, if_neg notLess]
        rfl

theorem apply_eq_ok (combined : operator.combine left right = .ok value) :
    ∃ result, operator.apply left.toInt right.toInt = .ok result ∧
      signedWord result = value.toInt := by
  have agrees := operator.apply_toInt left right
  rw [combined] at agrees
  cases applied : operator.apply left.toInt right.toInt with
  | error cause =>
      rw [applied] at agrees
      cases agrees
  | ok result =>
      rw [applied] at agrees
      injection agrees with cut
      exact ⟨result, rfl, cut⟩

theorem apply_eq_error (fails : operator.combine left right = .error cause) :
    operator.apply left.toInt right.toInt = .error cause := by
  have agrees := operator.apply_toInt left right
  rw [fails] at agrees
  cases applied : operator.apply left.toInt right.toInt with
  | error other =>
      rw [applied] at agrees
      cases agrees
      rfl
  | ok result =>
      rw [applied] at agrees
      cases agrees

theorem eq_of_combine_eq_error
    (fails : operator.combine left right = .error cause) :
    right = 0 ∧ (operator = .divide ∧ cause = .divisionByZero ∨
      operator = .modulo ∧ cause = .moduloByZero) := by
  cases operator with
  | divide =>
      simp only [combine] at fails
      split at fails
      · rename_i zero
        cases fails
        exact ⟨zero, .inl ⟨rfl, rfl⟩⟩
      · cases fails
  | modulo =>
      simp only [combine] at fails
      split at fails
      · rename_i zero
        cases fails
        exact ⟨zero, .inr ⟨rfl, rfl⟩⟩
      · cases fails
  | _ => cases fails

end Operator

namespace Instruction

variable {machine : Machine} {below : List Int} {operator : Operator}
  {left right value : BitVec 32} {cause : Fault}

theorem execute_compute (combined : operator.combine left right = .ok value)
    (operands : machine.stack = right.toInt :: left.toInt :: below) :
    (compute operator).execute machine =
      .ok { machine with stack := value.toInt :: below } := by
  obtain ⟨result, applied, cut⟩ := Operator.apply_eq_ok combined
  cases machine
  cases operands
  simp only [execute, Machine.operand, List.getD_cons_zero,
    List.getD_cons_succ, applied, cut]
  rfl

theorem execute_compute_of_error
    (fails : operator.combine left right = .error cause)
    (operands : machine.stack = right.toInt :: left.toInt :: below) :
    ((compute operator).execute machine).outcome = .fault cause := by
  cases machine
  cases operands
  simp only [execute, Machine.operand, List.getD_cons_zero,
    List.getD_cons_succ, Operator.apply_eq_error fails]
  rfl

theorem execute_invert (operand : machine.stack = value.toInt :: below) :
    invert.execute machine =
      .ok { machine with
        stack := (if value = 0 then 1 else 0 : BitVec 32).toInt :: below } := by
  cases machine
  cases operand
  by_cases zero : value = 0
  · have zeroTop : value.toInt = 0 := (toInt_eq_zero_iff value).2 zero
    simp only [execute, Machine.operand, List.getD_cons_zero, if_pos zeroTop,
      if_pos zero]
    rfl
  · have nonzeroTop : value.toInt ≠ 0 := mt (toInt_eq_zero_iff value).1 zero
    simp only [execute, Machine.operand, List.getD_cons_zero,
      if_neg nonzeroTop, if_neg zero]
    rfl

end Instruction

end Esoteric.Grid.Befunge
