import Esoteric.Proofs.Grid.Stack

namespace Esoteric

/-- Only the instructions that reach into the playfield by coordinates complain
about a stack that is too short. -/
def Outcome.isShortage : Outcome → Bool
  | .fault (.shortage _) => true
  | _ => false

namespace Grid

open Run

variable {machine reached : Machine} {count limit left : Nat}

namespace Machine

def padded (zeros : Nat) (machine : Machine) : Machine :=
  machine.onto (List.replicate zeros 0)

theorem length_padded (machine : Machine) (zeros : Nat) :
    (machine.padded zeros).stack.length = machine.stack.length + zeros := by
  simp only [padded, onto, List.length_append, List.length_replicate]

theorem operand_padded (machine : Machine) (zeros depth : Nat) :
    (machine.padded zeros).operand depth = machine.operand depth := by
  by_cases within : depth < machine.stack.length
  · exact operand_onto _ within
  · have beyond : machine.stack.length ≤ depth := Nat.le_of_not_lt within
    simp only [operand, padded, onto, List.getD_eq_getElem?_getD]
    rw [List.getElem?_append_right beyond, List.getElem?_eq_none beyond,
      List.getElem?_replicate]
    split <;> rfl

theorem consume_padded (machine : Machine) (zeros count : Nat) :
    (machine.padded zeros).consume count =
      (machine.consume count).padded (zeros - (count - machine.stack.length)) := by
  simp only [consume, padded, onto, List.drop_append, List.drop_replicate]

/-- At most so many zeros lie below a stack that is the same otherwise. -/
def Padded (limit : Nat) (machine counterpart : Machine) : Prop :=
  ∃ left ≤ limit, counterpart = machine.padded left

theorem Padded.finish {counterpart : Machine}
    (padded : Padded limit machine counterpart) :
    Padded limit machine.finish counterpart.finish := by
  obtain ⟨left, bound, rfl⟩ := padded
  exact ⟨left, bound, finish_onto ..⟩

end Machine

namespace Befunge.Instruction

open Grid.Machine

/-- Absent operands and zeros are one and the same to every instruction that
does not need a number of them. -/
theorem execute_padded (instruction : Instruction) (machine : Machine)
    {zeros : Nat}
    (supplied : (instruction.execute machine).outcome.isShortage = false) :
    (instruction.execute machine).Related (Padded zeros)
      (instruction.execute (machine.padded zeros)) := by
  have unchanged : Padded zeros machine (machine.padded zeros) :=
    ⟨zeros, Nat.le_refl _, rfl⟩
  cases instruction with
  | head direction => exact .ok ⟨zeros, Nat.le_refl _, rfl⟩
  | wander =>
      have drawn : Padded zeros { machine with chance := machine.chance.rest }
          { machine.padded zeros with chance := machine.chance.rest } :=
        ⟨zeros, Nat.le_refl _, rfl⟩
      have sameChance : (machine.padded zeros).chance = machine.chance := rfl
      simp only [execute, sameChance]
      cases machine.chance.next with
      | none => exact .astray drawn
      | some direction => exact .ok ⟨zeros, Nat.le_refl _, rfl⟩
  | branchAcross =>
      simp only [execute, operand_padded, consume_padded]
      exact .ok ⟨_, Nat.sub_le .., rfl⟩
  | branchAlong =>
      simp only [execute, operand_padded, consume_padded]
      exact .ok ⟨_, Nat.sub_le .., rfl⟩
  | readText =>
      simp only [execute, padded, executeText_onto]
      exact (Step.Related.map _ _).mono fun _ _ same =>
        ⟨zeros, Nat.le_refl _, same⟩
  | bridge => exact .ok ⟨zeros, Nat.le_refl _, rfl⟩
  | halt => exact .quit unchanged
  | duplicate =>
      simp only [execute, operand_padded, consume_padded]
      exact .ok ⟨_, Nat.sub_le .., rfl⟩
  | swap =>
      simp only [execute, operand_padded, consume_padded]
      exact .ok ⟨_, Nat.sub_le .., rfl⟩
  | discard =>
      simp only [execute, consume_padded]
      exact .ok ⟨_, Nat.sub_le .., rfl⟩
  | digit value => exact .ok ⟨zeros, Nat.le_refl _, rfl⟩
  | compute operator =>
      simp only [execute, operand_padded, consume_padded]
      cases operator.apply (machine.operand 1) (machine.operand 0) with
      | ok result => exact .ok ⟨_, Nat.sub_le .., rfl⟩
      | error cause => exact .fault cause ⟨_, Nat.sub_le .., rfl⟩
  | invert =>
      simp only [execute, operand_padded, consume_padded]
      exact .ok ⟨_, Nat.sub_le .., rfl⟩
  | put =>
      by_cases enough : 3 ≤ machine.stack.length
      · have paddedEnough : 3 ≤ (machine.padded zeros).stack.length := by
          rw [length_padded]
          omega
        rw [execute_put enough, execute_put paddedEnough]
        simp only [operand_padded, consume_padded]
        rw [padded, store_onto]
        exact (Step.Related.map _ _).mono fun _ _ same =>
          ⟨_, Nat.sub_le .., same⟩
      · rw [execute_put_of_short (Nat.lt_of_not_le enough)] at supplied
        contradiction
  | get =>
      by_cases enough : 2 ≤ machine.stack.length
      · have paddedEnough : 2 ≤ (machine.padded zeros).stack.length := by
          rw [length_padded]
          omega
        rw [execute_get enough, execute_get paddedEnough]
        simp only [operand_padded, consume_padded]
        refine load_related rfl ⟨_, Nat.sub_le .., rfl⟩ ?_
        intro value
        exact .ok ⟨_, Nat.sub_le .., rfl⟩
      · rw [execute_get_of_short (Nat.lt_of_not_le enough)] at supplied
        contradiction
  | showNumber =>
      simp only [execute, operand_padded, consume_padded]
      apply printNumber_related ⟨_, Nat.sub_le .., rfl⟩
      intro text
      exact ⟨_, Nat.sub_le .., rfl⟩
  | showCharacter =>
      simp only [execute, operand_padded, consume_padded]
      exact .ok ⟨_, Nat.sub_le .., rfl⟩
  | askNumber => exact .ok ⟨zeros, Nat.le_refl _, rfl⟩
  | askCharacter => exact .ok ⟨zeros, Nat.le_refl _, rfl⟩

end Befunge.Instruction

namespace Machine

theorem cycle_padded {counterpart : Machine}
    (padded : Padded limit machine counterpart)
    (supplied : (machine.cycle .befunge).outcome.isShortage = false) :
    (machine.cycle .befunge).Related (Padded limit)
      (counterpart.cycle .befunge) := by
  have finishes : ∀ first second, Padded limit first second →
      Padded limit first.finish second.finish := fun _ _ => Padded.finish
  obtain ⟨left, bound, rfl⟩ := padded
  refine cycle_related .befunge ⟨left, bound, rfl⟩ rfl rfl finishes ?_
  intro cell stored
  rw [outcome_cycle .befunge stored] at supplied
  refine Dialect.befunge_related ⟨left, bound, rfl⟩ ?_
  intro instruction decoded
  simp only [Dialect.execute, decoded] at supplied
  refine (instruction.execute_padded machine supplied).mono ?_
  rintro state counterpart ⟨fewer, within, rfl⟩
  exact ⟨fewer, Nat.le_trans within bound, rfl⟩

/-- Below its values an empty stack holds zeros without end. -/
theorem padded_run (machine : Machine) (zeros count : Nat)
    (supplied : ∀ turn < count,
      (outcome (cycle .befunge) turn machine).isShortage = false) :
    ∀ turn < count,
      outcome (cycle .befunge) turn (machine.padded zeros) =
          outcome (cycle .befunge) turn machine ∧
        ∃ left ≤ zeros,
          after (cycle .befunge) (turn + 1) (machine.padded zeros) =
            (after (cycle .befunge) (turn + 1) machine).padded left := by
  have step : ∀ state counterpart, Padded zeros state counterpart →
      (state.cycle .befunge).outcome.isShortage = false →
        (state.cycle .befunge).Related (Padded zeros)
          (counterpart.cycle .befunge) := fun _ _ => cycle_padded
  exact lockstep step ⟨zeros, Nat.le_refl _, rfl⟩ supplied

theorem padded_run_of_lookup :
    let machine : Machine := { field := ⟨#[#[43, 58, 103, 64]], .strict⟩ }
    (∀ turn < 4,
        (outcome (cycle .befunge) turn machine).isShortage = false) ∧
      ∀ turn < 4,
        outcome (cycle .befunge) turn (machine.padded 3) =
            outcome (cycle .befunge) turn machine ∧
          ∃ left ≤ 3,
            after (cycle .befunge) (turn + 1) (machine.padded 3) =
              (after (cycle .befunge) (turn + 1) machine).padded left := by
  intro machine
  have supplied : ∀ turn < 4,
      (outcome (cycle .befunge) turn machine).isShortage = false := by decide
  exact ⟨supplied, padded_run machine 3 4 supplied⟩

end Machine

end Grid

end Esoteric
