import Esoteric.Proofs.Grid.Justified
import Esoteric.Proofs.Grid.Letter
import Esoteric.Proofs.Playfield.Crossing
import Esoteric.Proofs.Wording

namespace Esoteric.Grid.Argh

/-- The ways in which a cycle fails, with what it leaves of the machine. -/
inductive Fails (machine : Machine) : Fault → Machine → Prop
  | pointerOutside (outside : machine.field.cell? machine.pointer = none) :
      Fails machine (.pointerOutside machine.pointer) machine
  | noLanding {direction : Direction} {target : Int} {rest passed : List Int}
      {finish : Position} (holds : machine.Holds (jumpLetter direction))
      (operand : machine.stack = target :: rest)
      (crosses : machine.field.Crosses direction machine.pointer passed finish)
      (missed : target ∉ passed) :
      Fails machine (.noLanding target finish)
        { machine with heading := direction, pointer := finish }
  | look {side : Side} {c : Char} (holds : machine.Holds (side.letter c))
      (looks : c = 's' ∨ c = 'p')
      (refused : machine.field.Refuses
        (machine.pointer.advance side.direction)) :
      Fails machine
        (.readOutside (machine.pointer.advance side.direction)) machine
  | combine {side : Side} {c : Char} (holds : machine.Holds (side.letter c))
      (combines : c = 'a' ∨ c = 'r') (filled : machine.stack ≠ [])
      (refused : machine.field.Refuses
        (machine.pointer.advance side.direction)) :
      Fails machine
        (.readOutside (machine.pointer.advance side.direction)) machine
  | clear {side : Side} (holds : machine.Holds (side.letter 'e'))
      (refused : machine.field.Refuses
        (machine.pointer.advance side.direction)) :
      Fails machine
        (.writeOutside (machine.pointer.advance side.direction)) machine
  | ask {side : Side} (holds : machine.Holds (side.letter 'g'))
      (refused : machine.field.Refuses
        (machine.pointer.advance side.direction)) :
      Fails machine
        (.writeOutside (machine.pointer.advance side.direction))
        { machine with input := machine.input.rest }
  | fetch {side : Side} {top : Int} {rest : List Int}
      (holds : machine.Holds (side.letter 'f'))
      (operand : machine.stack = top :: rest)
      (refused : machine.field.Refuses
        (machine.pointer.advance side.direction)) :
      Fails machine
        (.writeOutside (machine.pointer.advance side.direction))
        { machine with stack := rest }
  | comment (holds : machine.Holds '#') (stands : machine.pointer = .origin)
      (refused : machine.field.Refuses ⟨1, 0⟩) :
      Fails machine (.readOutside ⟨1, 0⟩) machine

variable {machine left : Machine} {cause : Fault} {direction : Direction}
  {target : Int} {passed rest : List Int} {finish : Position}

namespace Instruction

theorem executeJump_of_crosses (operand : machine.stack = target :: rest)
    (crosses : machine.field.Crosses direction machine.pointer passed finish)
    (missed : target ∉ passed) :
    executeJump direction machine = .fault (.noLanding target finish)
      { machine with heading := direction, pointer := finish } := by
  obtain rfl := crosses.ends
  obtain rfl := crosses.eq_ray
  simp only [executeJump, operand, Playfield.takeWhile_of_not_mem missed,
    Nat.lt_irrefl, if_false]

theorem executeJump_justified (direction : Direction)
    (holds : machine.Holds (jumpLetter direction)) :
    (executeJump direction machine).Justified (machine.Holds 'q') False
      (Fails machine) := by
  cases operand : machine.stack with
  | nil =>
      apply Step.Justified.of_ok
      simp only [executeJump, operand]
      rfl
  | cons target rest =>
      by_cases met : target ∈ machine.field.ray machine.pointer direction
      · apply Step.Justified.of_ok
        simp only [executeJump, operand,
          if_pos (Playfield.length_takeWhile_lt met)]
        rfl
      · have crosses := machine.field.crosses_ray direction machine.pointer
        rw [executeJump_of_crosses operand crosses met]
        exact .of_fault (.noLanding holds operand crosses met)

theorem combine_justified {side : Side} {c : Char}
    (holds : machine.Holds (side.letter c)) (combines : c = 'a' ∨ c = 'r')
    (operand : machine.stack = target :: rest) (combined : Int → Int) :
    (machine.load (machine.pointer.advance side.direction) fun value =>
      .ok { machine with stack := combined value :: rest }).Justified
        (machine.Holds 'q') False (Fails machine) := by
  apply Machine.load_justified
  · apply Fails.combine holds combines
    rw [operand]
    exact List.cons_ne_nil target rest
  · intro value
    exact .of_ok rfl

theorem execute_justified (instruction : Instruction)
    (holds : machine.Holds instruction.letter) :
    (instruction.execute machine).Justified (machine.Holds 'q') False
      (Fails machine) := by
  cases instruction with
  | jump direction => exact executeJump_justified direction holds
  | turnRight | turnLeft =>
      rw [execute]
      split
      · exact .of_ok rfl
      · exact .of_ok rfl
  | halt => exact .of_quit holds
  | duplicate =>
      rw [execute]
      cases machine.stack with
      | nil => exact .of_ok rfl
      | cons top rest => exact .of_ok rfl
  | copy side =>
      apply Machine.load_justified
      · exact .look holds (.inl rfl)
      · intro value
        exact .of_ok rfl
  | print side =>
      apply Machine.load_justified
      · exact .look holds (.inr rfl)
      · intro value
        exact .of_ok rfl
  | add side =>
      rw [execute]
      cases operand : machine.stack with
      | nil => exact .of_ok rfl
      | cons top rest => exact combine_justified holds (.inl rfl) operand _
  | subtract side =>
      rw [execute]
      cases operand : machine.stack with
      | nil => exact .of_ok rfl
      | cons top rest => exact combine_justified holds (.inr rfl) operand _
  | fetch side =>
      rw [execute]
      cases operand : machine.stack with
      | nil => exact .of_ok rfl
      | cons top rest =>
          apply Machine.store_justified
          intro refused
          exact .fetch holds operand refused
  | ask side =>
      apply Machine.store_justified
      intro refused
      exact .ask holds refused
  | clear side => exact Machine.store_justified machine (.clear holds)
  | comment =>
      rw [execute]
      split
      · rename_i stands
        apply Machine.load_justified
        · rw [stands]
          exact .comment holds stands
        · intro value
          split
          · exact .of_ok rfl
          · exact .of_ok rfl
      · exact .of_ok rfl
  | head _ | discard => exact .of_ok rfl

end Instruction

theorem cycle_justified (machine : Machine) :
    (machine.cycle .argh).Justified (machine.Holds 'q') False
      (Fails machine) := by
  apply Machine.cycle_justified .argh .pointerOutside
  intro cell stored
  rw [Dialect.execute]
  cases decoded : Instruction.decode cell with
  | none => exact .of_ok rfl
  | some instruction =>
      exact instruction.execute_justified
        (Instruction.holds_letter stored decoded)

theorem execute_letter (instruction : Instruction) (machine : Machine) :
    Dialect.argh.execute (instruction.letter.toNat : Int) machine =
      instruction.execute machine := by
  simp only [Dialect.execute, Instruction.decode_letter]

theorem cycle_of_letter (instruction : Instruction)
    (holds : machine.Holds instruction.letter)
    (executed : instruction.execute machine = .fault cause left) :
    (machine.cycle .argh).outcome = .fault cause ∧
      (machine.cycle .argh).state = left := by
  apply Machine.cycle_of_failure .argh holds
  rw [execute_letter, executed]

theorem cycle_of_success {reached : Machine} (instruction : Instruction)
    (holds : machine.Holds instruction.letter)
    (executed : instruction.execute machine = .ok reached) :
    (machine.cycle .argh).outcome = .ok ∧
      (machine.cycle .argh).state = reached.finish := by
  apply Machine.cycle_of_ok .argh holds
  rw [execute_letter, executed]

theorem Fails.cycle (fails : Fails machine cause left) :
    (machine.cycle .argh).outcome = .fault cause ∧
      (machine.cycle .argh).state = left := by
  cases fails with
  | pointerOutside outside => exact Machine.cycle_of_outside .argh outside
  | @noLanding direction _ _ _ _ holds operand crosses missed =>
      apply cycle_of_letter (.jump direction) holds
      exact Instruction.executeJump_of_crosses operand crosses missed
  | @look side c holds looks refused =>
      obtain rfl | rfl := looks
      · apply cycle_of_letter (.copy side) holds
        exact Machine.load_of_refuses refused _
      · apply cycle_of_letter (.print side) holds
        exact Machine.load_of_refuses refused _
  | @combine side c holds combines filled refused =>
      obtain ⟨top, rest, operand⟩ := List.exists_cons_of_ne_nil filled
      obtain rfl | rfl := combines
      · apply cycle_of_letter (.add side) holds
        simp only [Instruction.execute, operand]
        exact Machine.load_of_refuses refused _
      · apply cycle_of_letter (.subtract side) holds
        simp only [Instruction.execute, operand]
        exact Machine.load_of_refuses refused _
  | @clear side holds refused =>
      apply cycle_of_letter (.clear side) holds
      exact Machine.store_of_refuses refused 0
  | @ask side holds refused =>
      apply cycle_of_letter (.ask side) holds
      refine Machine.store_of_refuses ?_ _
      exact refused
  | @fetch side top rest holds operand refused =>
      apply cycle_of_letter (.fetch side) holds
      simp only [Instruction.execute, operand]
      refine Machine.store_of_refuses ?_ _
      exact refused
  | comment holds stands refused =>
      apply cycle_of_letter .comment holds
      rw [Instruction.execute, if_pos stands, stands]
      exact Machine.load_of_refuses refused _

theorem Fails.proper (fails : Fails machine cause left) : cause.Proper := by
  rintro number rfl
  cases fails

theorem outcome_of_halt (holds : machine.Holds 'q') :
    (machine.cycle .argh).outcome = .quit := by
  have executed : Dialect.argh.execute (('q').toNat : Int) machine =
      Instruction.halt.execute machine := execute_letter .halt machine
  rw [Machine.outcome_cycle .argh holds, executed]
  rfl

/-- A cycle quits at one character, fails for the stated reasons and succeeds
otherwise. A failure is told in words, unless these hold a number with too many
digits. -/
theorem argh_outcome_iff (machine : Machine) :
    ((machine.cycle .argh).outcome = .quit ↔ machine.Holds 'q') ∧
      (∀ cause, (machine.cycle .argh).outcome = .fault cause ↔
        ∃ left, Fails machine cause left) ∧
      ((machine.cycle .argh).outcome = .ok ↔
        ¬ machine.Holds 'q' ∧ ∀ cause left, ¬ Fails machine cause left) ∧
      (machine.cycle .argh).outcome ≠ .astray ∧
      (∀ message,
        (machine.cycle .argh).outcome.raised? = some (.failure message) ↔
          ∃ cause left, Fails machine cause left ∧
            cause.message? = some message) ∧
      ((machine.cycle .argh).outcome.raised? = some .overlong ↔
        ∃ cause left, Fails machine cause left ∧
          ∃ number ∈ cause.numbers, ¬ Numeral.Short number) := by
  obtain ⟨quits, faults, succeeds, guided⟩ :=
    (cycle_justified machine).outcome_iff outcome_of_halt
      (fun _ _ fails => fails.cycle.1) not_false
  have raises := Outcome.raised?_iff faults fun _ _ => Fails.proper
  exact ⟨quits, faults, succeeds, guided, raises⟩

/-- A jump that misses a number with too many digits is no failure. -/
theorem overlong_of_missed_number :
    ¬ ∀ machine : Machine,
      (machine.cycle .argh).outcome = .ok ∨
        (machine.cycle .argh).outcome = .quit ∨
        ∃ message,
          (machine.cycle .argh).outcome.raised? = some (.failure message) := by
  intro meant
  let target : Int := (10 ^ Numeral.mostDigits : Nat)
  let machine : Machine := { field := ⟨#[#[76]], .strict⟩, stack := [target] }
  have missed : target ∉ [(76 : Int)] := by
    rw [List.mem_singleton]
    rintro same
    have short : Numeral.Short 76 := by decide
    rw [← same] at short
    exact Numeral.not_short_pow short
  have crosses : machine.field.Crosses .right machine.pointer [76] ⟨1, 0⟩ := by
    refine ⟨rfl, rfl, ?_⟩
    intro distance bound
    obtain rfl := Nat.lt_one_iff.1 bound
    rfl
  have holds : machine.Holds (jumpLetter .right) := rfl
  have fails := Fails.noLanding holds rfl crosses missed
  have outcome := fails.cycle.1
  have overlong : (Fault.noLanding target ⟨1, 0⟩).raised = .overlong :=
    Fault.raised_of_long ⟨target, List.mem_cons_self, Numeral.not_short_pow⟩
  obtain succeeds | quits | ⟨message, raises⟩ := meant machine
  · rw [outcome] at succeeds
    contradiction
  · rw [outcome] at quits
    contradiction
  · rw [outcome, Outcome.raised?, overlong] at raises
    have same := Option.some.inj raises
    contradiction

end Esoteric.Grid.Argh
