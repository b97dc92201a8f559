import Esoteric.Proofs.Grid.Argh.Failure
import Esoteric.Proofs.Playfield.Stop

/-! A jump is made in a single cycle, up to the first cell that holds the value on
top of the stack. -/

namespace Esoteric.Grid.Argh

variable {machine : Machine} {direction : Direction} {target : Int}
  {rest : List Int}

namespace Instruction

/-- The number of cells that a jump passes over, whether it lands or not. -/
def slide (machine : Machine) (direction : Direction) (target : Int) : Nat :=
  ((machine.field.ray machine.pointer direction).takeWhile (· ≠ target)).length

theorem isLeast_slide (machine : Machine) (direction : Direction)
    (target : Int) :
    IsLeast {distance | machine.field.StopsAt direction target
      machine.pointer distance} (slide machine direction target) :=
  machine.field.isLeast_search direction target machine.pointer

theorem executeJump_of_empty (direction : Direction)
    (empty : machine.stack = []) :
    executeJump direction machine = .ok { machine with heading := direction } := by
  simp only [executeJump, empty]

theorem executeJump_of_stored (operand : machine.stack = target :: rest)
    (stored : machine.field.cell? (machine.pointer.moved direction
      (slide machine direction target)) = some target) :
    executeJump direction machine = .ok
      { machine with
        heading := direction
        pointer := machine.pointer.moved direction
          (slide machine direction target) } := by
  rw [slide, Playfield.cell?_search] at stored
  have met := (Option.ite_none_right_eq_some.1 stored).1
  simp only [executeJump, operand, if_pos (Playfield.length_takeWhile_lt met)]
  rfl

theorem executeJump_of_outside (operand : machine.stack = target :: rest)
    (outside : machine.field.cell? (machine.pointer.moved direction
      (slide machine direction target)) = none) :
    executeJump direction machine = .fault
      (.noLanding target (machine.pointer.moved direction
        (slide machine direction target)))
      { machine with
        heading := direction
        pointer := machine.pointer.moved direction
          (slide machine direction target) } := by
  rw [slide, Playfield.cell?_search, ite_eq_right_iff] at outside
  have missed : target ∉ machine.field.ray machine.pointer direction :=
    fun met => nomatch outside met
  rw [slide, Playfield.takeWhile_of_not_mem missed]
  exact executeJump_of_crosses operand (machine.field.crosses_ray ..) missed

end Instruction

/-- A jump turns first. It then slides to where the value on top of the stack is
met, which may be where it starts, and goes on behind that cell; it fails where the
value is not met before the playfield ends, in words that name the value and the
place unless one of their numbers has too many digits. -/
theorem cycle_of_jump (machine : Machine) (direction : Direction)
    (holds : machine.Holds (jumpLetter direction)) :
    (machine.stack = [] →
      (machine.cycle .argh).outcome = .ok ∧
        (machine.cycle .argh).state =
          { machine with
            heading := direction
            pointer := machine.pointer.advance direction
            cycles := machine.cycles + 1 }) ∧
      ∀ target rest, machine.stack = target :: rest →
        ∃ distance,
          IsLeast {distance | machine.field.StopsAt direction target
            machine.pointer distance} distance ∧
          (target = ((jumpLetter direction).toNat : Int) → distance = 0) ∧
          let stop := machine.pointer.moved direction distance
          (machine.field.contains stop = true →
            machine.field.cell? stop = some target ∧
              (machine.cycle .argh).outcome = .ok ∧
              (machine.cycle .argh).state =
                { machine with
                  heading := direction
                  pointer := machine.pointer.moved direction (distance + 1)
                  cycles := machine.cycles + 1 }) ∧
            (machine.field.contains stop = false →
              (machine.cycle .argh).outcome =
                  .fault (.noLanding target stop) ∧
                (machine.cycle .argh).state =
                  { machine with heading := direction, pointer := stop } ∧
                ((∀ number ∈ target :: stop.numbers, Numeral.Short number) →
                  (machine.cycle .argh).outcome.raised? =
                    some (.failure ("jump found no " ++ toString target ++
                      " before leaving the grid at " ++ stop.render))) ∧
                ((∃ number ∈ target :: stop.numbers, ¬ Numeral.Short number) →
                  (machine.cycle .argh).outcome.raised? = some .overlong)) := by
  refine ⟨?_, ?_⟩
  · intro empty
    exact cycle_of_success (.jump direction) holds
      (Instruction.executeJump_of_empty direction empty)
  · intro target rest operand
    have least := Instruction.isLeast_slide machine direction target
    refine ⟨Instruction.slide machine direction target, least, ?_, ?_, ?_⟩
    · rintro rfl
      apply Nat.eq_zero_of_le_zero
      apply least.2
      right
      rw [Position.moved_zero]
      exact holds
    · intro contained
      obtain absent | stored := least.1
      · rw [Playfield.contains_eq_false.2 absent] at contained
        contradiction
      · refine ⟨stored, ?_⟩
        have jumps := cycle_of_success (.jump direction) holds
          (Instruction.executeJump_of_stored operand stored)
        rwa [Machine.finish, Machine.advance, Position.advance_moved] at jumps
    · intro lacking
      have outside := Playfield.contains_eq_false.1 lacking
      obtain ⟨fails, left⟩ := cycle_of_letter (.jump direction) holds
        (Instruction.executeJump_of_outside operand outside)
      refine ⟨fails, left, ?_, ?_⟩
      · intro short
        rw [fails, Outcome.raised?, Fault.raised_noLanding short]
      · intro long
        rw [fails]
        exact congrArg some (Fault.raised_of_long long)

theorem cycle_of_jump_of_landing :
    let machine : Machine :=
      { field := ⟨#[#[32, -7], #[9, 8, 7], #[0, 75]], .strict⟩
        pointer := ⟨1, 2⟩
        stack := [-7, 4] }
    machine.Holds (jumpLetter .up) ∧
      (machine.cycle .argh).outcome = .ok ∧
      (machine.cycle .argh).state =
        { machine with heading := .up, pointer := ⟨1, -1⟩, cycles := 1 } := by
  intro machine
  have holds : machine.Holds (jumpLetter .up) := rfl
  obtain ⟨distance, least, _, lands, _⟩ :=
    (cycle_of_jump machine .up holds).2 (-7) [4] rfl
  obtain rfl : distance = 2 := by
    apply least.unique
    refine ⟨.inr rfl, ?_⟩
    intro distance
    match distance with
    | 0 | 1 =>
        rintro (absent | found)
        · contradiction
        · exact absurd found (by decide)
    | distance + 2 => exact fun _ => Nat.le_add_left 2 distance
  exact ⟨holds, (lands rfl).2⟩

end Esoteric.Grid.Argh
