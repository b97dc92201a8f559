import Esoteric.Proofs.Brainfuck.Cycle
import Esoteric.Proofs.Tape

/-! The cells of a machine might as well be unsigned bytes. -/

namespace Esoteric.Brainfuck

open Run

namespace Unsigned

def setCell (machine : Machine) (value : Int) : Machine :=
  { machine with tape := machine.tape.write machine.head (value % 0x100) }

/-- The commands of a machine whose cells are unsigned bytes. A cell is printed
as it is. -/
def execute (command : Command) (machine : Machine) : Step Machine :=
  match command with
  | .increment => .ok (setCell machine (machine.cell + 1)).next
  | .decrement => .ok (setCell machine (machine.cell - 1)).next
  | .output =>
      .ok { machine.next with
        output := machine.output ++ (Char.ofNat machine.cell.toNat).toString }
  | .input =>
      .ok { (setCell machine machine.input.next).next with
        input := machine.input.rest }
  | .right | .left | .opening | .closing => machine.execute command

def cycle (machine : Machine) : Step Machine :=
  machine.cycleBy execute

end Unsigned

namespace Machine

variable {machine : Machine}

def Signed (machine : Machine) : Prop :=
  ∀ cell ∈ machine.tape.cells, -0x80 ≤ cell ∧ cell < 0x80

def unsigned (machine : Machine) : Machine :=
  { machine with tape := machine.tape.map (· % 0x100) }

theorem Signed.cell (signed : machine.Signed) :
    -0x80 ≤ machine.cell ∧ machine.cell < 0x80 := by
  apply Tape.holds_read _ signed
  decide

theorem Signed.setCell (signed : machine.Signed) (value : Int) :
    (machine.setCell value).Signed := by
  apply Tape.holds_write _ signed
  · exact ⟨signedByte_lower value, signedByte_upper value⟩
  · decide

theorem Signed.execute (signed : machine.Signed) (command : Command) :
    (machine.execute command).state.Signed := by
  cases command with
  | increment => exact signed.setCell (machine.cell + 1)
  | decrement => exact signed.setCell (machine.cell - 1)
  | input => exact signed.setCell machine.input.next
  | opening =>
      simp only [Machine.execute, enterLoop]
      split
      · split <;> exact signed
      · exact signed
  | closing =>
      simp only [Machine.execute, repeatLoop]
      split
      · exact signed
      · split <;> exact signed
  | right | left | output => exact signed

theorem cell_unsigned (machine : Machine) :
    machine.unsigned.cell = machine.cell % 0x100 :=
  Tape.read_map (by rfl) machine.tape machine.head

/-- Loops end at the same cells: no signed byte but zero is zero modulo 256. -/
theorem Signed.cell_unsigned_eq_zero (signed : machine.Signed) :
    machine.unsigned.cell = 0 ↔ machine.cell = 0 := by
  obtain ⟨lower, upper⟩ := signed.cell
  rw [cell_unsigned]
  omega

theorem setCell_unsigned (machine : Machine) (value : Int) {other : Int}
    (same : other % 0x100 = value % 0x100) :
    Unsigned.setCell machine.unsigned other =
      (machine.setCell value).unsigned := by
  have low : signedByte value % 0x100 = value % 0x100 := by
    unfold signedByte
    exact Int.bmod_emod
  have written : (machine.tape.map (· % 0x100)).write machine.head
      (signedByte value % 0x100) =
        (machine.tape.write machine.head (signedByte value)).map (· % 0x100) :=
    Tape.write_map (by rfl) ..
  rw [low] at written
  simp only [Unsigned.setCell, unsigned, Machine.setCell, same, written]

theorem Signed.execute_unsigned (signed : machine.Signed) (command : Command) :
    Unsigned.execute command machine.unsigned =
      (machine.execute command).map unsigned := by
  have sameProgram : machine.unsigned.program = machine.program := rfl
  have samePointer : machine.unsigned.pointer = machine.pointer := rfl
  have sameInput : machine.unsigned.input = machine.input := rfl
  cases command with
  | increment =>
      have same : (machine.unsigned.cell + 1) % 0x100 =
          (machine.cell + 1) % 0x100 := by
        rw [cell_unsigned, Int.emod_add_emod]
      simp only [Unsigned.execute, setCell_unsigned machine _ same]
      rfl
  | decrement =>
      have same : (machine.unsigned.cell - 1) % 0x100 =
          (machine.cell - 1) % 0x100 := by
        rw [cell_unsigned, Int.emod_sub_emod]
      simp only [Unsigned.execute, setCell_unsigned machine _ same]
      rfl
  | output =>
      simp only [Unsigned.execute, cell_unsigned]
      rfl
  | input =>
      have written := setCell_unsigned machine machine.input.next rfl
      simp only [Unsigned.execute, sameInput, written]
      rfl
  | opening =>
      simp only [Unsigned.execute, Machine.execute, enterLoop,
        signed.cell_unsigned_eq_zero, sameProgram, samePointer]
      split
      · split <;> rfl
      · rfl
  | closing =>
      simp only [Unsigned.execute, Machine.execute, repeatLoop,
        signed.cell_unsigned_eq_zero, sameProgram, samePointer]
      split
      · rfl
      · split <;> rfl
  | right | left => rfl

def Represents (machine counterpart : Machine) : Prop :=
  counterpart = machine.unsigned ∧ machine.Signed

theorem Represents.cycle {counterpart : Machine}
    (represents : Represents machine counterpart) :
    machine.cycle.Related Represents (Unsigned.cycle counterpart) := by
  have same := represents
  obtain ⟨rfl, signed⟩ := represents
  rw [cycle_eq_cycleBy, Unsigned.cycle]
  apply cycleBy_related same rfl rfl
  · intro command
    rw [signed.execute_unsigned]
    exact ⟨rfl, rfl, signed.execute command⟩
  · exact ⟨rfl, signed⟩
  · rintro state _ ⟨rfl, signed⟩
    exact ⟨rfl, signed⟩

/-- Machines with signed and with unsigned cells that begin alike have the same
outcomes, and at no time differ but for the sign of their bytes. -/
theorem unsigned_run (program : Program) (input : Input) (turn : Nat) :
    let start : Machine := { program, input }
    outcome Unsigned.cycle turn start = outcome cycle turn start ∧
      after Unsigned.cycle (turn + 1) start =
        (after cycle (turn + 1) start).unsigned ∧
      (after cycle (turn + 1) start).Signed := by
  intro start
  have represents : Represents start start := by
    constructor
    · simp only [start, unsigned, Tape.map_blank]
    · intro cell member
      exact absurd member (Array.not_mem_empty cell)
  have step : ∀ state counterpart, Represents state counterpart → True →
      state.cycle.Related Represents (Unsigned.cycle counterpart) :=
    fun _ _ represents _ => represents.cycle
  exact lockstep step represents (fun _ _ => trivial) turn
    (Nat.lt_succ_self turn)

end Machine

end Esoteric.Brainfuck
