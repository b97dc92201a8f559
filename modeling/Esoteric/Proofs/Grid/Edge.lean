import Esoteric.Proofs.Grid.Stack
import Esoteric.Proofs.Playfield.Access

namespace Esoteric

/-- An access of data outside the stored cells has been refused. -/
def Outcome.isRefusal : Outcome → Bool
  | .fault (.readOutside _) => true
  | .fault (.writeOutside _) => true
  | _ => false

namespace Playfield

variable {field other : Playfield}

def withEdge (edge : Edge) (field : Playfield) : Playfield :=
  { field with edge }

theorem ray_congr
    (same : ∀ position, other.cell? position = field.cell? position)
    (position : Position) (direction : Direction) :
    other.ray position direction = field.ray position direction := by
  fun_induction ray field position direction with
  | case1 position outside =>
      exact ray_of_none direction ((same position).trans outside)
  | case2 position value stored induction =>
      rw [ray_of_some direction ((same position).trans stored), induction]

theorem set_withEdge (edge : Edge) (field : Playfield) (position : Position)
    (value : Int) :
    (field.withEdge edge).set position value =
      (field.set position value).withEdge edge := by
  unfold set
  split <;> rfl

end Playfield

namespace Grid

open Run

variable {machine counterpart : Machine} {filler : Int}

namespace Machine

def withEdge (edge : Edge) (machine : Machine) : Machine :=
  { machine with field := machine.field.withEdge edge }

/-- Copies of one machine, the first with a strict edge and the second with a
silent one. -/
structure Apart (filler : Int) (machine counterpart : Machine) : Prop where
  strict : machine.field.edge = .strict
  copy : counterpart = machine.withEdge (.silent filler)

theorem ray_withEdge (edge : Edge) (machine : Machine) (position : Position)
    (direction : Direction) :
    (machine.withEdge edge).field.ray position direction =
      machine.field.ray position direction := by
  have sameCells : ∀ position, (machine.withEdge edge).field.cell? position =
      machine.field.cell? position := fun _ => rfl
  exact Playfield.ray_congr sameCells position direction

theorem load_withEdge (machine : Machine)
    (strict : machine.field.edge = .strict) {position : Position}
    {use other : Int → Step Machine}
    (uses : ∀ value, (use value).Related (Apart filler) (other value))
    (kept : (machine.load position use).outcome.isRefusal = false) :
    (machine.load position use).Related (Apart filler)
      ((machine.withEdge (.silent filler)).load position other) := by
  cases stored : machine.field.cell? position with
  | none =>
      simp only [load, Playfield.read_of_strict strict stored] at kept
      contradiction
  | some value =>
      have silent :
          (machine.withEdge (.silent filler)).field.cell? position = some value :=
        stored
      simp only [load, Playfield.read_of_some stored,
        Playfield.read_of_some silent]
      exact uses value

theorem store_withEdge (machine : Machine)
    (strict : machine.field.edge = .strict) {position : Position} {value : Int}
    (kept : (machine.store position value).outcome.isRefusal = false) :
    (machine.store position value).Related (Apart filler)
      ((machine.withEdge (.silent filler)).store position value) := by
  cases stored : machine.field.cell? position with
  | none =>
      simp only [store, Playfield.write_of_strict strict stored] at kept
      contradiction
  | some present =>
      have silent : (machine.withEdge (.silent filler)).field.cell? position =
          some present := stored
      simp only [store, Playfield.write_of_some stored,
        Playfield.write_of_some silent]
      refine .ok ⟨?_, ?_⟩
      · rw [Playfield.set_edge]
        exact strict
      · simp only [withEdge, Playfield.set_withEdge]

end Machine

open Grid.Machine

namespace Befunge.Instruction

theorem execute_withEdge (instruction : Instruction)
    (strict : machine.field.edge = .strict)
    (kept : (instruction.execute machine).outcome.isRefusal = false) :
    (instruction.execute machine).Related (Apart filler)
      (instruction.execute (machine.withEdge (.silent filler))) := by
  cases instruction with
  | wander =>
      have sameChance :
          (machine.withEdge (.silent filler)).chance = machine.chance := rfl
      simp only [execute, sameChance]
      cases machine.chance.next with
      | none => exact .astray ⟨strict, rfl⟩
      | some direction => exact .ok ⟨strict, rfl⟩
  | readText =>
      have samePointer :
          (machine.withEdge (.silent filler)).pointer = machine.pointer := rfl
      have sameHeading :
          (machine.withEdge (.silent filler)).heading = machine.heading := rfl
      simp only [execute, executeText, samePointer, sameHeading, ray_withEdge]
      split
      · exact .ok ⟨strict, rfl⟩
      · exact .fault _ ⟨strict, rfl⟩
  | halt => exact .quit ⟨strict, rfl⟩
  | compute operator =>
      have sameOperands : ∀ depth,
          (machine.withEdge (.silent filler)).operand depth =
            machine.operand depth := fun _ => rfl
      simp only [execute, sameOperands]
      cases operator.apply (machine.operand 1) (machine.operand 0) with
      | ok result => exact .ok ⟨strict, rfl⟩
      | error cause => exact .fault cause ⟨strict, rfl⟩
  | put =>
      by_cases enough : 3 ≤ machine.stack.length
      · have enoughCopied :
            3 ≤ (machine.withEdge (.silent filler)).stack.length := enough
        rw [execute_put enough] at kept ⊢
        rw [execute_put enoughCopied]
        exact store_withEdge (machine.consume 3) strict kept
      · have short : machine.stack.length < 3 := Nat.lt_of_not_le enough
        have shortCopied :
            (machine.withEdge (.silent filler)).stack.length < 3 := short
        rw [execute_put_of_short short, execute_put_of_short shortCopied]
        exact .fault _ ⟨strict, rfl⟩
  | get =>
      by_cases enough : 2 ≤ machine.stack.length
      · have enoughCopied :
            2 ≤ (machine.withEdge (.silent filler)).stack.length := enough
        rw [execute_get enough] at kept ⊢
        rw [execute_get enoughCopied]
        refine load_withEdge (machine.consume 2) strict ?_ kept
        intro value
        exact .ok ⟨strict, rfl⟩
      · have short : machine.stack.length < 2 := Nat.lt_of_not_le enough
        have shortCopied :
            (machine.withEdge (.silent filler)).stack.length < 2 := short
        rw [execute_get_of_short short, execute_get_of_short shortCopied]
        exact .fault _ ⟨strict, rfl⟩
  | showNumber =>
      apply printNumber_related
      · exact ⟨strict, rfl⟩
      · exact fun _ => ⟨strict, rfl⟩
  | _ => exact .ok ⟨strict, rfl⟩

end Befunge.Instruction

namespace Argh.Instruction

theorem executeJump_withEdge (direction : Direction)
    (strict : machine.field.edge = .strict) :
    (executeJump direction machine).Related (Apart filler)
      (executeJump direction (machine.withEdge (.silent filler))) := by
  have sameStack :
      (machine.withEdge (.silent filler)).stack = machine.stack := rfl
  have samePointer :
      (machine.withEdge (.silent filler)).pointer = machine.pointer := rfl
  simp only [executeJump, sameStack, samePointer, ray_withEdge]
  cases machine.stack with
  | nil => exact .ok ⟨strict, rfl⟩
  | cons target rest =>
      dsimp only
      split
      · exact .ok ⟨strict, rfl⟩
      · exact .fault _ ⟨strict, rfl⟩

theorem execute_withEdge (instruction : Instruction)
    (strict : machine.field.edge = .strict)
    (kept : (instruction.execute machine).outcome.isRefusal = false) :
    (instruction.execute machine).Related (Apart filler)
      (instruction.execute (machine.withEdge (.silent filler))) := by
  -- Only `load` and `store` consult the edge; a jump looks along stored cells.
  have sameStack :
      (machine.withEdge (.silent filler)).stack = machine.stack := rfl
  have sameOperand :
      (machine.withEdge (.silent filler)).operand 0 = machine.operand 0 := rfl
  have samePointer :
      (machine.withEdge (.silent filler)).pointer = machine.pointer := rfl
  cases instruction with
  | head direction => exact .ok ⟨strict, rfl⟩
  | jump direction => exact executeJump_withEdge direction strict
  | turnRight | turnLeft =>
      simp only [execute, sameOperand]
      split <;> exact .ok ⟨strict, rfl⟩
  | halt => exact .quit ⟨strict, rfl⟩
  | duplicate =>
      simp only [execute, sameStack]
      cases machine.stack with
      | nil => exact .ok ⟨strict, rfl⟩
      | cons top rest => exact .ok ⟨strict, rfl⟩
  | discard => exact .ok ⟨strict, rfl⟩
  | copy side | print side =>
      refine load_withEdge machine strict ?_ kept
      intro value
      exact .ok ⟨strict, rfl⟩
  | add side | subtract side =>
      cases values : machine.stack with
      | nil =>
          simp only [execute, sameStack, values]
          exact .ok ⟨strict, rfl⟩
      | cons top rest =>
          simp only [execute, values] at kept
          simp only [execute, sameStack, values]
          refine load_withEdge machine strict ?_ kept
          intro value
          exact .ok ⟨strict, rfl⟩
  | fetch side =>
      cases values : machine.stack with
      | nil =>
          simp only [execute, sameStack, values]
          exact .ok ⟨strict, rfl⟩
      | cons top rest =>
          simp only [execute, values] at kept
          simp only [execute, sameStack, values]
          exact store_withEdge { machine with stack := rest } strict kept
  | ask side => exact store_withEdge machine.consumeInput strict kept
  | clear side => exact store_withEdge machine strict kept
  | comment =>
      simp only [execute] at kept
      simp only [execute, samePointer]
      split
      · rename_i atOrigin
        rw [if_pos atOrigin] at kept
        refine load_withEdge machine strict ?_ kept
        intro value
        split <;> exact .ok ⟨strict, rfl⟩
      · exact .ok ⟨strict, rfl⟩

end Argh.Instruction

namespace Machine

theorem Apart.finish (apart : Apart filler machine counterpart) :
    Apart filler machine.finish counterpart.finish := by
  obtain ⟨strict, rfl⟩ := apart
  exact ⟨strict, rfl⟩

theorem cycle_withEdge (dialect : Dialect)
    (apart : Apart filler machine counterpart)
    (kept : (machine.cycle dialect).outcome.isRefusal = false) :
    (machine.cycle dialect).Related (Apart filler)
      (counterpart.cycle dialect) := by
  have finishes : ∀ first second, Apart filler first second →
      Apart filler first.finish second.finish := fun _ _ => Apart.finish
  obtain ⟨strict, rfl⟩ := apart
  refine cycle_related dialect ⟨strict, rfl⟩ rfl rfl finishes ?_
  intro cell stored
  rw [outcome_cycle dialect stored] at kept
  cases dialect with
  | befunge =>
      refine Dialect.befunge_related ⟨strict, rfl⟩ ?_
      intro instruction decoded
      simp only [Dialect.execute, decoded] at kept
      exact instruction.execute_withEdge strict kept
  | argh =>
      refine Dialect.argh_related ⟨strict, rfl⟩ ?_
      intro instruction decoded
      simp only [Dialect.execute, decoded] at kept
      exact instruction.execute_withEdge strict kept

/-- The edge of a playfield makes no difference before the first access of data
outside it. -/
theorem withEdge_run (dialect : Dialect) (machine : Machine) (filler : Int)
    (count : Nat)
    (kept : ∀ turn < count,
      (outcome (cycle dialect) turn (machine.withEdge .strict)).isRefusal =
        false) :
    ∀ turn < count,
      outcome (cycle dialect) turn (machine.withEdge (.silent filler)) =
          outcome (cycle dialect) turn (machine.withEdge .strict) ∧
        after (cycle dialect) (turn + 1) (machine.withEdge (.silent filler)) =
          (after (cycle dialect) (turn + 1)
            (machine.withEdge .strict)).withEdge (.silent filler) := by
  have step : ∀ state counterpart, Apart filler state counterpart →
      (state.cycle dialect).outcome.isRefusal = false →
        (state.cycle dialect).Related (Apart filler)
          (counterpart.cycle dialect) := fun _ _ => cycle_withEdge dialect
  have apart : Apart filler (machine.withEdge .strict)
      (machine.withEdge (.silent filler)) := ⟨rfl, rfl⟩
  intro turn bound
  obtain ⟨sameOutcome, reached⟩ := lockstep step apart kept turn bound
  exact ⟨sameOutcome, reached.copy⟩

theorem withEdge_run_of_leaving :
    let machine : Machine := { field := ⟨#[#[48, 48, 103]], .strict⟩ }
    (∀ turn < 5, (outcome (cycle .befunge) turn
        (machine.withEdge .strict)).isRefusal = false) ∧
      ∀ turn < 5,
        outcome (cycle .befunge) turn (machine.withEdge (.silent 32)) =
            outcome (cycle .befunge) turn (machine.withEdge .strict) ∧
          after (cycle .befunge) (turn + 1) (machine.withEdge (.silent 32)) =
            (after (cycle .befunge) (turn + 1)
              (machine.withEdge .strict)).withEdge (.silent 32) := by
  intro machine
  have kept : ∀ turn < 5, (outcome (cycle .befunge) turn
      (machine.withEdge .strict)).isRefusal = false := by decide
  exact ⟨kept, withEdge_run .befunge machine 32 5 kept⟩

end Machine

end Grid

end Esoteric
