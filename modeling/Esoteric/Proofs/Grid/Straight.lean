import Esoteric.Proofs.Grid.Cycle

namespace Esoteric

theorem Position.moved_moved (position : Position) (direction : Direction)
    (first second : Nat) :
    (position.moved direction first).moved direction second =
      position.moved direction (first + second) := by
  ext <;> simp [moved, Int.add_mul] <;> omega

theorem Position.moved_one (position : Position) (direction : Direction) :
    position.moved direction 1 = position.advance direction := by
  rw [moved_succ, moved_zero]

def Playfield.Spells (field : Playfield) (position : Position)
    (direction : Direction) (text : List Char) : Prop :=
  ∀ index (bound : index < text.length),
    field.cell? (position.moved direction index) =
      some (text[index].toNat : Int)

namespace Playfield

variable {field : Playfield} {position : Position} {direction : Direction}
  {character : Char} {first second : List Char}

instance (text : List Char) :
    Decidable (field.Spells position direction text) :=
  inferInstanceAs (Decidable (∀ index (_ : index < text.length), _))

theorem Spells.append (spells : field.Spells position direction (first ++ second)) :
    field.Spells position direction first ∧
      field.Spells (position.moved direction first.length) direction second := by
  refine ⟨?_, ?_⟩
  · intro index bound
    have stored := spells index (by rw [List.length_append]; omega)
    rwa [List.getElem_append_left bound] at stored
  · intro index bound
    have stored := spells (first.length + index) (by
      rw [List.length_append]
      omega)
    rw [List.getElem_append_right (Nat.le_add_right ..)] at stored
    simpa only [Position.moved_moved, Nat.add_sub_cancel_left] using stored

theorem Spells.head (spells : field.Spells position direction [character]) :
    field.cell? position = some (character.toNat : Int) := by
  have stored := spells 0 Nat.one_pos
  rwa [Position.moved_zero] at stored

theorem Spells.cons (spells : field.Spells position direction
    (character :: second)) :
    field.cell? position = some (character.toNat : Int) ∧
      field.Spells (position.advance direction) direction second := by
  rw [← List.singleton_append] at spells
  obtain ⟨first, later⟩ := spells.append
  rw [List.length_singleton, Position.moved_one] at later
  exact ⟨first.head, later⟩

theorem Spells.ray_eq (spells : field.Spells position direction first) :
    field.ray position direction =
      first.map (fun character => (character.toNat : Int)) ++
        field.ray (position.moved direction first.length) direction := by
  induction first generalizing position with
  | nil => rw [List.length_nil, Position.moved_zero, List.map_nil, List.nil_append]
  | cons character first induction =>
      obtain ⟨stored, later⟩ := spells.cons
      rw [ray_of_some direction stored, induction later, List.length_cons,
        Position.moved_succ]
      rfl

end Playfield

namespace Grid.Machine

open Run

/-- A machine a number of cells and cycles further on, with another stack. -/
def along (count : Nat) (stack : List Int) (machine : Machine) : Machine :=
  { machine with
    pointer := machine.pointer.moved machine.heading count
    stack
    cycles := machine.cycles + count }

variable {machine : Machine} {stack : List Int}

theorem along_along (first second : Nat) (middle stack : List Int)
    (machine : Machine) :
    (machine.along first middle).along second stack =
      machine.along (first + second) stack := by
  simp only [along, Position.moved_moved, Nat.add_assoc]

theorem reaches_along {instruction : Befunge.Instruction} {cell : Int}
    (stored : machine.field.cell? machine.pointer = some cell)
    (decoded : Befunge.Instruction.decode cell = some instruction)
    (executes : instruction.execute machine = .ok { machine with stack }) :
    Reaches (cycle .befunge) 1 machine (machine.along 1 stack) := by
  have succeeds : Dialect.befunge.execute cell machine =
      .ok { machine with stack } := by
    simp only [Dialect.execute, decoded, executes]
  have leaves : (machine.cycle .befunge).state = machine.along 1 stack := by
    rw [state_cycle_of_ok .befunge stored succeeds]
    simp only [along, finish, advance, Position.moved_one]
  rw [← leaves]
  refine .one ?_
  rw [outcome_cycle .befunge stored, succeeds]
  rfl

end Grid.Machine

end Esoteric
