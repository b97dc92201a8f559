namespace Esoteric.Brainfuck

inductive Command where
  | right
  | left
  | increment
  | decrement
  | output
  | input
  | opening
  | closing
deriving DecidableEq, Repr

/-- Every other character is a comment. -/
def Command.ofChar? : Char → Option Command
  | '>' => some right
  | '<' => some left
  | '+' => some increment
  | '-' => some decrement
  | '.' => some output
  | ',' => some input
  | '[' => some opening
  | ']' => some closing
  | _ => none

abbrev Program := Array Char

namespace Program

/-- The character at a place; negative places count from the end. -/
def character? (program : Program) (place : Int) : Option Char :=
  match place with
  | .ofNat place => program[place]?
  | .negSucc place =>
      if place < program.size then
        program[program.size - 1 - place]?
      else
        none

theorem lt_size_of_character? {program : Program} {place : Int} {c : Char}
    (found : program.character? place = some c) : place < program.size := by
  cases place with
  | ofNat place =>
      obtain ⟨bound, _⟩ := Array.getElem?_eq_some_iff.1 found
      simpa using bound
  | negSucc place => omega

/-- The place of the first closing bracket, from a place on, that ends more
loops than were begun. So many loops as the depth says may end before. -/
def closing? (program : Program) (depth : Nat) (place : Int) : Option Int :=
  match _found : program.character? place with
  | none => none
  | some c =>
      if c = ']' then
        match depth with
        | 0 => some place
        | depth + 1 => program.closing? depth (place + 1)
      else if c = '[' then
        program.closing? (depth + 1) (place + 1)
      else
        program.closing? depth (place + 1)
termination_by (program.size - place).toNat
decreasing_by all_goals have := lt_size_of_character? _found; omega

/-- The place of the last opening bracket, before a place, that begins more
loops than were ended. So many loops as the depth says may begin after. -/
def opening? (program : Program) (depth : Nat) (place : Nat) : Option Nat :=
  match place with
  | 0 => none
  | place + 1 =>
      if program[place]? = some '[' then
        match depth with
        | 0 => some place
        | depth + 1 => program.opening? depth place
      else if program[place]? = some ']' then
        program.opening? (depth + 1) place
      else
        program.opening? depth place

end Program

end Esoteric.Brainfuck
