import Esoteric.Proofs.Grid.Cycle
import Esoteric.Proofs.Grid.Word

namespace Esoteric.Grid

variable {machine : Machine} {c : Char} {cell : Int}

theorem symbol_character (c : Char) : symbol (c.toNat : Int) = c :=
  Char.ofNat_toNat c

/-- Numbers that are no code stand for NUL, and other characters are stood for by
their codes only. -/
theorem eq_of_symbol_eq (same : symbol cell = c) (named : c ≠ '\x00') :
    cell = c.toNat := by
  by_cases valid : cell.toNat.isValidChar
  · rw [symbol, Char.ofNat, dif_pos valid] at same
    have code : c.toNat = cell.toNat := by
      rw [← same]
      rfl
    have positive : c.toNat ≠ 0 := by
      intro zero
      apply named
      rw [← Char.ofNat_toNat c, zero]
    omega
  · rw [symbol, Char.ofNat, dif_neg valid] at same
    exact absurd same.symm named

namespace Machine

/-- The cell from which a machine fetches holds a character. -/
def Holds (machine : Machine) (c : Char) : Prop :=
  machine.field.cell? machine.pointer = some (c.toNat : Int)

theorem holds_of_read {Meaning : Type} {ofChar? : Char → Option Meaning}
    {meaning : Meaning}
    (stored : machine.field.cell? machine.pointer = some cell)
    (read : ofChar? (symbol cell) = some meaning)
    (silent : ofChar? '\x00' = none) : machine.Holds (symbol cell) := by
  have named : symbol cell ≠ '\x00' := by
    intro unnamed
    rw [unnamed, silent] at read
    contradiction
  rw [Holds, stored, ← eq_of_symbol_eq rfl named]

end Machine

namespace Befunge.Instruction

variable {instruction : Instruction}

def letter : Instruction → Char
  | head .right => '>'
  | head .left => '<'
  | head .up => '^'
  | head .down => 'v'
  | wander => '?'
  | branchAcross => '_'
  | branchAlong => '|'
  | readText => '"'
  | bridge => '#'
  | halt => '@'
  | duplicate => ':'
  | swap => '\\'
  | discard => '$'
  | digit value => Nat.digitChar value
  | compute operator => operator.character
  | invert => '!'
  | put => 'p'
  | get => 'g'
  | showNumber => '.'
  | showCharacter => ','
  | askNumber => '&'
  | askCharacter => '~'

theorem eq_letter (read : ofChar? c = some instruction) :
    c = instruction.letter := by
  unfold ofChar? at read
  split at read
  all_goals cases read <;> rfl

theorem holds_letter
    (stored : machine.field.cell? machine.pointer = some cell)
    (decoded : decode cell = some instruction) :
    machine.Holds instruction.letter := by
  rw [← eq_letter decoded]
  exact Machine.holds_of_read stored decoded rfl

theorem decode_character (read : ofChar? c = some instruction) :
    decode (c.toNat : Int) = some instruction := by
  rw [decode, symbol_character, read]

end Befunge.Instruction

namespace Argh

def Side.letter (side : Side) (c : Char) : Char :=
  match side with
  | below => c
  | above => c.toUpper

def jumpLetter : Direction → Char
  | .left => 'H'
  | .down => 'J'
  | .up => 'K'
  | .right => 'L'

namespace Instruction

variable {instruction : Instruction}

def letter : Instruction → Char
  | head .left => 'h'
  | head .down => 'j'
  | head .up => 'k'
  | head .right => 'l'
  | jump direction => jumpLetter direction
  | turnRight => 'x'
  | turnLeft => 'X'
  | halt => 'q'
  | duplicate => 'd'
  | discard => 'D'
  | copy side => side.letter 's'
  | add side => side.letter 'a'
  | subtract side => side.letter 'r'
  | fetch side => side.letter 'f'
  | print side => side.letter 'p'
  | ask side => side.letter 'g'
  | clear side => side.letter 'e'
  | comment => '#'

theorem eq_letter (read : ofChar? c = some instruction) :
    c = instruction.letter := by
  unfold ofChar? at read
  split at read
  all_goals cases read <;> rfl

theorem ofChar?_letter (instruction : Instruction) :
    ofChar? instruction.letter = some instruction := by
  cases instruction with
  | head direction | jump direction => cases direction <;> rfl
  | copy side | add side | subtract side | fetch side | print side | ask side
  | clear side => cases side <;> rfl
  | _ => rfl

theorem holds_letter
    (stored : machine.field.cell? machine.pointer = some cell)
    (decoded : decode cell = some instruction) :
    machine.Holds instruction.letter := by
  rw [← eq_letter decoded]
  exact Machine.holds_of_read stored decoded rfl

theorem decode_letter (instruction : Instruction) :
    decode (instruction.letter.toNat : Int) = some instruction := by
  rw [decode, symbol_character, ofChar?_letter]

end Instruction

end Argh

end Esoteric.Grid
