import Esoteric.Position

namespace Esoteric

inductive Fault where
  | readOutside (position : Position)
  | writeOutside (position : Position)
  | pointerOutside (position : Position)
  | unterminatedString (position : Position)
  | noLanding (target : Int) (position : Position)
  | longNumber (number : Int)
  | divisionByZero
  | moduloByZero
  | shortage (operation : String)
  | unmatchedOpening
  | unmatchedClosing
  | cycleLimit (limit : Int)
deriving DecidableEq, Repr

inductive Raised where
  | failure (message : String)
  | overlong
  | astray
deriving DecidableEq, Repr

namespace Fault

/-- The words for a fault, which are wanting where a number in them is too long. -/
def message? : Fault → Option String
  | readOutside position =>
      assemble? [some "read outside the grid at ", position.render?]
  | writeOutside position =>
      assemble? [some "write outside the grid at ", position.render?]
  | pointerOutside position =>
      assemble?
        [some "instruction pointer outside the grid at ", position.render?]
  | unterminatedString position =>
      assemble?
        [some "unterminated string, left the grid at ", position.render?]
  | noLanding target position =>
      assemble? [some "jump found no ", Numeral.show? target,
        some " before leaving the grid at ", position.render?]
  | longNumber _ => none
  | divisionByZero => some "division by zero"
  | moduloByZero => some "modulo by zero"
  | shortage operation => some (operation ++ ": not enough elements in the stack")
  | unmatchedOpening => some "unmatched ["
  | unmatchedClosing => some "unmatched ]"
  | cycleLimit limit =>
      assemble? [some "cycle limit of ", Numeral.show? limit, some " reached"]

/-- A fault without words is an error of another kind. -/
def raised (cause : Fault) : Raised :=
  match cause.message? with
  | some message => .failure message
  | none => .overlong

end Fault

end Esoteric
