import Esoteric.Grid.Machine

namespace Esoteric.Grid.Befunge

inductive Operator where
  | add
  | subtract
  | multiply
  | divide
  | modulo
  | greater
deriving DecidableEq, Repr

namespace Operator

def apply (operator : Operator) (left right : Int) : Except Fault Int :=
  match operator with
  | add => .ok (left + right)
  | subtract => .ok (left - right)
  | multiply => .ok (left * right)
  | divide => quotient left right
  | modulo => remainder left right
  | greater => .ok (if left > right then 1 else 0)

end Operator

inductive Instruction where
  | head (direction : Direction)
  | wander
  | branchAcross
  | branchAlong
  | readText
  | bridge
  | halt
  | duplicate
  | swap
  | discard
  | digit (value : Nat)
  | compute (operator : Operator)
  | invert
  | put
  | get
  | showNumber
  | showCharacter
  | askNumber
  | askCharacter
deriving DecidableEq, Repr

def quote : Int := 34

def prompt : String := "Input a number: \n"

namespace Instruction

def ofChar? : Char → Option Instruction
  | '>' => some (head .right)
  | '<' => some (head .left)
  | '^' => some (head .up)
  | 'v' => some (head .down)
  | '?' => some wander
  | '_' => some branchAcross
  | '|' => some branchAlong
  | '"' => some readText
  | '#' => some bridge
  | '@' => some halt
  | ':' => some duplicate
  | '\\' => some swap
  | '$' => some discard
  | '0' => some (digit 0)
  | '1' => some (digit 1)
  | '2' => some (digit 2)
  | '3' => some (digit 3)
  | '4' => some (digit 4)
  | '5' => some (digit 5)
  | '6' => some (digit 6)
  | '7' => some (digit 7)
  | '8' => some (digit 8)
  | '9' => some (digit 9)
  | '+' => some (compute .add)
  | '-' => some (compute .subtract)
  | '*' => some (compute .multiply)
  | '/' => some (compute .divide)
  | '%' => some (compute .modulo)
  | '\x60' => some (compute .greater)
  | '!' => some invert
  | 'p' => some put
  | 'g' => some get
  | '.' => some showNumber
  | ',' => some showCharacter
  | '&' => some askNumber
  | '~' => some askCharacter
  | _ => none

def decode (cell : Int) : Option Instruction :=
  ofChar? (symbol cell)

/-- Pushes the cells ahead up to the closing quote and stops on it. -/
def executeText (machine : Machine) : Step Machine :=
  let start := machine.pointer.advance machine.heading
  let ahead := machine.field.ray start machine.heading
  let text := ahead.takeWhile (· ≠ quote)
  let stop := start.moved machine.heading text.length
  let reached :=
    { machine with pointer := stop, stack := text.reverse ++ machine.stack }
  if text.length < ahead.length then
    .ok reached
  else
    .fault (.unterminatedString stop) reached

def execute (instruction : Instruction) (machine : Machine) : Step Machine :=
  match instruction with
  | head direction => .ok { machine with heading := direction }
  | wander =>
      let drawn := { machine with chance := machine.chance.rest }
      match machine.chance.next with
      | some direction => .ok { drawn with heading := direction }
      | none => .astray drawn
  | branchAcross =>
      .ok { machine.consume 1 with
        heading := if machine.operand 0 = 0 then .right else .left }
  | branchAlong =>
      .ok { machine.consume 1 with
        heading := if machine.operand 0 = 0 then .down else .up }
  | readText => executeText machine
  | bridge => .ok machine.advance
  | halt => .quit machine
  | duplicate =>
      .ok (((machine.consume 1).push (machine.operand 0)).push
        (machine.operand 0))
  | swap =>
      .ok (((machine.consume 2).push (machine.operand 0)).push
        (machine.operand 1))
  | discard => .ok (machine.consume 1)
  | digit value => .ok (machine.push value)
  | compute operator =>
      match operator.apply (machine.operand 1) (machine.operand 0) with
      | .ok result => .ok ((machine.consume 2).push (signedWord result))
      | .error cause => .fault cause (machine.consume 2)
  | invert =>
      .ok ((machine.consume 1).push (if machine.operand 0 = 0 then 1 else 0))
  | put =>
      (machine.need 3 "p").andThen fun machine =>
        (machine.consume 3).store ⟨machine.operand 1, machine.operand 0⟩
          (machine.operand 2)
  | get =>
      (machine.need 2 "g").andThen fun machine =>
        let rest := machine.consume 2
        rest.load ⟨machine.operand 1, machine.operand 0⟩ fun value =>
          .ok (rest.push value)
  | showNumber => (machine.consume 1).printNumber (machine.operand 0)
  | showCharacter =>
      .ok ((machine.consume 1).emit (lowByte (machine.operand 0)).toString)
  | askNumber =>
      .ok (((machine.emit prompt).push machine.input.next).consumeInput)
  | askCharacter => .ok ((machine.push machine.input.next).consumeInput)

def asks : Instruction → Bool
  | askNumber => true
  | askCharacter => true
  | _ => false

end Instruction

end Esoteric.Grid.Befunge
