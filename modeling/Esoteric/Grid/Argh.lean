import Esoteric.Grid.Machine

namespace Esoteric.Grid.Argh

inductive Side where
  | below
  | above
deriving DecidableEq, Repr

def Side.direction : Side → Direction
  | below => .down
  | above => .up

inductive Instruction where
  | head (direction : Direction)
  | jump (direction : Direction)
  | turnRight
  | turnLeft
  | halt
  | duplicate
  | discard
  | copy (side : Side)
  | add (side : Side)
  | subtract (side : Side)
  | fetch (side : Side)
  | print (side : Side)
  | ask (side : Side)
  | clear (side : Side)
  | comment
deriving DecidableEq, Repr

def bang : Int := 33

namespace Instruction

def ofChar? : Char → Option Instruction
  | 'h' => some (head .left)
  | 'j' => some (head .down)
  | 'k' => some (head .up)
  | 'l' => some (head .right)
  | 'H' => some (jump .left)
  | 'J' => some (jump .down)
  | 'K' => some (jump .up)
  | 'L' => some (jump .right)
  | 'x' => some turnRight
  | 'X' => some turnLeft
  | 'q' => some halt
  | 'd' => some duplicate
  | 'D' => some discard
  | 's' => some (copy .below)
  | 'S' => some (copy .above)
  | 'a' => some (add .below)
  | 'A' => some (add .above)
  | 'r' => some (subtract .below)
  | 'R' => some (subtract .above)
  | 'f' => some (fetch .below)
  | 'F' => some (fetch .above)
  | 'p' => some (print .below)
  | 'P' => some (print .above)
  | 'g' => some (ask .below)
  | 'G' => some (ask .above)
  | 'e' => some (clear .below)
  | 'E' => some (clear .above)
  | '#' => some comment
  | _ => none

def decode (cell : Int) : Option Instruction :=
  ofChar? (symbol cell)

/-- Heads for the next cell with the value on top of the stack, starting with
the present one. -/
def executeJump (direction : Direction) (machine : Machine) : Step Machine :=
  let turned := { machine with heading := direction }
  match machine.stack with
  | [] => .ok turned
  | target :: _ =>
      let ahead := machine.field.ray machine.pointer direction
      let passed := (ahead.takeWhile (· ≠ target)).length
      let stop := machine.pointer.moved direction passed
      let reached := { turned with pointer := stop }
      if passed < ahead.length then
        .ok reached
      else
        .fault (.noLanding target stop) reached

def execute (instruction : Instruction) (machine : Machine) : Step Machine :=
  let beside (side : Side) := machine.pointer.advance side.direction
  match instruction with
  | head direction => .ok { machine with heading := direction }
  | jump direction => executeJump direction machine
  | turnRight =>
      if 0 < machine.operand 0 then
        .ok { machine with heading := machine.heading.turnRight }
      else
        .ok machine
  | turnLeft =>
      if machine.operand 0 < 0 then
        .ok { machine with heading := machine.heading.turnLeft }
      else
        .ok machine
  | halt => .quit machine
  | duplicate =>
      match machine.stack with
      | [] => .ok machine
      | top :: _ => .ok (machine.push top)
  | discard => .ok (machine.consume 1)
  | copy side =>
      machine.load (beside side) fun value => .ok (machine.push value)
  | add side =>
      match machine.stack with
      | [] => .ok machine
      | top :: rest =>
          machine.load (beside side) fun value =>
            .ok { machine with stack := (top + value) :: rest }
  | subtract side =>
      match machine.stack with
      | [] => .ok machine
      | top :: rest =>
          machine.load (beside side) fun value =>
            .ok { machine with stack := (top - value) :: rest }
  | fetch side =>
      match machine.stack with
      | [] => .ok machine
      | top :: rest => { machine with stack := rest }.store (beside side) top
  | print side =>
      machine.load (beside side) fun value =>
        .ok (machine.emit (lowByte value).toString)
  | ask side => machine.consumeInput.store (beside side) machine.input.next
  | clear side => machine.store (beside side) 0
  | comment =>
      if machine.pointer = .origin then
        machine.load (machine.pointer.advance .right) fun value =>
          if value = bang then
            .ok { machine with heading := .down }
          else
            .ok machine
      else
        .ok machine

def asks : Instruction → Bool
  | ask _ => true
  | _ => false

end Instruction

end Esoteric.Grid.Argh
