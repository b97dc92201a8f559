import Esoteric.Arithmetic
import Esoteric.Chance
import Esoteric.Input
import Esoteric.Playfield.Ray
import Esoteric.Step

namespace Esoteric.Grid

/-- The symbol that a cell stands for, where NUL stands for no symbol. -/
def symbol (cell : Int) : Char :=
  Char.ofNat cell.toNat

/-- A machine whose program and memory are one playfield; its stack is listed
from the top. -/
structure Machine where
  field : Playfield
  pointer : Position := .origin
  heading : Direction := .right
  stack : List Int := []
  input : Input := .empty
  chance : Chance := default
  output : String := ""
  cycles : Nat := 0

namespace Machine

def advance (machine : Machine) : Machine :=
  { machine with pointer := machine.pointer.advance machine.heading }

def push (machine : Machine) (value : Int) : Machine :=
  { machine with stack := value :: machine.stack }

/-- A value counted from the top of the stack; an absent one is zero. -/
def operand (machine : Machine) (depth : Nat) : Int :=
  machine.stack.getD depth 0

def consume (machine : Machine) (count : Nat) : Machine :=
  { machine with stack := machine.stack.drop count }

def need (machine : Machine) (count : Int) (operation : String) :
    Step Machine :=
  if machine.stack.length < count then
    .fault (.shortage operation) machine
  else
    .ok machine

def emit (machine : Machine) (text : String) : Machine :=
  { machine with output := machine.output ++ text }

def consumeInput (machine : Machine) : Machine :=
  { machine with input := machine.input.rest }

def load (machine : Machine) (position : Position)
    (use : Int → Step Machine) : Step Machine :=
  match machine.field.read position with
  | .ok value => use value
  | .error cause => .fault cause machine

def store (machine : Machine) (position : Position) (value : Int) :
    Step Machine :=
  match machine.field.write position value with
  | .inside field => .ok { machine with field }
  | .dropped => (Step.ok machine).report (.dropped value position)
  | .refused cause => .fault cause machine

def printNumber (machine : Machine) (value : Int) : Step Machine :=
  match Numeral.show? value with
  | some text => .ok (machine.emit (text ++ " "))
  | none => .fault (.longNumber value) machine

end Machine

end Esoteric.Grid
