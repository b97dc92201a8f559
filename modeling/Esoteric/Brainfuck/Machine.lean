import Esoteric.Arithmetic
import Esoteric.Brainfuck.Program
import Esoteric.Input
import Esoteric.Step
import Esoteric.Tape

namespace Esoteric.Brainfuck

/-- A machine with a linear program and a tape of signed bytes under its head. -/
structure Machine where
  program : Program
  pointer : Int := 0
  head : Int := 0
  tape : Tape := .blank
  input : Input := .empty
  output : String := ""
  cycles : Nat := 0
deriving DecidableEq, Repr

namespace Machine

def finished (machine : Machine) : Bool :=
  machine.program.size ≤ machine.pointer

def cell (machine : Machine) : Int :=
  machine.tape.read machine.head

def next (machine : Machine) : Machine :=
  { machine with pointer := machine.pointer + 1 }

def setCell (machine : Machine) (value : Int) : Machine :=
  { machine with tape := machine.tape.write machine.head (signedByte value) }

def enterLoop (machine : Machine) : Step Machine :=
  if machine.cell = 0 then
    match machine.program.closing? 0 (machine.pointer + 1) with
    | some place => .ok { machine with pointer := place + 1 }
    | none =>
        .fault .unmatchedOpening
          { machine with pointer := machine.program.size }
  else
    .ok machine.next

def repeatLoop (machine : Machine) : Step Machine :=
  if machine.cell = 0 then
    .ok machine.next
  else
    match machine.program.opening? 0 machine.pointer.toNat with
    | some place => .ok { machine with pointer := place }
    | none =>
        .fault .unmatchedClosing
          { machine with pointer := min (-1) (machine.pointer - 1) }

def execute (command : Command) (machine : Machine) : Step Machine :=
  match command with
  | .right => .ok { machine.next with head := machine.head + 1 }
  | .left => .ok { machine.next with head := machine.head - 1 }
  | .increment => .ok (machine.setCell (machine.cell + 1)).next
  | .decrement => .ok (machine.setCell (machine.cell - 1)).next
  | .output =>
      .ok { machine.next with
        output := machine.output ++ (lowByte machine.cell).toString }
  | .input =>
      .ok { (machine.setCell machine.input.next).next with
        input := machine.input.rest }
  | .opening => machine.enterLoop
  | .closing => machine.repeatLoop

def count (machine : Machine) : Machine :=
  { machine with cycles := machine.cycles + 1 }

def cycle (machine : Machine) : Step Machine :=
  match machine.program.character? machine.pointer with
  | none => .astray machine
  | some c =>
      let diagnostic :=
        .commanded machine.pointer c machine.head machine.cell
      let step :=
        match Command.ofChar? c with
        | some command => machine.execute command
        | none => .ok machine.next
      (step.andThen fun reached => .ok reached.count).report diagnostic

def asks (machine : Machine) : Bool :=
  machine.program.character? machine.pointer = some ','

end Machine

end Esoteric.Brainfuck
