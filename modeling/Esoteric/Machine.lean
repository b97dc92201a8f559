import Esoteric.Brainfuck.Machine
import Esoteric.Grid.Cycle
import Esoteric.Language
import Esoteric.Playfield.Load

namespace Esoteric

inductive Machine where
  | grid (dialect : Grid.Dialect) (state : Grid.Machine)
  | tape (state : Brainfuck.Machine)

def Grid.Machine.ofSource (dialect : Grid.Dialect) (source : List Char)
    (width : Int) (edge : Option Edge) : Grid.Machine :=
  { field := .ofText source width ' ' (edge.getD dialect.standardEdge) }

namespace Machine

def ofSource (language : Language) (source : List Char) (width : Int)
    (edge : Option Edge) : Machine :=
  match language with
  | .argh => grid .argh (.ofSource .argh source width edge)
  | .befunge => grid .befunge (.ofSource .befunge source width edge)
  | .brainfuck => tape { program := source.toArray }

def loadRows (room : List Nat → Bool) (dialect : Grid.Dialect)
    (lines : List (List Char)) (width : Int) (edge : Option Edge) :
    Except Excess Machine := do
  let edge := edge.getD dialect.standardEdge
  return grid dialect { field := ← Playfield.load room lines width ' ' edge }

def cycle : Machine → Step Machine
  | grid dialect state => (state.cycle dialect).map (grid dialect)
  | tape state => state.cycle.map tape

/-- Only a linear program has an end that can be reached. -/
def finished : Machine → Bool
  | grid _ _ => false
  | tape state => state.finished

def cycles : Machine → Nat
  | grid _ state => state.cycles
  | tape state => state.cycles

def input : Machine → Input
  | grid _ state => state.input
  | tape state => state.input

def withInput (input : Input) : Machine → Machine
  | grid dialect state => grid dialect { state with input }
  | tape state => tape { state with input }

def withChance (chance : Chance) : Machine → Machine
  | grid dialect state => grid dialect { state with chance }
  | tape state => tape state

def output : Machine → String
  | grid _ state => state.output
  | tape state => state.output

def flush : Machine → Machine
  | grid dialect state => grid dialect { state with output := "" }
  | tape state => tape { state with output := "" }

def asks : Machine → Bool
  | grid dialect state => state.asks dialect
  | tape state => state.asks

def stopReport : Machine → List Diagnostic
  | grid _ state => [.stopped state.pointer state.cycles]
  | tape _ => []

/-- What is reported of a fault that ends a run; nothing, if words for it are wanting. -/
def failReport (machine : Machine) (cause : Fault) : List Diagnostic :=
  match cause.message? with
  | some message => machine.stopReport ++ [.failed message]
  | none => []

end Machine

end Esoteric
