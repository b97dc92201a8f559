import Esoteric.Grid.Argh
import Esoteric.Grid.Befunge

namespace Esoteric.Grid

inductive Dialect where
  | befunge
  | argh
deriving DecidableEq, Repr

namespace Dialect

def standardEdge : Dialect → Edge
  | befunge => .silent 32
  | argh => .strict

def execute (dialect : Dialect) (cell : Int) (machine : Machine) :
    Step Machine :=
  match dialect with
  | befunge =>
      match Befunge.Instruction.decode cell with
      | some instruction => instruction.execute machine
      | none => .ok machine
  | argh =>
      match Argh.Instruction.decode cell with
      | some instruction => instruction.execute machine
      | none => .ok machine

def asks (dialect : Dialect) (cell : Int) : Bool :=
  match dialect with
  | befunge => (Befunge.Instruction.decode cell).any Befunge.Instruction.asks
  | argh => (Argh.Instruction.decode cell).any Argh.Instruction.asks

end Dialect

namespace Machine

def finish (machine : Machine) : Machine :=
  { machine.advance with cycles := machine.cycles + 1 }

/-- Instructions come from stored cells only, whatever the edge. -/
def cycle (dialect : Dialect) (machine : Machine) : Step Machine :=
  match machine.field.cell? machine.pointer with
  | none => .fault (.pointerOutside machine.pointer) machine
  | some cell =>
      ((dialect.execute cell machine).andThen fun reached =>
          .ok reached.finish).report
        (.fetched machine.pointer cell machine.heading machine.stack)

def asks (dialect : Dialect) (machine : Machine) : Bool :=
  (machine.field.cell? machine.pointer).any dialect.asks

end Machine

end Esoteric.Grid
