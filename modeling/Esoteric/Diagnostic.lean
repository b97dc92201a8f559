import Esoteric.Fault
import Esoteric.Text.Quoted

namespace Esoteric

/-- What is reported beside the output of a program. -/
inductive Diagnostic where
  | sourceExpected
  | fetched (position : Position) (cell : Int) (heading : Direction)
      (stack : List Int)
  | dropped (value : Int) (position : Position)
  | stopped (position : Position) (cycles : Nat)
  | commanded (pointer : Int) (command : Char) (head cell : Int)
  | failed (message : String)
deriving DecidableEq, Repr

namespace Diagnostic

/-- Only the cells that hold printable ASCII are shown as characters. -/
def glyph? (cell : Int) : Option Char :=
  if 0x20 ≤ cell ∧ cell < 0x7F then some (Char.ofNat cell.toNat) else none

def renderCell? (cell : Int) : Option String :=
  match glyph? cell with
  | some c => some (Quoted.encode [c])
  | none => Numeral.show? cell

/-- At most the eight topmost values of a stack, the topmost at the end. -/
def renderStack? (stack : List Int) : Option String :=
  let values := (stack.take 8).reverse.map Numeral.show?
  assemble? (some "[" :: values.intersperse (some ", ") ++ [some "]"])

def isTrace : Diagnostic → Bool
  | sourceExpected => false
  | failed _ => false
  | _ => true

def text? : Diagnostic → Option String
  | sourceExpected => some "Expect the source code on stdin"
  | fetched position cell heading stack =>
      assemble? [some "DEBUG grid_vm: ", position.render?, some " ",
        renderCell? cell, some " dir=", some heading.name, some " stack=",
        renderStack? stack]
  | dropped value position =>
      assemble? [some "DEBUG grid: dropped write of ", Numeral.show? value,
        some " at ", position.render?]
  | stopped position cycles =>
      assemble? [some "DEBUG grid_vm: fatal at ", position.render?,
        some " after ", Numeral.show? cycles, some " cycles"]
  | commanded pointer command head cell =>
      assemble? [some "DEBUG bf_vm: ip=", Numeral.show? pointer, some " ",
        some (Quoted.encode [command]), some " mp=", Numeral.show? head,
        some " cell=", Numeral.show? cell]
  | failed message => some ("ERR: " ++ message)

end Diagnostic

end Esoteric
