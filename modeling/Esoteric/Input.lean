namespace Esoteric

/-- The units that are still to be read, a byte being a character below 256. -/
structure Input where
  pending : List Char
deriving DecidableEq, Repr, Inhabited

namespace Input

def empty : Input := ⟨[]⟩

def ofText (text : List Char) : Input := ⟨text⟩

def ofBytes (bytes : List UInt8) : Input :=
  ⟨bytes.map fun byte => Char.ofNat byte.toNat⟩

/-- The code of the next unit, or zero at the end of the input. -/
def next (input : Input) : Int :=
  match input.pending with
  | [] => 0
  | unit :: _ => unit.toNat

def rest (input : Input) : Input :=
  ⟨input.pending.tail⟩

end Input

end Esoteric
