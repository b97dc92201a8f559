namespace Esoteric

inductive Direction where
  | left
  | down
  | up
  | right
deriving DecidableEq, Repr, Inhabited

namespace Direction

def dx : Direction → Int
  | left => -1
  | down => 0
  | up => 0
  | right => 1

/-- Rows are numbered from top to bottom. -/
def dy : Direction → Int
  | left => 0
  | down => 1
  | up => -1
  | right => 0

def turnRight : Direction → Direction
  | left => up
  | down => left
  | up => right
  | right => down

def turnLeft : Direction → Direction
  | left => down
  | down => right
  | up => left
  | right => up

/-- The four directions in the order in which a random choice numbers them. -/
def compass : List Direction :=
  [left, down, right, up]

def name : Direction → String
  | left => "LEFT"
  | down => "DOWN"
  | up => "UP"
  | right => "RIGHT"

end Direction

end Esoteric
