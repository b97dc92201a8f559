import Esoteric.Direction
import Esoteric.Text.Wording

namespace Esoteric

/-- Coordinates are not confined to any playfield. -/
@[ext] structure Position where
  x : Int
  y : Int
deriving DecidableEq, Repr, Inhabited

namespace Position

def origin : Position := ⟨0, 0⟩

def advance (position : Position) (direction : Direction) : Position :=
  ⟨position.x + direction.dx, position.y + direction.dy⟩

def moved (position : Position) (direction : Direction) (distance : Nat) :
    Position :=
  ⟨position.x + distance * direction.dx, position.y + distance * direction.dy⟩

def render? (position : Position) : Option String :=
  assemble? [some "(", Numeral.show? position.x, some ", ",
    Numeral.show? position.y, some ")"]

@[simp] theorem advance_x (position : Position) (direction : Direction) :
    (position.advance direction).x = position.x + direction.dx := rfl

@[simp] theorem advance_y (position : Position) (direction : Direction) :
    (position.advance direction).y = position.y + direction.dy := rfl

@[simp] theorem moved_zero (position : Position) (direction : Direction) :
    position.moved direction 0 = position := by
  simp [moved]

theorem moved_succ (position : Position) (direction : Direction)
    (distance : Nat) :
    position.moved direction (distance + 1) =
      (position.advance direction).moved direction distance := by
  ext <;> simp [moved, Int.add_mul] <;> omega

theorem advance_moved (position : Position) (direction : Direction)
    (distance : Nat) :
    (position.moved direction distance).advance direction =
      position.moved direction (distance + 1) := by
  ext <;> simp [moved, Int.add_mul] <;> omega

end Position

end Esoteric
