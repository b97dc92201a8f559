import Esoteric.Fault

namespace Esoteric

inductive Edge where
  | strict
  | silent (filler : Int)
deriving DecidableEq, Repr, Inhabited

/-- Rows of integer cells, not necessarily of one length, and their edge. -/
structure Playfield where
  rows : Array (Array Int)
  edge : Edge := .strict
deriving DecidableEq, Repr, Inhabited

inductive Stored where
  | inside (field : Playfield)
  | dropped
  | refused (cause : Fault)

namespace Playfield

def height (field : Playfield) : Nat :=
  field.rows.size

def width (field : Playfield) (row : Int) : Nat :=
  match row with
  | .ofNat row => (field.rows[row]?.map Array.size).getD 0
  | .negSucc _ => 0

/-- The value of a stored cell; negative coordinates never reach the rows. -/
def cell? (field : Playfield) (position : Position) : Option Int :=
  match position with
  | ⟨.ofNat x, .ofNat y⟩ => field.rows[y]?.bind fun row => row[x]?
  | _ => none

def contains (field : Playfield) (position : Position) : Bool :=
  (field.cell? position).isSome

def set (field : Playfield) (position : Position) (value : Int) : Playfield :=
  match position with
  | ⟨.ofNat x, .ofNat y⟩ =>
      { field with rows := field.rows.modify y fun row => row.setIfInBounds x value }
  | _ => field

def read (field : Playfield) (position : Position) : Except Fault Int :=
  match field.cell? position, field.edge with
  | some value, _ => .ok value
  | none, .silent filler => .ok filler
  | none, .strict => .error (.readOutside position)

def write (field : Playfield) (position : Position) (value : Int) : Stored :=
  match field.cell? position, field.edge with
  | some _, _ => .inside (field.set position value)
  | none, .silent _ => .dropped
  | none, .strict => .refused (.writeOutside position)

@[simp] theorem set_edge (field : Playfield) (position : Position)
    (value : Int) : (field.set position value).edge = field.edge := by
  unfold set
  split <;> rfl

@[simp] theorem height_set (field : Playfield) (position : Position)
    (value : Int) : (field.set position value).height = field.height := by
  unfold set height
  split <;> simp

@[simp] theorem width_set (field : Playfield) (position : Position)
    (value row : Int) :
    (field.set position value).width row = field.width row := by
  obtain ⟨x, y⟩ := position
  cases x <;> cases y <;> cases row <;> simp only [set, width]
  rename_i x y row
  rw [Array.getElem?_modify]
  split
  · cases field.rows[row]? <;> simp
  · rfl

theorem cell?_set_self (field : Playfield) (position : Position) (value : Int)
    (stored : field.contains position) :
    (field.set position value).cell? position = some value := by
  obtain ⟨x, y⟩ := position
  cases x <;> cases y <;>
    simp only [contains, cell?, Option.isSome_none, Bool.false_eq_true] at stored
  rename_i x y
  simp only [cell?, set]
  rw [Array.getElem?_modify, if_pos rfl]
  cases found : field.rows[y]? with
  | none => simp [found] at stored
  | some row =>
      have bound : x < row.size := by
        simpa [found] using stored
      simp [bound]

theorem cell?_set_of_ne (field : Playfield) {position other : Position}
    (value : Int) (distinct : other ≠ position) :
    (field.set position value).cell? other = field.cell? other := by
  obtain ⟨x, y⟩ := position
  obtain ⟨otherX, otherY⟩ := other
  cases x <;> cases y <;> cases otherX <;> cases otherY <;>
    simp_all only [cell?, set]
  rename_i x y otherX otherY
  rw [Array.getElem?_modify]
  by_cases sameRow : y = otherY
  · subst sameRow
    have differs : x ≠ otherX := fun same => distinct (by rw [same])
    cases field.rows[y]? with
    | none => simp
    | some row => simp [differs]
  · simp [sameRow]

end Playfield

def Edge.describe? : Edge → Option String
  | .strict => some "StrictBounds()"
  | .silent filler =>
      assemble? [some "SilentBounds(filler=", Numeral.show? filler, some ")"]

def Playfield.describe? (field : Playfield) : Option String :=
  assemble? [some "Grid(", Numeral.show? field.height, some " rows, bounds=",
    field.edge.describe?, some ")"]

end Esoteric
