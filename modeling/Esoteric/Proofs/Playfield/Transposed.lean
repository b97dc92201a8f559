import Esoteric.Chance
import Esoteric.Playfield.Basic

/-! The exchange of the two axes: columns become rows, and left to right becomes
top to bottom. -/

namespace Esoteric

namespace Direction

def exchange : Direction → Direction
  | left => up
  | down => right
  | up => left
  | right => down

theorem dx_exchange (direction : Direction) :
    direction.exchange.dx = direction.dy := by
  cases direction <;> rfl

theorem dy_exchange (direction : Direction) :
    direction.exchange.dy = direction.dx := by
  cases direction <;> rfl

end Direction

namespace Position

def swap (position : Position) : Position :=
  ⟨position.y, position.x⟩

theorem advance_swap (position : Position) (direction : Direction) :
    position.swap.advance direction.exchange =
      (position.advance direction).swap := by
  simp only [advance, swap, Direction.dx_exchange, Direction.dy_exchange]

end Position

def Chance.exchange (chance : Chance) : Chance :=
  { chance with draws := fun turn => (chance.draws turn).map Direction.exchange }

theorem Chance.next_exchange (chance : Chance) :
    chance.exchange.next = chance.next.map Direction.exchange := rfl

namespace Playfield

def Rectangular (field : Playfield) (columns : Nat) : Prop :=
  ∀ row ∈ field.rows, row.size = columns

instance (field : Playfield) (columns : Nat) :
    Decidable (field.Rectangular columns) :=
  inferInstanceAs (Decidable (∀ row ∈ field.rows, row.size = columns))

def Lacks (field : Playfield) (c : Char) : Prop :=
  ∀ row ∈ field.rows, (c.toNat : Int) ∉ row

instance (field : Playfield) (c : Char) : Decidable (field.Lacks c) :=
  inferInstanceAs (Decidable (∀ row ∈ field.rows, (c.toNat : Int) ∉ row))

theorem Lacks.cell?_ne {field : Playfield} {c : Char} (lacks : field.Lacks c)
    (position : Position) : field.cell? position ≠ some (c.toNat : Int) := by
  obtain ⟨x, y⟩ := position
  intro stored
  cases x <;> cases y <;> simp only [cell?, reduceCtorEq] at stored
  obtain ⟨row, foundRow, foundCell⟩ := Option.bind_eq_some_iff.1 stored
  exact lacks row (Array.mem_of_getElem? foundRow)
    (Array.mem_of_getElem? foundCell)

def transposed (columns : Nat) (change : Int → Int) (field : Playfield) :
    Playfield :=
  { field with
    rows := Array.ofFn fun column : Fin columns =>
      field.rows.map fun row => change (row.getD column 0) }

theorem cell?_transposed {field : Playfield} {columns : Nat}
    (rectangular : field.Rectangular columns) (change : Int → Int)
    (position : Position) :
    (field.transposed columns change).cell? position.swap =
      (field.cell? position).map change := by
  obtain ⟨x, y⟩ := position
  cases x with
  | negSucc x => cases y <;> rfl
  | ofNat x =>
      cases y with
      | negSucc y => rfl
      | ofNat y =>
          simp only [Position.swap, cell?, transposed, Array.getElem?_ofFn]
          cases stored : field.rows[y]? with
          | none =>
              split
              · simp only [Option.bind_some, Array.getElem?_map, stored,
                  Option.map_none, Option.bind_none]
              · rfl
          | some row =>
              have wide := rectangular row (Array.mem_of_getElem? stored)
              split
              · rename_i inside
                have within : x < row.size := by omega
                simp only [Option.bind_some, Array.getElem?_map, stored,
                  Option.map_some, Array.getD, dif_pos within,
                  Array.getElem?_eq_getElem within]
                rfl
              · rename_i outside
                have beyond : row.size ≤ x := by omega
                simp only [Option.bind_none, Option.bind_some,
                  Array.getElem?_eq_none beyond, Option.map_none]

end Playfield

end Esoteric
