import Mathlib.Order.Bounds.Basic
import Esoteric.Proofs.Playfield.Crossing

/-! The distance at which a search along a ray stops. -/

namespace Esoteric.Playfield

/-- A search stops at the value it is for, and at any position outside. -/
def StopsAt (field : Playfield) (direction : Direction) (target : Int)
    (start : Position) (distance : Nat) : Prop :=
  field.cell? (start.moved direction distance) = none ∨
    field.cell? (start.moved direction distance) = some target

variable {field : Playfield} {direction : Direction} {target : Int}
  {start : Position} {values : List Int} {distance : Nat}

theorem getElem?_length_takeWhile (values : List Int) (target : Int) :
    values[(values.takeWhile (· ≠ target)).length]? =
      if target ∈ values then some target else none := by
  induction values with
  | nil => rfl
  | cons value values induction =>
      by_cases equal : value = target
      · simp [equal]
      · have other : target ≠ value := Ne.symm equal
        simpa [equal, other] using induction

theorem cell?_of_lt_search
    (passed : distance <
      ((field.ray start direction).takeWhile (· ≠ target)).length) :
    field.cell? (start.moved direction distance) =
      ((field.ray start direction).takeWhile (· ≠ target))[distance]? := by
  have begins := List.takeWhile_prefix (l := field.ray start direction)
    fun value => value ≠ target
  have within := Nat.le_of_lt (Nat.lt_of_lt_of_le passed begins.length_le)
  rw [← getElem?_ray field start direction distance within,
    List.getElem?_eq_getElem passed, begins.getElem passed,
    List.getElem?_eq_getElem]

theorem cell?_search (field : Playfield) (direction : Direction)
    (target : Int) (start : Position) :
    field.cell? (start.moved direction
        ((field.ray start direction).takeWhile (· ≠ target)).length) =
      if target ∈ field.ray start direction then some target else none := by
  have within := (List.takeWhile_prefix (l := field.ray start direction)
    fun value => value ≠ target).length_le
  rw [← getElem?_ray field start direction _ within,
    getElem?_length_takeWhile]

/-- What a search passes over comes to an end, and it stops nowhere earlier. -/
theorem isLeast_search (field : Playfield) (direction : Direction)
    (target : Int) (start : Position) :
    IsLeast {distance | field.StopsAt direction target start distance}
      ((field.ray start direction).takeWhile (· ≠ target)).length := by
  constructor
  · rw [Set.mem_ofPred_eq, StopsAt, cell?_search]
    split
    · exact .inr rfl
    · exact .inl rfl
  · intro distance stops
    apply Nat.le_of_not_lt
    intro passed
    rw [Set.mem_ofPred_eq, StopsAt, cell?_of_lt_search passed,
      List.getElem?_eq_getElem passed] at stops
    have other := List.mem_takeWhile_imp (List.getElem_mem passed)
    rcases stops with absent | found
    · contradiction
    · rw [Option.some.inj found] at other
      exact of_decide_eq_true other rfl

end Esoteric.Playfield
