import Mathlib.Data.List.TakeWhile
import Esoteric.Playfield.Ray

namespace Esoteric.Playfield

/-- A way from a position to the first one outside, with the values of the cells
that lie on it. -/
structure Crosses (field : Playfield) (direction : Direction)
    (start : Position) (passed : List Int) (finish : Position) : Prop where
  outside : field.cell? finish = none
  ends : finish = start.moved direction passed.length
  cells : ∀ distance < passed.length,
    field.cell? (start.moved direction distance) = passed[distance]?

variable {field : Playfield} {direction : Direction} {start finish : Position}
  {target : Int} {passed values : List Int}

theorem crosses_ray (field : Playfield) (direction : Direction)
    (start : Position) :
    field.Crosses direction start (field.ray start direction)
      (start.moved direction (field.ray start direction).length) where
  outside := by
    rw [← getElem?_ray field start direction _ (Nat.le_refl _)]
    exact List.getElem?_eq_none (Nat.le_refl _)
  ends := rfl
  cells distance bound :=
    (getElem?_ray field start direction distance (Nat.le_of_lt bound)).symm

theorem Crosses.eq_ray
    (crosses : field.Crosses direction start passed finish) :
    passed = field.ray start direction := by
  obtain ⟨outside, ends, cells⟩ := crosses
  induction passed generalizing start with
  | nil =>
      rw [ends, List.length_nil, Position.moved_zero] at outside
      rw [ray_of_none direction outside]
  | cons value passed induction =>
      have first := cells 0 (Nat.succ_pos _)
      rw [Position.moved_zero] at first
      rw [ray_of_some direction first]
      congr 1
      apply induction
      · rw [ends, List.length_cons, Position.moved_succ]
      · intro distance bound
        rw [← Position.moved_succ]
        exact cells (distance + 1) (Nat.succ_lt_succ bound)

theorem Crosses.cons {value : Int} (stored : field.cell? start = some value)
    (crosses : field.Crosses direction (start.advance direction) passed
      finish) :
    field.Crosses direction start (value :: passed) finish where
  outside := crosses.outside
  ends := by
    rw [crosses.ends, List.length_cons, Position.moved_succ]
  cells distance bound := by
    cases distance with
    | zero =>
        rw [Position.moved_zero, stored]
        rfl
    | succ distance =>
        rw [Position.moved_succ]
        exact crosses.cells distance (Nat.lt_of_succ_lt_succ bound)

theorem Crosses.exists_last {value : Int}
    (crosses : field.Crosses direction start (value :: passed) finish) :
    ∃ last, field.contains last = true ∧ finish = last.advance direction := by
  have final : passed.length < (value :: passed).length := Nat.lt_succ_self _
  refine ⟨start.moved direction passed.length, ?_, ?_⟩
  · rw [contains, crosses.cells _ final, List.getElem?_eq_getElem final]
    rfl
  · rw [crosses.ends, List.length_cons, Position.advance_moved]

theorem takeWhile_of_not_mem (absent : target ∉ values) :
    values.takeWhile (· ≠ target) = values := by
  rw [List.takeWhile_eq_self_iff]
  intro value member
  exact decide_eq_true (ne_of_mem_of_not_mem member absent)

theorem length_takeWhile_lt (present : target ∈ values) :
    (values.takeWhile (· ≠ target)).length < values.length := by
  have start := List.takeWhile_prefix (l := values) fun value => value ≠ target
  refine Nat.lt_of_le_of_ne start.length_le ?_
  intro sameLength
  have whole := List.takeWhile_eq_self_iff.1 (start.eq_of_length sameLength)
  exact of_decide_eq_true (whole target present) rfl

theorem contains_of_search
    (found : ((field.ray start direction).takeWhile (· ≠ target)).length <
      (field.ray start direction).length) :
    field.contains (start.moved direction
      ((field.ray start direction).takeWhile (· ≠ target)).length) = true := by
  rw [contains, ← getElem?_ray field start direction _ (Nat.le_of_lt found),
    List.getElem?_eq_getElem found]
  rfl

end Esoteric.Playfield
