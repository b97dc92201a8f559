import Esoteric.Playfield.Basic

namespace Esoteric.Playfield

variable {field : Playfield} {position : Position} {value : Int}

theorem contains_eq_false : field.contains position = false ↔
    field.cell? position = none := by
  rw [contains, Option.isSome_eq_false_iff, Option.isNone_iff_eq_none]

theorem contains_of_cell? (stored : field.cell? position = some value) :
    field.contains position = true := by
  rw [contains, stored]
  rfl

theorem cell?_set (stored : field.contains position = true) (value : Int)
    (other : Position) :
    (field.set position value).cell? other =
      if other = position then some value else field.cell? other := by
  split
  · rename_i same
    rw [same, field.cell?_set_self position value stored]
  · rename_i distinct
    exact field.cell?_set_of_ne value distinct

theorem contains_set (stored : field.contains position = true) (value : Int)
    (other : Position) :
    (field.set position value).contains other = field.contains other := by
  rw [contains, cell?_set stored]
  split
  · rename_i same
    rw [same, stored]
    rfl
  · rfl

theorem read_of_some (stored : field.cell? position = some value) :
    field.read position = .ok value := by
  simp only [read, stored]

theorem write_of_some (stored : field.cell? position = some value)
    (written : Int) :
    field.write position written = .inside (field.set position written) := by
  simp only [write, stored]

theorem read_of_strict (strict : field.edge = .strict)
    (outside : field.cell? position = none) :
    field.read position = .error (.readOutside position) := by
  simp only [read, outside, strict]

theorem write_of_strict (strict : field.edge = .strict)
    (outside : field.cell? position = none) (written : Int) :
    field.write position written = .refused (.writeOutside position) := by
  simp only [write, outside, strict]

structure Refuses (field : Playfield) (position : Position) : Prop where
  strict : field.edge = .strict
  outside : field.cell? position = none

end Esoteric.Playfield
