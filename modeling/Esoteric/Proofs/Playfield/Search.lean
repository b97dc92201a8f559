import Esoteric.Playfield.Ray

namespace Esoteric.Playfield

/-- The positions that a search for a value looks at: it stops at the value, and
at the first position outside. -/
inductive Searches (field : Playfield) (direction : Direction) (target : Int) :
    Position → Position → Prop
  | here : Searches field direction target start start
  | further : field.cell? start = some value → value ≠ target →
      Searches field direction target (start.advance direction) position →
      Searches field direction target start position

variable {field other : Playfield} {direction : Direction} {target : Int}
  {start position : Position}

theorem search_congr
    (same : ∀ position, field.Searches direction target start position →
      other.cell? position = field.cell? position) :
    (other.ray start direction).takeWhile (· ≠ target) =
        (field.ray start direction).takeWhile (· ≠ target) ∧
      (((field.ray start direction).takeWhile (· ≠ target)).length <
          (other.ray start direction).length ↔
        ((field.ray start direction).takeWhile (· ≠ target)).length <
          (field.ray start direction).length) := by
  fun_induction ray field start direction with
  | case1 start outside =>
      rw [ray_of_none direction ((same start .here).trans outside)]
      exact ⟨rfl, Iff.rfl⟩
  | case2 start value stored induction =>
      rw [ray_of_some direction ((same start .here).trans stored)]
      by_cases equal : value = target
      · simp [equal]
      · have beyond := induction fun position searched =>
          same position (.further stored equal searched)
        simpa [equal] using beyond

theorem exists_cell?_of_mem_ray {value : Int}
    (met : value ∈ field.ray start direction) :
    ∃ position, field.cell? position = some value := by
  fun_induction ray field start direction with
  | case1 start outside => contradiction
  | case2 start first stored induction =>
      rcases List.mem_cons.1 met with rfl | later
      · exact ⟨start, stored⟩
      · exact induction later

theorem Searches.contains
    (searched : field.Searches direction target start position)
    (found : ((field.ray start direction).takeWhile (· ≠ target)).length <
      (field.ray start direction).length) :
    field.contains position = true := by
  induction searched with
  | @here start =>
      cases stored : field.cell? start with
      | none =>
          rw [ray_of_none direction stored] at found
          contradiction
      | some value => simp only [Playfield.contains, stored, Option.isSome_some]
  | further stored differs _ induction =>
      rw [ray_of_some direction stored] at found
      apply induction
      simpa [differs] using found

end Esoteric.Playfield
