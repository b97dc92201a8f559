import Esoteric.Playfield.Load

namespace Esoteric.Playfield

theorem getElem?_layRow (columns : Nat) (filler : Char) (line : List Char)
    (column : Nat) :
    (layRow columns filler line)[column]? =
      if column < columns then
        some (((Lines.trimEnd line)[column]?.getD filler).toNat : Int)
      else
        none := by
  have blank : ((columns : Int) -
      (min columns (Lines.trimEnd line).length : Nat)).toNat =
        columns - (Lines.trimEnd line).length := by
    omega
  simp only [layRow, cut, List.getElem?_append, List.length_map,
    List.length_take, List.getElem?_map, List.getElem?_take,
    List.getElem?_replicate, blank]
  by_cases inside : column < columns
  · by_cases filled : column < (Lines.trimEnd line).length
    · have early : column < min columns (Lines.trimEnd line).length := by
        omega
      simp only [if_pos inside, if_pos early, List.getElem?_eq_getElem filled,
        Option.map_some, Option.getD_some]
    · have late : ¬ column < min columns (Lines.trimEnd line).length := by
        omega
      have covered : column - min columns (Lines.trimEnd line).length <
          columns - (Lines.trimEnd line).length := by
        omega
      have absent := List.getElem?_eq_none (Nat.le_of_not_lt filled)
      simp only [if_pos inside, if_neg late, if_pos covered, absent,
        Option.getD_none]
  · have late : ¬ column < min columns (Lines.trimEnd line).length := by
      omega
    have beyond : ¬ column - min columns (Lines.trimEnd line).length <
        columns - (Lines.trimEnd line).length := by
      omega
    simp only [if_neg inside, if_neg late, if_neg beyond]

theorem cell?_ofLines (lines : List (List Char)) (width : Int) (filler : Char)
    (edge : Edge) (x y : Nat) :
    (ofLines lines width filler edge).cell? ⟨.ofNat x, .ofNat y⟩ =
      lines[y]?.bind fun line => (layRow width filler line)[x]? := by
  simp only [cell?, ofLines, List.getElem?_toArray, List.getElem?_map,
    Option.bind_map, Function.comp_def]

theorem contains_ofLines (lines : List (List Char)) {width : Int}
    (sensible : 0 ≤ width) (filler : Char) (edge : Edge) (position : Position) :
    (ofLines lines width filler edge).contains position = true ↔
      (0 ≤ position.x ∧ position.x < width) ∧
        0 ≤ position.y ∧ position.y < lines.length := by
  obtain ⟨columns, rfl⟩ := Int.eq_ofNat_of_zero_le sensible
  obtain ⟨x, y⟩ := position
  cases x with
  | negSucc x =>
      have left : ¬ 0 ≤ Int.negSucc x := by omega
      simp only [contains, cell?, Option.isSome_none, left, false_and,
        Bool.false_eq_true]
  | ofNat x =>
      cases y with
      | negSucc y =>
          have above : ¬ 0 ≤ Int.negSucc y := by omega
          simp only [contains, cell?, Option.isSome_none, above, false_and,
            and_false, Bool.false_eq_true]
      | ofNat y =>
          rw [contains, cell?_ofLines]
          by_cases within : y < lines.length
          · rw [List.getElem?_eq_getElem within, Option.bind_some,
              getElem?_layRow]
            split
            · refine iff_of_true rfl ?_
              simp only [Int.ofNat_eq_natCast]
              omega
            · refine iff_of_false Bool.false_ne_true ?_
              simp only [Int.ofNat_eq_natCast]
              omega
          · rw [List.getElem?_eq_none (Nat.le_of_not_lt within)]
            refine iff_of_false Bool.false_ne_true ?_
            simp only [Int.ofNat_eq_natCast]
            omega

end Esoteric.Playfield
