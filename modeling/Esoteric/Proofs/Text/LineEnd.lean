import Mathlib.Data.List.DropRight
import Esoteric.Playfield.Load
import Esoteric.Proofs.Text.Deletion

/-! Line ends that are made alike in a text as a whole, or as it is read. -/

namespace Esoteric

theorem Newline.translate_eq_unify (text : List Char) :
    translate text = unify text := by
  fun_induction translate text with
  | case1 => rfl
  | case2 text induction => exact congrArg ('\n' :: ·) induction
  | case3 text alone induction =>
      rw [unify, joinPairs, List.map_cons, induction]
      · rfl
      · rintro later -
        exact alone later
  | case4 c text unpaired other induction =>
      have kept : replaceReturn c = c := if_neg other
      rw [unify, joinPairs, List.map_cons, kept, induction]
      · rfl
      · exact unpaired

namespace Lines

variable {line other : List Char} {c : Char}

theorem whole_cons (ordinary : c ≠ '\n') (text : List Char) :
    whole (c :: text) =
      match whole text with
      | [] => [[c]]
      | line :: lines => (c :: line) :: lines :=
  whole.eq_3 c text ordinary

theorem split_cons (ordinary : c ≠ '\n') (text : List Char) :
    split (c :: text) =
      match split text with
      | [] => [[c]]
      | line :: lines => (c :: line) :: lines :=
  split.eq_3 c text ordinary

theorem split_of_newline_not_mem {text : List Char} (filled : text ≠ [])
    (inside : '\n' ∉ text) : split text = [text] := by
  induction text with
  | nil => contradiction
  | cons c text induction =>
      have ordinary := List.ne_of_not_mem_cons inside
      have remaining := List.not_mem_of_not_mem_cons inside
      rw [split_cons (Ne.symm ordinary)]
      cases text with
      | nil => rfl
      | cons next text => rw [induction (List.cons_ne_nil next text) remaining]

theorem translate_cons_of_ends {text : List Char} (ends : endsLine c = true)
    (unpaired : ∀ later, c = '\r' → text ≠ '\n' :: later) :
    Newline.translate (c :: text) = '\n' :: Newline.translate text := by
  by_cases isReturn : c = '\r'
  · subst isReturn
    rw [Newline.translate]
    exact fun later => unpaired later rfl
  · obtain rfl : c = '\n' := by simpa [endsLine, isReturn] using ends
    rfl

theorem translate_cons_of_ordinary (ordinary : ¬ endsLine c = true)
    (text : List Char) :
    Newline.translate (c :: text) = c :: Newline.translate text := by
  have notReturn : c ≠ '\r' := by
    rintro rfl
    exact ordinary rfl
  rw [Newline.translate]
  · rintro _ rfl
    exact absurd rfl notReturn
  · exact notReturn

/-- A file that is read line by line has the lines of its text. -/
theorem ofFile_eq_whole (text : List Char) :
    ofFile text = whole (Newline.translate text) := by
  fun_induction ofFile text with
  | case1 => rfl
  | case2 text induction =>
      rw [Newline.translate, whole, induction]
  | case3 c text unpaired ends induction =>
      rw [translate_cons_of_ends ends unpaired, whole, induction]
  | case4 c text unpaired ordinary last induction
  | case5 c text unpaired ordinary line lines first induction =>
      have inside : c ≠ '\n' := by
        rintro rfl
        exact ordinary rfl
      rw [translate_cons_of_ordinary ordinary, whole_cons inside, ← induction]
      simp only [*]

theorem trimEnd_cons_congr (same : trimEnd line = trimEnd other) (c : Char) :
    trimEnd (c :: line) = trimEnd (c :: other) := by
  have sameRest := List.reverse_inj.1 same
  simp only [trimEnd, List.reverse_cons, List.dropWhile_append, sameRest]

theorem trimEnd_append_of_ordinary (line : List Char)
    (ordinary : endsLine c = false) : trimEnd (line ++ [c]) = line ++ [c] := by
  rw [trimEnd, List.reverse_append, List.reverse_singleton,
    List.singleton_append, List.dropWhile_cons_of_neg (by simp [ordinary]),
    List.reverse_cons, List.reverse_reverse]

theorem trimEnd_trimEnd (line : List Char) :
    trimEnd (trimEnd line) = trimEnd line := by
  rw [trimEnd, trimEnd, List.reverse_reverse, List.dropWhile_idempotent]

theorem map_trimEnd_whole (text : List Char) :
    (whole text).map trimEnd = (split text).map trimEnd := by
  induction text with
  | nil => rfl
  | cons c text induction =>
      by_cases ends : c = '\n'
      · subst ends
        rw [whole, split_lineFeed, List.map_cons, List.map_cons, induction]
        rfl
      · rw [whole_cons ends, split_cons ends]
        revert induction
        cases whole text with
        | nil =>
            cases split text with
            | nil => exact fun _ => rfl
            | cons other others =>
                intro same
                exact absurd same.symm (List.cons_ne_nil _ _)
        | cons line lines =>
            cases split text with
            | nil =>
                intro same
                exact absurd same (List.cons_ne_nil _ _)
            | cons other others =>
                intro same
                rw [List.map_cons, List.map_cons, List.cons.injEq] at same
                rw [List.map_cons, List.map_cons, same.2,
                  trimEnd_cons_congr same.1]

theorem map_trimEnd_ofFile (text : List Char) :
    (ofFile text).map trimEnd = (split (Newline.translate text)).map trimEnd := by
  rw [ofFile_eq_whole, map_trimEnd_whole]

end Lines

theorem Playfield.ofLines_congr {lines others : List (List Char)}
    (same : lines.map Lines.trimEnd = others.map Lines.trimEnd) (width : Int)
    (filler : Char) (edge : Edge) :
    ofLines lines width filler edge = ofLines others width filler edge := by
  have laid (lines : List (List Char)) :
      lines.map (fun line => (layRow width filler line).toArray) =
        (lines.map Lines.trimEnd).map fun line =>
          (layRow width filler line).toArray := by
    rw [List.map_map]
    apply List.map_congr_left
    intro line _
    rw [Function.comp_apply, layRow, layRow, Lines.trimEnd_trimEnd]
  rw [ofLines, ofLines, laid, same, ← laid]

end Esoteric
