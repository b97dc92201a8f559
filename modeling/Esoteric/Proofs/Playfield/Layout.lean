import Esoteric.Proofs.Playfield.Load
import Esoteric.Proofs.Text.Segment

/-! How a text is laid out on a playfield. -/

namespace Esoteric.Playfield

/-- There is a row for each line, of one width: the characters of the line without
its end as far as they fit, and the filler behind them. -/
structure Lays (field : Playfield) (lines : List (List Char)) (width : Nat)
    (filler : Char) : Prop where
  height : field.height = lines.length
  rows : ∀ (y : Nat) line, lines[y]? = some line →
    ∃ row, field.rows[y]? = some row ∧ row.size = width ∧
      ∀ x < width, row[x]? =
        some (((line.rdropWhile (· ∈ ['\r', '\n']))[x]?.getD filler).toNat : Int)

theorem trimEnd_eq_rdropWhile (line : List Char) :
    Lines.trimEnd line = line.rdropWhile (· ∈ ['\r', '\n']) := by
  have same : Lines.endsLine = fun c => decide (c ∈ ['\r', '\n']) := by
    funext c
    simp [Lines.endsLine]
  rw [Lines.trimEnd, same]
  rfl

theorem lays_ofLines (lines : List (List Char)) (width : Nat) (filler : Char)
    (edge : Edge) :
    (ofLines lines width filler edge).Lays lines width filler where
  height := by
    rw [height, ofLines, List.size_toArray, List.length_map]
  rows y line found := by
    refine ⟨(layRow width filler line).toArray, ?_, ?_, ?_⟩
    · rw [ofLines, List.getElem?_toArray, List.getElem?_map, found]
      rfl
    · have length := length_layRow (Int.natCast_nonneg width) filler line
      rw [List.size_toArray]
      exact Int.ofNat_inj.1 length
    · intro x inside
      rw [List.getElem?_toArray, getElem?_layRow, if_pos inside,
        trimEnd_eq_rdropWhile]

theorem rows_ofLines_append (first second : List (List Char)) (width : Int)
    (filler : Char) (edge : Edge) :
    (ofLines (first ++ second) width filler edge).rows =
      (ofLines first width filler edge).rows ++
        (ofLines second width filler edge).rows := by
  simp only [ofLines, List.map_append, List.append_toArray]

theorem ofLines_ended {c : Char} (ends : Lines.endsLine c = true)
    (segments others : List (List Char)) (width : Int) (filler : Char)
    (edge : Edge) :
    ofLines (segments.map (· ++ [c]) ++ others) width filler edge =
      ofLines (segments ++ others) width filler edge := by
  apply ofLines_congr
  rw [List.map_append, List.map_append, List.map_map]
  congr 1
  apply List.map_congr_left
  intro segment _
  exact Lines.trimEnd_append_of_ends segment ends

/-- A text is laid out line by line. Its lines end at line feeds alone, with or
without carriage returns before them, and it makes no difference whether they come
as a text or as a list, with or without their ends. -/
theorem layout_of_text (text : List Char) (width : Nat) (filler : Char)
    (edge : Edge) :
    (∃ segments remainder, Lines.Segmented text segments remainder ∧
      let others := if remainder = [] then [] else [remainder]
      let field := ofText text width filler edge
      field.Lays (segments ++ others) width filler ∧
        ofLines (segments ++ others) width filler edge = field ∧
        ofLines (segments.map (· ++ ['\n']) ++ others) width filler edge =
          field) ∧
      (∀ later, (ofText (text ++ '\n' :: later) width filler edge).rows =
        (ofText (text ++ ['\n']) width filler edge).rows ++
          (ofText later width filler edge).rows) ∧
      ofText (Lines.withReturns text) width filler edge =
        ofText text width filler edge := by
  obtain ⟨segments, remainder, segmented⟩ := Lines.exists_segmented text
  refine ⟨⟨segments, remainder, segmented, ?_⟩, ?_, ?_⟩
  · intro others field
    have laid : ofLines (segments ++ others) width filler edge = field := by
      simp only [field, ofText, segmented.split]
      rfl
    refine ⟨?_, laid, ?_⟩
    · rw [← laid]
      exact lays_ofLines _ width filler edge
    · rw [ofLines_ended (by decide), laid]
  · intro later
    rw [ofText, Lines.split_append_lineFeed, rows_ofLines_append]
    rfl
  · rw [ofText, ofText, segmented.withReturns.split, segmented.split,
      ofLines_ended (by decide)]

example :
    let text := ['a', 'b', 'c', '\n', '\r', 'd', '\r', '\r', '\n', '\n', 'e']
    (ofText text 2 '.' .strict).rows =
      #[#[97, 98], #[13, 100], #[46, 46], #[101, 46]] := by
  decide

end Esoteric.Playfield
