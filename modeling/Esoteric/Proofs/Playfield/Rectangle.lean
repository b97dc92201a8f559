import Esoteric.Launch
import Esoteric.Proofs.Playfield.Layout
import Esoteric.Proofs.Playfield.Transposed

/-! Which programs are laid out as rectangles. -/

namespace Esoteric

namespace Playfield

variable {lines : List (List Char)} {width : Int}

/-- The number of cells that a line is given; a negative width takes characters from
the end of the line and fills nothing up. -/
def extent (width : Int) (line : List Char) : Nat :=
  if 0 ≤ width then width.toNat
  else (line.rdropWhile (· ∈ ['\r', '\n'])).length - width.natAbs

theorem length_layRow_eq_extent (width : Int) (filler : Char)
    (line : List Char) :
    (layRow width filler line).length = extent width line := by
  cases width with
  | ofNat columns =>
      have wide : 0 ≤ Int.ofNat columns := Int.natCast_nonneg columns
      rw [extent, if_pos wide]
      exact Int.ofNat_inj.1 (length_layRow wide filler line)
  | negSucc excess =>
      have negative : ¬ 0 ≤ Int.negSucc excess := by omega
      have unfilled (kept : Nat) : (Int.negSucc excess - kept).toNat = 0 := by
        omega
      rw [extent, if_neg negative, ← trimEnd_eq_rdropWhile, layRow]
      simp only [cut, List.length_append, List.length_map,
        List.length_replicate, unfilled, List.length_take, Int.natAbs_negSucc]
      omega

theorem sizes_ofLines (lines : List (List Char)) (width : Int) (filler : Char)
    (edge : Edge) :
    (ofLines lines width filler edge).rows.toList.map Array.size =
      lines.map (extent width) := by
  rw [ofLines, List.map_map]
  apply List.map_congr_left
  intro line _
  exact length_layRow_eq_extent width filler line

theorem rectangular_iff_sizes (field : Playfield) (columns : Nat) :
    field.Rectangular columns ↔
      ∀ size ∈ field.rows.toList.map Array.size, size = columns := by
  rw [List.forall_mem_map]
  constructor
  · intro rectangular row member
    exact rectangular row (Array.mem_toList_iff.1 member)
  · intro sizes row member
    exact sizes row (Array.mem_toList_iff.2 member)

theorem exists_rectangular_iff (lines : List (List Char)) (width : Int)
    (filler : Char) (edge : Edge) :
    (∃ columns, (ofLines lines width filler edge).Rectangular columns) ↔
      ∀ line ∈ lines, ∀ other ∈ lines,
        extent width line = extent width other := by
  simp only [rectangular_iff_sizes, sizes_ofLines, List.forall_mem_map]
  constructor
  · rintro ⟨columns, even⟩ line among other alsoAmong
    rw [even line among, even other alsoAmong]
  · intro alike
    cases lines with
    | nil => exact ⟨0, nofun⟩
    | cons first lines =>
        refine ⟨extent width first, ?_⟩
        intro line among
        exact alike line among first List.mem_cons_self

end Playfield

def Grid.Dialect.language : Grid.Dialect → Language
  | .befunge => .befunge
  | .argh => .argh

/-- A program whose width is not negative is laid out as a rectangle. Any other is
one only if its lines are left at one length. -/
theorem Machine.rectangular_ofSource_iff (dialect : Grid.Dialect)
    (source : List Char) (width : Int) (edge : Option Edge) :
    ∃ state,
      ofSource dialect.language source width edge = .grid dialect state ∧
      state.field.rows.toList.map Array.size =
        (Lines.split source).map (Playfield.extent width) ∧
      ((∃ columns, state.field.Rectangular columns) ↔
        0 ≤ width ∨
          ∀ line ∈ Lines.split source, ∀ other ∈ Lines.split source,
            Playfield.extent width line = Playfield.extent width other) := by
  refine ⟨.ofSource dialect source width edge, ?_, ?_, ?_⟩
  · cases dialect <;> rfl
  · exact Playfield.sizes_ofLines ..
  · rw [Grid.Machine.ofSource, Playfield.ofText,
      Playfield.exists_rectangular_iff]
    constructor
    · exact .inr
    · rintro (wide | alike)
      · intro line _ other _
        rw [Playfield.extent, Playfield.extent, if_pos wide, if_pos wide]
      · exact alike

/-- A width of minus one is accepted, and leaves one cell of the first line and none
of the second. -/
theorem Options.ragged_of_negative_width :
    ¬ ∀ (words : List String) (options : Options) (room : List Nat → Bool)
      (source : List Char) (dialect : Grid.Dialect) (state : Grid.Machine),
      Options.parse words = .ok options →
      options.machine room source = .ok (.grid dialect state) →
        ∃ columns, state.field.Rectangular columns := by
  intro meant
  obtain ⟨columns, rectangular⟩ := meant ["--width", "-1"]
    { width := .value (-1) } (fun _ => true) ['1', '2', '\n', '@'] .befunge
    { field := { rows := #[#[49], #[]], edge := .silent 32 } } rfl rfl
  have first := rectangular #[49] (by simp)
  have second := rectangular #[] (by simp)
  exact Nat.one_ne_zero (first.trans second.symm)

end Esoteric
