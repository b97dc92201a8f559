import Esoteric.Tape

namespace Esoteric.Tape

theorem read_write (tape : Tape) (position value other : Int) :
    (tape.write position value).read other =
      if other = position then value else tape.read other := by
  have bound : slot position < tape.cells.size +
      (slot position + 1 - tape.cells.size) := by
    omega
  simp only [read, write, Array.getElem?_setIfInBounds, Array.size_append,
    Array.size_replicate]
  by_cases same : other = position
  · subst same
    simp only [if_pos bound, if_true, Option.getD_some]
  · have apart : slot position ≠ slot other := fun equality =>
      same (slot_injective equality.symm)
    rw [if_neg apart, if_neg same, Array.getElem?_append]
    split
    · rfl
    · rename_i outside
      rw [Array.getElem?_eq_none (Nat.le_of_not_lt outside),
        Array.getElem?_replicate]
      split <;> rfl

section

variable {holds : Int → Prop} {tape : Tape}

theorem holds_read (zero : holds 0) (every : ∀ cell ∈ tape.cells, holds cell)
    (position : Int) : holds (tape.read position) := by
  unfold read
  cases found : tape.cells[slot position]? with
  | none => exact zero
  | some cell => exact every cell (Array.mem_of_getElem? found)

theorem holds_write (zero : holds 0) (every : ∀ cell ∈ tape.cells, holds cell)
    (position : Int) {value : Int} (written : holds value) :
    ∀ cell ∈ (tape.write position value).cells, holds cell := by
  intro cell member
  obtain member | rfl := Array.mem_or_eq_of_mem_setIfInBounds member
  · obtain old | fresh := Array.mem_append.1 member
    · exact every cell old
    · rw [Array.eq_of_mem_replicate fresh]
      exact zero
  · exact written

end

def map (change : Int → Int) (tape : Tape) : Tape :=
  ⟨tape.cells.map change⟩

@[simp] theorem map_blank (change : Int → Int) :
    blank.map change = blank := by
  simp only [map, blank, Array.map_empty]

section

variable {change : Int → Int}

theorem read_map (zero : change 0 = 0) (tape : Tape) (position : Int) :
    (tape.map change).read position = change (tape.read position) := by
  simp only [read, map, Array.getElem?_map]
  cases tape.cells[slot position]? with
  | none => exact zero.symm
  | some cell => rfl

theorem write_map (zero : change 0 = 0) (tape : Tape) (position value : Int) :
    (tape.map change).write position (change value) =
      (tape.write position value).map change := by
  simp only [write, map, Array.size_map, Array.map_setIfInBounds,
    Array.map_append, Array.map_replicate, zero]

end

end Esoteric.Tape
