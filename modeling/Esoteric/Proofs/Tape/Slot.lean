import Mathlib.Data.Set.Function
import Esoteric.Tape

/-! Slots stand for indexes one to one, and the indexes next to zero have the first of
them. -/

namespace Esoteric.Tape

open Set

/-- The slot of an index is a number from zero up by itself, and is not cut off. -/
theorem natCast_slot (position : Int) :
    (slot position : Int) =
      if 0 ≤ position then 2 * position else -2 * position - 1 := by
  unfold slot
  split <;> omega

theorem slot_index (place : Nat) : slot (index place) = place := by
  unfold slot index
  split <;> split <;> omega

theorem slot_lt_iff (position count : Int) :
    (slot position : Int) < 2 * count ↔ -count ≤ position ∧ position < count := by
  rw [natCast_slot]
  split <;> omega

theorem slot_bijOn (count : Int) :
    BijOn slot { position | -count ≤ position ∧ position < count }
      { place | (place : Int) < 2 * count } := by
  refine ⟨?_, ?_, ?_⟩
  · intro position near
    exact (slot_lt_iff position count).2 near
  · intro first _ second _ same
    exact slot_injective same
  · intro place within
    refine ⟨index place, ?_, slot_index place⟩
    apply (slot_lt_iff (index place) count).1
    rw [slot_index]
    exact within

/-- Indexes and slots are the same but for their names: each index has a slot of its
own, no slot is left over, and so many indexes on either side of zero have the first
slots. -/
theorem slots_of_indexes :
    (∀ position : Int,
      (slot position : Int) =
          (if 0 ≤ position then 2 * position else -2 * position - 1) ∧
        index (slot position) = position) ∧
      (∀ place : Nat, slot (index place) = place) ∧
      ∀ count : Int,
        BijOn slot { position | -count ≤ position ∧ position < count }
          { place | (place : Int) < 2 * count } := by
  refine ⟨?_, slot_index, slot_bijOn⟩
  intro position
  exact ⟨natCast_slot position, index_slot position⟩

example : [-2, -1, 0, 1, 2].map slot = [3, 1, 0, 2, 4] := by
  decide

end Esoteric.Tape
