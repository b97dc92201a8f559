import Mathlib.Data.List.Induction
import Esoteric.Proofs.Access
import Esoteric.Proofs.Tape

/-! What a tape that is read and written tells of its writes. -/

namespace Esoteric.Tape

def perform (tape : Tape) : Access Int → Option Int × Tape
  | .read index => (some (tape.read index), tape)
  | .write index value => (none, tape.write index value)

def after (history : List (Access Int)) (tape : Tape) : Tape :=
  history.foldl (fun tape access => (tape.perform access).2) tape

theorem after_concat (history : List (Access Int)) (access : Access Int)
    (tape : Tape) :
    after (history ++ [access]) tape = ((after history tape).perform access).2 := by
  rw [after, List.foldl_append]
  rfl

theorem size_write (tape : Tape) (position value : Int) :
    (tape.write position value).cells.size =
      max tape.cells.size (slot position + 1) := by
  simp only [write, Array.size_setIfInBounds, Array.size_append,
    Array.size_replicate]
  omega

theorem read_after (history : List (Access Int)) (tape : Tape)
    (position : Int) :
    (after history tape).read position =
      (Access.lastWritten? position history).getD (tape.read position) := by
  induction history using List.reverseRecOn with
  | nil => rfl
  | append_singleton history access induction =>
      rw [after_concat, Access.lastWritten?_concat]
      cases access with
      | read index => exact induction
      | write index value =>
          rw [perform, read_write, Access.written?]
          by_cases same : position = index
          · rw [if_pos same, if_pos same.symm]
            rfl
          · rw [if_neg same, if_neg (Ne.symm same)]
            exact induction

structure Covers (indexes : List Int) (count : Nat) : Prop where
  within : ∀ index ∈ indexes, slot index < count
  reached : count = 0 ∨ ∃ top ∈ indexes, count = slot top + 1

theorem Covers.concat {indexes : List Int} {count : Nat}
    (covers : Covers indexes count) (index : Int) :
    Covers (indexes ++ [index]) (max count (slot index + 1)) where
  within other among := by
    rcases List.mem_append.1 among with earlier | last
    · have below := covers.within other earlier
      omega
    · obtain rfl := List.mem_singleton.1 last
      omega
  reached := by
    right
    by_cases grows : count ≤ slot index
    · refine ⟨index, List.mem_append_right _ (List.mem_singleton_self _), ?_⟩
      omega
    · rcases covers.reached with empty | ⟨top, among, reaches⟩
      · omega
      · refine ⟨top, List.mem_append_left _ among, ?_⟩
        omega

theorem Covers.exists_top {indexes : List Int} {count : Nat}
    (covers : Covers indexes count) (filled : indexes ≠ []) :
    ∃ top ∈ indexes, (∀ index ∈ indexes, slot index ≤ slot top) ∧
      count = slot top + 1 := by
  rcases covers.reached with empty | ⟨top, among, reaches⟩
  · obtain ⟨index, among⟩ := List.exists_mem_of_ne_nil indexes filled
    have below := covers.within index among
    omega
  · refine ⟨top, among, ?_, reaches⟩
    intro index other
    have below := covers.within index other
    omega

theorem covers_after (history : List (Access Int)) :
    Covers (Access.targets history) (after history blank).cells.size := by
  induction history using List.reverseRecOn with
  | nil => exact ⟨nofun, .inl rfl⟩
  | append_singleton history access induction =>
      rw [after_concat, Access.targets_concat]
      cases access with
      | read index =>
          rw [Access.target?, Option.toList_none, List.append_nil]
          exact induction
      | write index value =>
          rw [perform, size_write]
          exact induction.concat index

/-- A tape that was blank remembers the last write at each index, and zero where
there was none. A read leaves it as it is, a write shows at no other index, and its
cells reach as far as the writes. -/
theorem history_of_blank (history : List (Access Int)) :
    let tape := after history blank
    (∀ index, tape.perform (.read index) =
      (some ((Access.lastWritten? index history).getD 0), tape)) ∧
      (∀ index value other, other ≠ index →
        (tape.perform (.write index value)).2.read other = tape.read other) ∧
      (Access.targets history = [] → tape.cells.size = 0) ∧
      (Access.targets history ≠ [] →
        ∃ top ∈ Access.targets history,
          (∀ index ∈ Access.targets history, slot index ≤ slot top) ∧
            tape.cells.size = slot top + 1) := by
  intro tape
  have covers := covers_after history
  refine ⟨?_, ?_, ?_, covers.exists_top⟩
  · intro index
    rw [perform, read_after, read_blank]
  · intro index value other apart
    rw [perform, read_write, if_neg apart]
  · intro unwritten
    rw [unwritten] at covers
    rcases covers.reached with empty | ⟨top, among, _⟩
    · exact empty
    · contradiction

example :
    (after [.write 2 7, .read (-9), .write (-2) 5] blank).cells =
      #[0, 0, 0, 5, 7] := by
  decide

end Esoteric.Tape
