import Esoteric.Playfield.Basic

namespace Esoteric

namespace Playfield

def widest (field : Playfield) : Nat :=
  field.rows.foldl (fun width row => max width row.size) 0

def reach (field : Playfield) (position : Position) : Direction → Nat
  | .left => (position.x + 1).toNat
  | .right => (field.widest - position.x).toNat
  | .up => (position.y + 1).toNat
  | .down => (field.height - position.y).toNat

theorem size_le_widest (field : Playfield) {row : Array Int}
    (member : row ∈ field.rows) : row.size ≤ field.widest := by
  have general : ∀ (rows : List (Array Int)) (start : Nat),
      start ≤ rows.foldl (fun width row => max width row.size) start ∧
        ∀ row ∈ rows,
          row.size ≤ rows.foldl (fun width row => max width row.size) start := by
    intro rows
    induction rows with
    | nil => simp
    | cons head tail induction =>
        intro start
        obtain ⟨grows, bounds⟩ := induction (max start head.size)
        refine ⟨by simp only [List.foldl_cons]; omega, ?_⟩
        intro row member
        simp only [List.foldl_cons]
        cases List.mem_cons.1 member with
        | inl same => subst same; omega
        | inr later => exact bounds row later
  unfold widest
  rw [← Array.foldl_toList]
  exact (general field.rows.toList 0).2 row (by simpa using member)

theorem bounds_of_cell? {field : Playfield} {position : Position} {value : Int}
    (stored : field.cell? position = some value) :
    0 ≤ position.x ∧ position.x < field.widest ∧
      0 ≤ position.y ∧ position.y < field.height := by
  obtain ⟨x, y⟩ := position
  cases x <;> cases y <;> simp only [cell?, reduceCtorEq] at stored
  rename_i x y
  obtain ⟨row, foundRow, foundCell⟩ := Option.bind_eq_some_iff.1 stored
  obtain ⟨rowBound, rowEq⟩ := Array.getElem?_eq_some_iff.1 foundRow
  obtain ⟨cellBound, _⟩ := Array.getElem?_eq_some_iff.1 foundCell
  have member : row ∈ field.rows := rowEq ▸ Array.getElem_mem rowBound
  have wide := field.size_le_widest member
  simp only [Int.ofNat_eq_natCast, height]
  omega

theorem reach_advance_lt {field : Playfield} {position : Position} {value : Int}
    (direction : Direction) (stored : field.cell? position = some value) :
    field.reach (position.advance direction) direction <
      field.reach position direction := by
  obtain ⟨left, right, top, bottom⟩ := bounds_of_cell? stored
  cases direction <;>
    simp only [reach, Position.advance, Direction.dx, Direction.dy] <;> omega

/-- The stored cells met from a position on, up to the first position outside. -/
def ray (field : Playfield) (position : Position) (direction : Direction) :
    List Int :=
  match _stored : field.cell? position with
  | none => []
  | some value => value :: field.ray (position.advance direction) direction
termination_by field.reach position direction
decreasing_by exact reach_advance_lt direction _stored

theorem ray_of_none {field : Playfield} {position : Position}
    (direction : Direction) (outside : field.cell? position = none) :
    field.ray position direction = [] := by
  rw [ray]
  split <;> simp_all

theorem ray_of_some {field : Playfield} {position : Position} {value : Int}
    (direction : Direction) (stored : field.cell? position = some value) :
    field.ray position direction =
      value :: field.ray (position.advance direction) direction := by
  rw [ray]
  split <;> simp_all

theorem getElem?_ray (field : Playfield) (position : Position)
    (direction : Direction) (distance : Nat)
    (within : distance ≤ (field.ray position direction).length) :
    (field.ray position direction)[distance]? =
      field.cell? (position.moved direction distance) := by
  fun_induction ray field position direction generalizing distance with
  | case1 position outside =>
      obtain rfl : distance = 0 := by simpa using within
      simp [outside]
  | case2 position value stored induction =>
      cases distance with
      | zero => simp [stored]
      | succ distance =>
          rw [Position.moved_succ]
          simpa using induction distance (by simpa using within)

end Playfield

end Esoteric
