import Mathlib.Data.List.Induction
import Esoteric.Proofs.Access
import Esoteric.Proofs.Playfield.Access
import Esoteric.Proofs.Wording

/-! What a playfield that is read and written tells of its writes. -/

namespace Esoteric

/-- A fault that is told in words which name a position, unless one of its
coordinates has too many digits. -/
structure Fault.Names (cause : Fault) (start : String) (position : Position) :
    Prop where
  failure : (∀ number ∈ position.numbers, Numeral.Short number) →
    cause.raised = .failure (start ++ position.render)
  overlong : (∃ number ∈ position.numbers, ¬ Numeral.Short number) →
    cause.raised = .overlong

theorem Fault.Names.of_message? {cause : Fault} {start : String}
    {position : Position}
    (told : cause.message? = assemble? [some start, position.render?]) :
    cause.Names start position where
  failure short := by
    rw [raised_eq_failure_iff, told, Position.render?_of_short short]
    simp [assemble?]
  overlong long := by
    rw [raised_eq_overlong_iff, told, assemble?_cons_eq_none_iff,
      assemble?_cons_eq_none_iff, Position.render?_eq_none_iff]
    exact .inr (.inl long)

namespace Playfield

variable {field : Playfield} {position : Position}

def perform (field : Playfield) :
    Access Position → Except Fault (Option Int) × Playfield
  | .read position => ((field.read position).map some, field)
  | .write position value =>
      match field.write position value with
      | .inside changed => (.ok none, changed)
      | .dropped => (.ok none, field)
      | .refused cause => (.error cause, field)

def after (history : List (Access Position)) (field : Playfield) : Playfield :=
  history.foldl (fun field access => (field.perform access).2) field

theorem after_concat (history : List (Access Position))
    (access : Access Position) (field : Playfield) :
    after (history ++ [access]) field =
      ((after history field).perform access).2 := by
  rw [after, List.foldl_append]
  rfl

theorem contains_iff (field : Playfield) (position : Position) :
    field.contains position = true ↔
      (0 ≤ position.y ∧ position.y < field.height) ∧
        0 ≤ position.x ∧ position.x < field.width position.y := by
  obtain ⟨x, y⟩ := position
  cases y with
  | negSucc y =>
      have above : ¬ 0 ≤ Int.negSucc y := by omega
      cases x <;> simp [contains, cell?, above]
  | ofNat y =>
      cases x with
      | negSucc x =>
          have left : ¬ 0 ≤ Int.negSucc x := by omega
          simp [contains, cell?, left]
      | ofNat x =>
          simp only [contains, cell?, width, height, Int.ofNat_eq_natCast]
          cases found : field.rows[y]? with
          | none =>
              have below := Array.getElem?_eq_none_iff.1 found
              simp only [Option.bind_none, Option.isSome_none,
                Bool.false_eq_true, false_iff]
              omega
          | some row =>
              obtain ⟨within, _⟩ := Array.getElem?_eq_some_iff.1 found
              simp [within]

theorem exists_cell_of_contains (inside : field.contains position = true) :
    ∃ row value, field.rows[position.y.toNat]? = some row ∧
      row[position.x.toNat]? = some value ∧
      field.cell? position = some value := by
  obtain ⟨value, stored⟩ := Option.isSome_iff_exists.1 inside
  obtain ⟨x, y⟩ := position
  cases x <;> cases y <;> simp only [cell?, reduceCtorEq] at stored
  obtain ⟨row, atRow, atCell⟩ := Option.bind_eq_some_iff.1 stored
  exact ⟨row, value, atRow, atCell, by rw [cell?, atRow]; exact atCell⟩

theorem perform_write_of_contains (inside : field.contains position = true)
    (value : Int) :
    field.perform (.write position value) =
      (.ok none, field.set position value) := by
  obtain ⟨earlier, stored⟩ := Option.isSome_iff_exists.1 inside
  rw [perform, write_of_some stored]

theorem perform_of_silent {filler : Int} (silent : field.edge = .silent filler)
    (outside : field.contains position = false) :
    field.perform (.read position) = (.ok (some filler), field) ∧
      ∀ value, field.perform (.write position value) = (.ok none, field) := by
  have absent := contains_eq_false.1 outside
  constructor
  · simp only [perform, read, absent, silent, Except.map]
  · intro value
    simp only [perform, write, absent, silent]

theorem perform_of_strict (strict : field.edge = .strict)
    (outside : field.contains position = false) :
    field.perform (.read position) =
        (.error (.readOutside position), field) ∧
      ∀ value, field.perform (.write position value) =
        (.error (.writeOutside position), field) := by
  have absent := contains_eq_false.1 outside
  constructor
  · simp only [perform, read_of_strict strict absent, Except.map]
  · intro value
    simp only [perform, write_of_strict strict absent]

theorem state_perform_write (field : Playfield) (position : Position)
    (value : Int) :
    (field.perform (.write position value)).2 =
      if field.contains position = true then field.set position value
      else field := by
  split
  · rename_i inside
    rw [perform_write_of_contains inside]
  · rename_i outside
    rw [Bool.not_eq_true] at outside
    cases edge : field.edge with
    | strict => rw [(perform_of_strict edge outside).2]
    | silent filler => rw [(perform_of_silent edge outside).2]

/-- What no write to a cell changes, no history changes. -/
theorem view_after {View : Type} (view : Playfield → View)
    (kept : ∀ field position value,
      view (field.set position value) = view field)
    (history : List (Access Position)) (field : Playfield) :
    view (after history field) = view field := by
  induction history using List.reverseRecOn with
  | nil => rfl
  | append_singleton history access induction =>
      rw [after_concat]
      cases access with
      | read position => exact induction
      | write position value =>
          rw [state_perform_write]
          split
          · rw [kept, induction]
          · exact induction

theorem sizes_set (field : Playfield) (position : Position) (value : Int) :
    (field.set position value).rows.map Array.size =
      field.rows.map Array.size := by
  obtain ⟨x, y⟩ := position
  cases x <;> cases y <;> simp only [set]
  apply Array.ext_getElem?
  intro row
  simp only [Array.getElem?_map, Array.getElem?_modify]
  split
  · simp only [Option.map_map, Function.comp_def, Array.size_setIfInBounds]
  · rfl

theorem cell?_perform_write (field : Playfield) (position : Position)
    (value : Int) (other : Position) :
    (field.perform (.write position value)).2.cell? other =
      if other = position then (field.cell? other).map fun _ => value
      else field.cell? other := by
  rw [state_perform_write]
  by_cases inside : field.contains position = true
  · rw [if_pos inside, cell?_set inside]
    split
    · rename_i same
      obtain ⟨earlier, stored⟩ := Option.isSome_iff_exists.1 inside
      rw [same, stored]
      rfl
    · rfl
  · rw [if_neg inside]
    split
    · rename_i same
      rw [Bool.not_eq_true, contains_eq_false] at inside
      rw [same, inside]
      rfl
    · rfl

theorem cell?_after (history : List (Access Position)) (field : Playfield)
    (position : Position) :
    (after history field).cell? position =
      (field.cell? position).map fun initial =>
        (Access.lastWritten? position history).getD initial := by
  induction history using List.reverseRecOn with
  | nil => exact Option.map_id'.symm
  | append_singleton history access induction =>
      rw [after_concat, Access.lastWritten?_concat]
      cases access with
      | read other => exact induction
      | write other value =>
          rw [cell?_perform_write, Access.written?, induction]
          by_cases same : position = other
          · rw [if_pos same, if_pos same.symm, Option.map_map]
            rfl
          · rw [if_neg same, if_neg (Ne.symm same)]
            rfl

theorem contains_after (history : List (Access Position)) (field : Playfield)
    (position : Position) :
    (after history field).contains position = field.contains position := by
  rw [contains, cell?_after, Option.isSome_map]
  rfl

/-- What a playfield is left as by a history of accesses: its rows are as long as
before, each of its cells holds the last value that was written to it, and its edge
answers for all that is outside. -/
structure Remembers (field : Playfield) (history : List (Access Position))
    (reached : Playfield) : Prop where
  sizes : reached.rows.map Array.size = field.rows.map Array.size
  inside : ∀ position, reached.contains position = true ↔
    (0 ≤ position.y ∧ position.y < field.height) ∧
      0 ≤ position.x ∧ position.x < field.width position.y
  reads : ∀ position, reached.contains position = true →
    ∃ row initial, field.rows[position.y.toNat]? = some row ∧
      row[position.x.toNat]? = some initial ∧
      reached.perform (.read position) =
        (.ok (some ((Access.lastWritten? position history).getD initial)),
          reached)
  writes : ∀ position, reached.contains position = true → ∀ value,
    (reached.perform (.write position value)).1 = .ok none
  silent : ∀ filler, field.edge = .silent filler →
    ∀ position, reached.contains position = false →
      reached.perform (.read position) = (.ok (some filler), reached) ∧
        ∀ value,
          reached.perform (.write position value) = (.ok none, reached)
  strict : field.edge = .strict →
    ∀ position, reached.contains position = false →
      (∃ cause, reached.perform (.read position) = (.error cause, reached) ∧
        cause.Names "read outside the grid at " position) ∧
      ∀ value, ∃ cause,
        reached.perform (.write position value) = (.error cause, reached) ∧
          cause.Names "write outside the grid at " position

/-- A playfield remembers what is written to its cells, and nothing else. -/
theorem remembers_after (field : Playfield)
    (history : List (Access Position)) :
    field.Remembers history (after history field) := by
  have edge : (after history field).edge = field.edge :=
    view_after (·.edge) set_edge history field
  constructor
  case sizes => exact view_after (·.rows.map Array.size) sizes_set history field
  case inside =>
    intro position
    rw [contains_after, contains_iff]
  case reads =>
    intro position inside
    rw [contains_after] at inside
    obtain ⟨row, initial, atRow, atCell, stored⟩ :=
      exists_cell_of_contains inside
    refine ⟨row, initial, atRow, atCell, ?_⟩
    have remembered := cell?_after history field position
    rw [stored, Option.map_some] at remembered
    rw [perform, read_of_some remembered]
    rfl
  case writes =>
    intro position inside value
    rw [perform_write_of_contains inside]
  case silent =>
    intro filler silent position outside
    exact perform_of_silent (edge.trans silent) outside
  case strict =>
    intro strict position outside
    obtain ⟨refusesRead, refusesWrite⟩ :=
      perform_of_strict (edge.trans strict) outside
    refine ⟨⟨_, refusesRead, ?_⟩, ?_⟩
    · exact .of_message? rfl
    · intro value
      exact ⟨_, refusesWrite value, .of_message? rfl⟩

example :
    let field : Playfield := { rows := #[#[1, 2], #[3]], edge := .silent 32 }
    (after [.write ⟨1, 0⟩ 7, .write ⟨-1, 0⟩ 8, .write ⟨1, 1⟩ 9, .read ⟨0, -1⟩]
      field).rows = #[#[1, 7], #[3]] := by
  decide

/-- An access too far away for its coordinates to be shown is refused in no words. -/
theorem overlong_of_far_read :
    ¬ ∀ (field : Playfield) (position : Position), field.edge = .strict →
      field.contains position = false →
      ∃ cause message, field.read position = .error cause ∧
        cause.raised = .failure message := by
  intro meant
  let field : Playfield := { rows := #[], edge := .strict }
  let position : Position := { x := (10 ^ Numeral.mostDigits : Nat), y := 0 }
  obtain ⟨cause, message, refused, raises⟩ := meant field position rfl rfl
  obtain rfl : .readOutside position = cause := Except.error.inj refused
  have overlong : (Fault.readOutside position).raised = .overlong :=
    Fault.raised_of_long ⟨position.x, List.mem_cons_self, Numeral.not_short_pow⟩
  rw [overlong] at raises
  contradiction

end Playfield

end Esoteric
