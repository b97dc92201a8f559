import Esoteric.Machine
import Esoteric.Proofs.Grid.Effect
import Esoteric.Proofs.Playfield.Load

/-! A pointer does not get far from the stored cells. -/

namespace Esoteric

open Run

/-- A position that is a number of moves, at most the leeway, off a stored cell. -/
def Playfield.Near (field : Playfield) (leeway : Nat) (position : Position) :
    Prop :=
  ∃ start direction moves, field.contains start = true ∧ moves ≤ leeway ∧
    position = start.moved direction moves

/-- At most one coordinate is out of its range, and that by no more than the
leeway. -/
structure Position.Confined (width height : Int) (leeway : Nat)
    (position : Position) : Prop where
  one : 0 ≤ position.x ∧ position.x < width ∨
    0 ≤ position.y ∧ position.y < height
  left : -leeway ≤ position.x
  right : position.x < width + leeway
  top : -leeway ≤ position.y
  bottom : position.y < height + leeway

theorem Playfield.near_of_contains {field : Playfield} {position : Position}
    (stored : field.contains position = true) (leeway : Nat) :
    field.Near leeway position :=
  ⟨position, .right, 0, stored, Nat.zero_le leeway,
    (Position.moved_zero ..).symm⟩

theorem Playfield.near_advance {field : Playfield} {leeway : Nat}
    {position : Position} (stored : field.contains position = true)
    (roomy : 0 < leeway) (direction : Direction) :
    field.Near leeway (position.advance direction) := by
  refine ⟨position, direction, 1, stored, roomy, ?_⟩
  rw [Position.moved_succ, Position.moved_zero]

theorem Playfield.Near.confined {field : Playfield} {width height : Int}
    {leeway : Nat} {position : Position} (near : field.Near leeway position)
    (shape : ∀ position, field.contains position = true ↔
      (0 ≤ position.x ∧ position.x < width) ∧
        0 ≤ position.y ∧ position.y < height) :
    position.Confined width height leeway := by
  obtain ⟨start, direction, moves, stored, few, rfl⟩ := near
  obtain ⟨⟨left, right⟩, top, bottom⟩ := (shape start).1 stored
  cases direction with
  | left | right =>
      constructor <;>
        simp only [Position.moved, Direction.dx, Direction.dy] <;> omega
  | down | up =>
      constructor <;>
        simp only [Position.moved, Direction.dx, Direction.dy] <;> omega

namespace Grid

/-- How far outside a program can lead: only a bridge jumps over a cell that is
not looked at. -/
def Dialect.leeway : Dialect → Nat
  | befunge => 2
  | argh => 1

variable {machine : Machine} {leeway : Nat} {step : Step Machine}
  {dialect : Dialect}

namespace Machine

structure Tethered (field : Playfield) (leeway : Nat) (machine : Machine) :
    Prop where
  shape : ∀ position, machine.field.contains position = field.contains position
  near : field.Near leeway machine.pointer

/-- An instruction does not lead far, nor does the move to the next cell that
follows if it succeeds. -/
structure Stays (field : Playfield) (leeway : Nat) (step : Step Machine) :
    Prop where
  tethered : step.state.Tethered field leeway
  next : step.outcome = .ok →
    field.Near leeway (step.state.pointer.advance step.state.heading)

theorem stays_of_landing {field : Playfield} (roomy : 0 < leeway)
    (shape : ∀ position, step.state.field.contains position =
      field.contains position)
    (lands : field.contains step.state.pointer = true) :
    Stays field leeway step where
  tethered := ⟨shape, Playfield.near_of_contains lands leeway⟩
  next _ := Playfield.near_advance lands roomy step.state.heading

theorem store_stays (roomy : 0 < leeway)
    (stands : machine.field.contains machine.pointer = true)
    (position : Position) (value : Int) :
    Stays machine.field leeway (machine.store position value) := by
  rw [store, Playfield.write]
  cases present : machine.field.cell? position with
  | some _ =>
      have inside := Playfield.contains_of_cell? present
      exact stays_of_landing roomy (Playfield.contains_set inside value) stands
  | none =>
      cases machine.field.edge with
      | strict => exact stays_of_landing roomy (fun _ => rfl) stands
      | silent filler => exact stays_of_landing roomy (fun _ => rfl) stands

end Machine

theorem Effect.stays (effect : Effect dialect machine step)
    (stands : machine.field.contains machine.pointer = true) :
    Machine.Stays machine.field dialect.leeway step := by
  have roomy : 0 < dialect.leeway := by cases dialect <;> decide
  cases effect with
  | still _ field pointer =>
      apply Machine.stays_of_landing roomy
      · intro position
        rw [field]
      · rw [pointer]
        exact stands
  | store position value field pointer =>
      rw [← field, ← pointer] at stands
      rw [← field]
      exact Machine.store_stays roomy stands position value
  | bridge jumps =>
      subst jumps
      refine ⟨⟨fun _ => rfl, ?_⟩, fun _ => ?_⟩
      · exact Playfield.near_advance stands roomy machine.heading
      · refine ⟨machine.pointer, machine.heading, 2, stands, Nat.le_refl 2, ?_⟩
        rw [Position.moved_succ, Position.moved_succ, Position.moved_zero]
        rfl
  | found field inside =>
      apply Machine.stays_of_landing roomy
      · intro position
        exact congrArg (Playfield.contains · position) field
      · exact inside
  | missed field crosses =>
      obtain ⟨last, stored, ends⟩ := crosses.exists_last
      refine ⟨⟨?_, ?_⟩, nofun⟩
      · intro position
        exact congrArg (Playfield.contains · position) field
      · exact ends ▸ Playfield.near_advance stored roomy _

namespace Machine

theorem Tethered.cycle {field : Playfield}
    (tethered : machine.Tethered field dialect.leeway) :
    (machine.cycle dialect).state.Tethered field dialect.leeway := by
  cases stored : machine.field.cell? machine.pointer with
  | none =>
      rw [(cycle_of_outside dialect stored).2]
      exact tethered
  | some cell =>
      obtain ⟨⟨sameShape, near⟩, next⟩ := (dialect.execute_effect stored).stays
        (Playfield.contains_of_cell? stored)
      have shape (position : Position) :=
        (sameShape position).trans (tethered.shape position)
      have alike {position : Position}
          (within : machine.field.Near dialect.leeway position) :
          field.Near dialect.leeway position := by
        obtain ⟨start, direction, moves, inside, few, ends⟩ := within
        exact ⟨start, direction, moves, tethered.shape start ▸ inside, few, ends⟩
      simp only [Machine.cycle, stored, Step.report, Step.andThen]
      split
      · rename_i succeeds
        exact ⟨shape, alike (next succeeds)⟩
      · exact ⟨shape, alike near⟩

structure Roams (width height : Int) (leeway : Nat) (machine : Machine) :
    Prop where
  shape : ∀ position, machine.field.contains position = true ↔
    (0 ≤ position.x ∧ position.x < width) ∧
      0 ≤ position.y ∧ position.y < height
  confined : machine.pointer.Confined width height leeway

theorem roams_after {lines : List (List Char)} {width : Int} {edge : Edge}
    (wide : 1 ≤ width) (tall : 1 ≤ lines.length)
    (loaded : machine.field = .ofLines lines width ' ' edge)
    (begins : machine.pointer = .origin) (count : Nat) :
    (after (cycle dialect) count machine).Roams width lines.length
      dialect.leeway := by
  have sensible : 0 ≤ width := by omega
  have rectangle := Playfield.contains_ofLines lines sensible ' ' edge
  rw [← loaded] at rectangle
  have stands : machine.field.contains machine.pointer = true := by
    rw [rectangle, begins]
    simp only [Position.origin]
    omega
  have start : machine.Tethered machine.field dialect.leeway :=
    ⟨fun _ => rfl, Playfield.near_of_contains stands _⟩
  obtain ⟨shape, near⟩ :=
    after_of_invariant (fun _ => Tethered.cycle) start count
  constructor
  · intro position
    rw [shape, rectangle]
  · exact near.confined rectangle

theorem cycle_after_of_outside (dialect : Dialect)
    (outside : machine.field.cell? machine.pointer = none) (count : Nat) :
    (after (cycle dialect) count machine).cycle dialect =
      .fault (.pointerOutside machine.pointer) machine := by
  have stuck : machine.cycle dialect =
      .fault (.pointerOutside machine.pointer) machine := by
    rw [cycle, outside]
  induction count with
  | zero => exact stuck
  | succ count induction =>
      rw [after_succ, induction]
      exact stuck

/-- The pointer of a program with at least one cell is never more than a few moves
outside, and then in one direction only. There the program is stuck for good. -/
theorem run_roams (dialect : Dialect) (width : Int) (edge : Option Edge)
    (input : Input) (chance : Chance) (count : Nat) (wide : 1 ≤ width) :
    (∀ source, 1 ≤ (Lines.split source).length →
      (after (cycle dialect) count
        { ofSource dialect source width edge with input, chance }).Roams width
          (Lines.split source).length dialect.leeway) ∧
    (∀ lines : List (List Char), 1 ≤ lines.length →
      (after (cycle dialect) count
        { field := .ofLines lines width ' '
            (edge.getD dialect.standardEdge)
          input, chance }).Roams width lines.length dialect.leeway) ∧
    ∀ machine : Machine, machine.field.contains machine.pointer = false →
      ∀ further, (after (cycle dialect) further machine).cycle dialect =
        .fault (.pointerOutside machine.pointer) machine := by
  refine ⟨?_, ?_, ?_⟩
  · intro source tall
    exact roams_after wide tall rfl rfl count
  · intro lines tall
    exact roams_after wide tall rfl rfl count
  · intro machine outside further
    exact cycle_after_of_outside dialect
      (Playfield.contains_eq_false.1 outside) further

/-- A bridge at the only cell leads as far outside as any instruction does. -/
theorem run_roams_of_bridge :
    let machine : Machine :=
      { ofSource .befunge ['#'] 1 none with input := .empty, chance := default }
    (1 : Int) ≤ 1 ∧ 1 ≤ (Lines.split ['#']).length ∧
      (after (cycle .befunge) 1 machine).pointer = ⟨2, 0⟩ ∧
      (after (cycle .befunge) 1 machine).Roams 1 (Lines.split ['#']).length
        Dialect.befunge.leeway := by
  intro machine
  have wide : (1 : Int) ≤ 1 := Int.le_refl 1
  have tall : 1 ≤ (Lines.split ['#']).length := by decide
  obtain ⟨loaded, _, _⟩ := run_roams .befunge 1 none .empty default 1 wide
  exact ⟨wide, tall, rfl, loaded ['#'] tall⟩

end Machine

end Grid

end Esoteric
