import Esoteric.Proofs.Step

namespace Esoteric.Run

variable {State Counterpart : Type}

/-! Runs of any machine that is given by its cycle. -/

/-- The state that a number of cycles leave, whatever their outcomes are. -/
def after (cycle : State → Step State) : (count : Nat) → State → State
  | 0, state => state
  | count + 1, state => after cycle count (cycle state).state

def outcome (cycle : State → Step State) (turn : Nat) (state : State) :
    Outcome :=
  (cycle (after cycle turn state)).outcome

theorem after_succ (cycle : State → Step State) (count : Nat)
    (state : State) :
    after cycle (count + 1) state = (cycle (after cycle count state)).state := by
  induction count generalizing state with
  | zero => rfl
  | succ count induction => exact induction (cycle state).state

theorem after_of_invariant {cycle : State → Step State} {holds : State → Prop}
    (keeps : ∀ state, holds state → holds (cycle state).state)
    {state : State} (start : holds state) (count : Nat) :
    holds (after cycle count state) := by
  induction count with
  | zero => exact start
  | succ count induction =>
      rw [after_succ]
      exact keeps _ induction

/-- A number of cycles lead from one state to another, and all succeed. -/
inductive Reaches (cycle : State → Step State) : Nat → State → State → Prop
  | refl : Reaches cycle 0 state state
  | step : (cycle start).outcome = .ok →
      Reaches cycle count (cycle start).state finish →
      Reaches cycle (count + 1) start finish

namespace Reaches

variable {cycle : State → Step State} {start middle finish : State}

theorem one (succeeds : (cycle start).outcome = .ok) :
    Reaches cycle 1 start (cycle start).state :=
  .step succeeds .refl

theorem trans (first : Reaches cycle early start middle)
    (second : Reaches cycle late middle finish) :
    Reaches cycle (early + late) start finish := by
  induction first with
  | refl => simpa only [Nat.zero_add] using second
  | step succeeds _ induction =>
      rw [Nat.add_right_comm]
      exact .step succeeds (induction second)

theorem preserves {holds : State → Prop}
    (keeps : ∀ state, holds state → (cycle state).outcome = .ok →
      holds (cycle state).state)
    (run : Reaches cycle count start finish) (initial : holds start) :
    holds finish := by
  induction run with
  | refl => exact initial
  | step succeeds _ induction => exact induction (keeps _ initial succeeds)

/-- Cycles lead one way only, so that a run to a state at which cycles stop
succeeding passes through every state that is reached from its start. -/
theorem split (first : Reaches cycle early start middle)
    (whole : Reaches cycle count start finish)
    (stops : (cycle finish).outcome ≠ .ok) :
    ∃ late, count = early + late ∧ Reaches cycle late middle finish := by
  induction first generalizing count with
  | refl => exact ⟨count, (Nat.zero_add count).symm, whole⟩
  | step succeeds _ induction =>
      cases whole with
      | refl => exact absurd succeeds stops
      | step _ remaining =>
          obtain ⟨late, rfl, rest⟩ := induction remaining
          exact ⟨late, Nat.add_right_comm .., rest⟩

end Reaches

/-- Two machines whose cycles agree in their outcomes, and keep a relation between
their states that may change from turn to turn, keep doing so. -/
theorem lockstep_along {cycle : State → Step State}
    {other : Counterpart → Step Counterpart}
    (relation : Nat → State → Counterpart → Prop)
    {state : State} {counterpart : Counterpart} {count : Nat}
    (related : relation 0 state counterpart)
    (step : ∀ turn < count, ∀ reached,
      relation turn (after cycle turn state) reached →
        (cycle (after cycle turn state)).Related (relation (turn + 1))
          (other reached)) :
    ∀ turn < count,
      outcome other turn counterpart = outcome cycle turn state ∧
        relation (turn + 1) (after cycle (turn + 1) state)
          (after other (turn + 1) counterpart) := by
  have reached : ∀ turn ≤ count,
      relation turn (after cycle turn state) (after other turn counterpart) := by
    intro turn bound
    induction turn with
    | zero => exact related
    | succ turn induction =>
        rw [after_succ, after_succ]
        exact (step turn bound _ (induction (by omega))).state
  intro turn bound
  have agree := step turn bound _ (reached turn (by omega))
  rw [after_succ, after_succ]
  exact ⟨agree.outcome, agree.state⟩

theorem lockstep {cycle : State → Step State}
    {other : Counterpart → Step Counterpart}
    {relation : State → Counterpart → Prop} {admits : State → Prop}
    (step : ∀ state counterpart, relation state counterpart → admits state →
      (cycle state).Related relation (other counterpart))
    {state : State} {counterpart : Counterpart}
    (related : relation state counterpart) {count : Nat}
    (admitted : ∀ turn < count, admits (after cycle turn state)) :
    ∀ turn < count,
      outcome other turn counterpart = outcome cycle turn state ∧
        relation (after cycle (turn + 1) state)
          (after other (turn + 1) counterpart) := by
  apply lockstep_along (fun _ => relation) related
  intro turn bound reached kept
  exact step _ _ kept (admitted turn bound)

end Esoteric.Run
