import Esoteric.Proofs.Count
import Esoteric.Proofs.Session

namespace Esoteric

namespace Outcome

def ending? : Outcome → Option Ending
  | .ok => none
  | .quit => some .quit
  | .fault cause => some (.failed cause)
  | .astray => some .astray

theorem ending?_eq_none_iff {outcome : Outcome} :
    outcome.ending? = none ↔ outcome = .ok := by
  cases outcome <;> simp [ending?]

theorem ending?_eq_failed_iff {outcome : Outcome} {cause : Fault} :
    outcome.ending? = some (.failed cause) ↔ outcome = .fault cause := by
  cases outcome <;> simp [ending?]

end Outcome

namespace Machine

def Affords (limit : Option Int) (machine : Machine) : Prop :=
  ∀ bound ∈ limit, machine.cycles < bound

structure Continues (limit : Option Int) (machine : Machine) : Prop where
  unfinished : machine.finished = false
  affords : machine.Affords limit
  succeeds : machine.cycle.outcome = .ok

/-- The ways in which a run ends with no more than one cycle. -/
inductive Stops (limit : Option Int) (machine : Machine) :
    Ending → Machine → Prop
  | finished : machine.finished = true →
      Stops limit machine .finished machine
  | spent : machine.finished = false → limit = some bound →
      bound ≤ machine.cycles →
      Stops limit machine (.failed (.cycleLimit bound)) machine
  | cycle : machine.finished = false → machine.Affords limit →
      machine.cycle.outcome.ending? = some ending →
      Stops limit machine ending machine.cycle.state

/-- Cycles that are made one after another, as long as the program has not ended
and the limit is not reached, up to the first that does not succeed. -/
inductive Iterates (limit : Option Int) : Machine → Ending → Machine → Prop
  | stop : Stops limit machine ending final →
      Iterates limit machine ending final
  | step : machine.Continues limit →
      Iterates limit machine.cycle.state ending final →
      Iterates limit machine ending final

variable {limit other : Option Int} {budget : Int} {machine final : Machine}
  {ending : Ending}

theorem affords_some_iff :
    machine.Affords (some budget) ↔ machine.cycles < budget := by
  simp [Affords]

theorem Affords.widen (affords : machine.Affords (some budget))
    (wider : ∀ bound ∈ other, budget ≤ bound) : machine.Affords other := by
  intro bound member
  have below := affords_some_iff.1 affords
  exact Int.lt_of_lt_of_le below (wider bound member)

theorem continues_or_stops (limit : Option Int) (machine : Machine) :
    machine.Continues limit ∨
      ∃ ending final, Stops limit machine ending final := by
  cases finished : machine.finished with
  | true => exact .inr ⟨_, _, .finished finished⟩
  | false =>
      by_cases affords : machine.Affords limit
      · cases result : machine.cycle.outcome.ending? with
        | none =>
            have succeeds := Outcome.ending?_eq_none_iff.1 result
            exact .inl ⟨finished, affords, succeeds⟩
        | some ending => exact .inr ⟨_, _, .cycle finished affords result⟩
      · cases limit with
        | none => exact absurd nofun affords
        | some bound =>
            rw [affords_some_iff] at affords
            exact .inr ⟨_, _, .spent finished rfl (Int.not_lt.1 affords)⟩

theorem Stops.not_continues (stops : Stops limit machine ending final) :
    ¬machine.Continues limit := by
  rintro ⟨unfinished, affords, succeeds⟩
  cases stops with
  | finished finished => simp [unfinished] at finished
  | spent _ limited reached =>
      have below := affords _ limited
      omega
  | cycle _ _ result =>
      rw [Outcome.ending?_eq_none_iff.2 succeeds] at result
      contradiction

theorem Continues.iterates_iff (continues : machine.Continues limit) :
    Iterates limit machine ending final ↔
      Iterates limit machine.cycle.state ending final := by
  constructor
  · intro whole
    cases whole with
    | stop stops => exact absurd continues stops.not_continues
    | step _ later => exact later
  · exact .step continues

theorem Continues.cycles (continues : machine.Continues limit) :
    machine.cycle.state.cycles = machine.cycles + 1 :=
  machine.cycle_counted.ok continues.succeeds

theorem Stops.cycles (stops : Stops limit machine ending final) :
    final.cycles = machine.cycles := by
  cases stops with
  | finished _ => rfl
  | spent _ _ _ => rfl
  | cycle _ _ result =>
      apply machine.cycle_counted.other
      intro succeeds
      rw [Outcome.ending?_eq_none_iff.2 succeeds] at result
      contradiction

theorem Stops.eq_of_overrun {bound : Int}
    (stops : Stops limit machine (.failed (.cycleLimit bound)) final) :
    final = machine := by
  generalize overrun : Ending.failed (.cycleLimit bound) = ending at stops
  cases stops with
  | finished _ => rfl
  | spent _ _ _ => rfl
  | cycle _ _ result =>
      subst overrun
      have quiet := machine.cycle_counted.overrun
      rw [Outcome.ending?_eq_failed_iff.1 result] at quiet
      contradiction

theorem exists_iterates (budget : Int) (machine : Machine) :
    ∃ ending final, Iterates (some budget) machine ending final := by
  -- A cycle that continues is counted, so that it uses up one of those left.
  generalize remains : (budget - machine.cycles).toNat = remaining
  induction remaining generalizing machine with
  | zero =>
      rcases continues_or_stops (some budget) machine with
        continues | ⟨ending, final, stops⟩
      · have below := affords_some_iff.1 continues.affords
        omega
      · exact ⟨ending, final, .stop stops⟩
  | succ remaining induction =>
      rcases continues_or_stops (some budget) machine with
        continues | ⟨ending, final, stops⟩
      · have counted := continues.cycles
        obtain ⟨ending, final, later⟩ :=
          induction machine.cycle.state (by omega)
        exact ⟨ending, final, .step continues later⟩
      · exact ⟨ending, final, .stop stops⟩

theorem Iterates.cycles_le
    (iterates : Iterates (some budget) machine ending final)
    (start : machine.cycles ≤ budget) : final.cycles ≤ budget := by
  induction iterates with
  | stop stops =>
      rw [stops.cycles]
      exact start
  | step continues _ induction =>
      apply induction
      have below := affords_some_iff.1 continues.affords
      have counted := continues.cycles
      omega

theorem Iterates.of_reaches {middle : Machine} {count : Nat}
    (run : Run.Reaches cycle count machine middle)
    (later : Iterates none middle ending final) :
    Iterates none machine ending final := by
  induction run with
  | refl => exact later
  | step succeeds _ induction =>
      exact .step ⟨not_finished_of_ok succeeds, nofun, succeeds⟩
        (induction later)

theorem Continues.widen (continues : machine.Continues (some budget))
    (wider : ∀ bound ∈ other, budget ≤ bound) : machine.Continues other :=
  { continues with affords := continues.affords.widen wider }

/-- What is left when a limit is reached goes on like the whole under any limit
that is not lower. -/
theorem Iterates.resume_iff {middle : Machine} {last : Ending}
    (spent : Iterates (some budget) machine (.failed (.cycleLimit budget))
      middle) (wider : ∀ bound ∈ other, budget ≤ bound) :
    Iterates other middle last final ↔ Iterates other machine last final := by
  generalize overrun : Ending.failed (.cycleLimit budget) = ending at spent
  induction spent with
  | stop stops =>
      subst overrun
      rw [stops.eq_of_overrun]
  | step continues _ induction =>
      rw [(continues.widen wider).iterates_iff]
      exact induction overrun

end Machine

namespace Session

open Machine

variable {limit other : Option Int} {budget : Int}
  {session next reached : Session} {ending : Ending} {final : Machine}
  {fuel : Nat}

/-- What a run comes to with any fuel that lasts. -/
def Ends (limit : Option Int) (session : Session) (ending : Ending)
    (reached : Session) : Prop :=
  ∃ enough, ∀ fuel, enough ≤ fuel →
    session.run limit fuel = some (ending, reached)

/-- What a run comes to, whatever has been reported. -/
def Leaves (limit : Option Int) (session : Session) (ending : Ending)
    (final : Machine) : Prop :=
  ∃ reached, session.Ends limit ending reached ∧ reached.machine = final

theorem Ends.ended (result : session.turn limit = .ended ending reached) :
    session.Ends limit ending reached := by
  refine ⟨1, ?_⟩
  rintro (_ | fuel) lasts
  · contradiction
  · rw [run, result]

theorem Ends.going (result : session.turn limit = .going next)
    (later : next.Ends limit ending reached) :
    session.Ends limit ending reached := by
  obtain ⟨enough, runs⟩ := later
  refine ⟨enough + 1, ?_⟩
  rintro (_ | fuel) lasts
  · contradiction
  · rw [run, result]
    exact runs fuel (Nat.le_of_succ_le_succ lasts)

theorem Ends.unique {last : Ending} {later : Session}
    (first : session.Ends limit ending reached)
    (second : session.Ends limit last later) :
    last = ending ∧ later = reached := by
  obtain ⟨enough, runs⟩ := first
  obtain ⟨other, again⟩ := second
  have result := runs (enough + other) (Nat.le_add_right ..)
  rw [again (enough + other) (Nat.le_add_left ..)] at result
  cases result
  exact ⟨rfl, rfl⟩

theorem spent?_of_affords (affords : session.machine.Affords limit) :
    session.spent? limit = none := by
  apply Option.filter_eq_none_iff.2
  intro bound member
  have below := affords bound member
  simpa using below

theorem turn_of_continues (continues : session.machine.Continues limit) :
    session.turn limit = .going (session.after session.machine.cycle) :=
  turn_of_ok (spent?_of_affords continues.affords) continues.succeeds

theorem turn_of_stops (stops : session.machine.Stops limit ending final) :
    ∃ reached, session.turn limit = .ended ending reached ∧
      reached.machine = final := by
  cases stops with
  | finished finished => exact ⟨session, turn_of_finished limit finished, rfl⟩
  | spent unfinished limited reached =>
      subst limited
      simp only [turn, unfinished, spent?, Option.filter_some, reached]
      exact ⟨_, rfl, recordAll_machine ..⟩
  | cycle unfinished affords result =>
      simp only [turn, unfinished, spent?_of_affords affords, cycle_eq]
      cases outcome : session.machine.cycle.outcome with
      | ok =>
          rw [outcome] at result
          contradiction
      | quit | astray =>
          rw [outcome] at result
          cases result
          exact ⟨_, rfl, after_machine ..⟩
      | fault cause =>
          rw [outcome] at result
          cases result
          refine ⟨_, rfl, ?_⟩
          rw [recordAll_machine, after_machine]

theorem leaves_of_iterates
    (iterates : session.machine.Iterates limit ending final) :
    session.Leaves limit ending final := by
  generalize initial : session.machine = start at iterates
  induction iterates generalizing session with
  | stop stops =>
      subst initial
      obtain ⟨reached, result, equality⟩ := turn_of_stops stops
      exact ⟨reached, .ended result, equality⟩
  | step continues _ induction =>
      subst initial
      obtain ⟨reached, later, equality⟩ :=
        induction (after_machine session session.machine.cycle)
      exact ⟨reached, .going (turn_of_continues continues) later, equality⟩

theorem iterates_of_run
    (result : session.run limit fuel = some (ending, reached)) :
    session.machine.Iterates limit ending reached.machine := by
  induction fuel generalizing session with
  | zero => contradiction
  | succ fuel induction =>
      rcases continues_or_stops limit session.machine with
        continues | ⟨other, final, stops⟩
      · rw [run, turn_of_continues continues] at result
        have later := induction result
        rw [after_machine] at later
        exact .step continues later
      · obtain ⟨last, ended, equality⟩ := turn_of_stops stops
        rw [run, ended] at result
        cases result
        subst equality
        exact .stop stops

theorem leaves_iff :
    session.Leaves limit ending final ↔
      session.machine.Iterates limit ending final := by
  constructor
  · rintro ⟨reached, ⟨enough, runs⟩, rfl⟩
    exact iterates_of_run (runs enough (Nat.le_refl enough))
  · exact leaves_of_iterates

/-- A limit that is not lower changes no turn but one at which the lower one is
reached. -/
theorem turn_widen (session : Session)
    (wider : ∀ bound ∈ other, budget ≤ bound) :
    session.turn other = session.turn (some budget) ∨
      session.turn (some budget) = session.fail (.cycleLimit budget) := by
  cases finished : session.machine.finished with
  | true =>
      left
      rw [turn_of_finished _ finished, turn_of_finished _ finished]
  | false =>
      by_cases affords : session.machine.Affords (some budget)
      · left
        simp only [turn, spent?_of_affords affords,
          spent?_of_affords (affords.widen wider)]
      · right
        rw [affords_some_iff, Int.not_lt] at affords
        simp only [turn, finished, spent?, Option.filter_some, affords]
        rfl

theorem run_widen
    (result : session.run (some budget) fuel = some (ending, reached))
    (within : ending ≠ .failed (.cycleLimit budget))
    (wider : ∀ bound ∈ other, budget ≤ bound) :
    session.run other fuel = some (ending, reached) := by
  induction fuel generalizing session with
  | zero => contradiction
  | succ fuel induction =>
      rcases session.turn_widen wider with same | spent
      · rw [run] at result ⊢
        rw [same]
        split at result
        · exact result
        · exact induction result
      · rw [run, spent] at result
        cases result
        contradiction

/-- A limited run makes its cycles up to the limit. A limit that is not lower
makes no difference to a run that ends below its own; where the lower one is
reached, a run may go on from there as if it had not been interrupted. -/
theorem budgeted_run (session : Session) (budget : Int) :
    ∃ ending reached, session.Ends (some budget) ending reached ∧
      (∀ last final, session.machine.Iterates (some budget) last final ↔
        last = ending ∧ final = reached.machine) ∧
      (session.machine.cycles ≤ budget →
        reached.machine.cycles ≤ budget) ∧
      (ending ≠ .failed (.cycleLimit budget) →
        ∀ other, (∀ bound ∈ other, budget ≤ bound) →
          session.Ends other ending reached) ∧
      (ending = .failed (.cycleLimit budget) →
        ∀ other, (∀ bound ∈ other, budget ≤ bound) → ∀ last final,
          reached.Leaves other last final ↔
            session.Leaves other last final) := by
  obtain ⟨ending, final, iterates⟩ := exists_iterates budget session.machine
  obtain ⟨reached, ends, rfl⟩ := leaves_of_iterates iterates
  refine ⟨ending, reached, ends, ?_, iterates.cycles_le, ?_, ?_⟩
  · intro last final
    constructor
    · intro again
      obtain ⟨later, alsoEnds, rfl⟩ := leaves_of_iterates again
      obtain ⟨rfl, rfl⟩ := ends.unique alsoEnds
      exact ⟨rfl, rfl⟩
    · rintro ⟨rfl, rfl⟩
      exact iterates
  · intro within other wider
    obtain ⟨enough, runs⟩ := ends
    refine ⟨enough, ?_⟩
    intro fuel lasts
    exact run_widen (runs fuel lasts) within wider
  · rintro rfl other wider last final
    rw [leaves_iff, leaves_iff]
    exact iterates.resume_iff wider

/-- The cycle that quits is not counted, but there must be room for it. -/
example :
    let session : Session := { machine := .ofSource .befunge ">@".toList 2 none }
    (session.run (some 1) 2).map Prod.fst =
        some (.failed (.cycleLimit 1)) ∧
      (session.run (some 2) 2).map Prod.fst = some .quit := by
  decide

end Session

end Esoteric
