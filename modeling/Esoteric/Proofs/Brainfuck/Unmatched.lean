import Esoteric.Proofs.Brainfuck.Partner
import Esoteric.Proofs.Brainfuck.Standing

namespace Esoteric.Brainfuck

open Run

namespace Machine

def obey (machine : Machine) (c : Char) : Step Machine :=
  match Command.ofChar? c with
  | some command => machine.execute command
  | none => .ok machine.next

/-- The steps that a place of the program can call for. -/
inductive Calls (machine : Machine) (place : Nat) : Step Machine → Prop
  | skip {later : Nat} (bracket : machine.program[place]? = some '[')
      (zero : machine.cell = 0) (closes : machine.program.Closes place later) :
      Calls machine place (.ok { machine with pointer := later + 1 })
  | lackClosing (bracket : machine.program[place]? = some '[')
      (zero : machine.cell = 0)
      (unmatched : ¬ ∃ later, machine.program.Closes place later) :
      Calls machine place (.fault .unmatchedOpening
        { machine with pointer := machine.program.size })
  | back {earlier : Nat} (bracket : machine.program[place]? = some ']')
      (nonzero : machine.cell ≠ 0)
      (opens : machine.program.Opens place earlier) :
      Calls machine place (.ok { machine with pointer := earlier })
  | lackOpening (bracket : machine.program[place]? = some ']')
      (nonzero : machine.cell ≠ 0)
      (unmatched : ¬ ∃ earlier, machine.program.Opens place earlier) :
      Calls machine place
        (.fault .unmatchedClosing { machine with pointer := -1 })
  | proceed {reached : Machine}
      (enters : machine.program[place]? = some '[' → machine.cell ≠ 0)
      (leaves : machine.program[place]? = some ']' → machine.cell = 0)
      (sameProgram : reached.program = machine.program)
      (pointer : reached.pointer = place + 1) :
      Calls machine place (.ok reached)

variable {machine reached : Machine} {c : Char} {place : Nat}

theorem ne_closing_of_opening
    (bracket : machine.program[place]? = some '[') :
    machine.program[place]? ≠ some ']' := by
  rw [bracket]
  decide

theorem enterLoop_calls (stands : machine.pointer = place)
    (bracket : machine.program[place]? = some '[') :
    machine.Calls place machine.enterLoop := by
  unfold enterLoop
  split
  · rename_i zero
    have scan (later : Nat) :
        machine.program.closing? 0 (machine.pointer + 1) = some (later : Int) ↔
          machine.program.Closes place later := by
      rw [stands]
      exact Program.closing?_eq_some_iff bracket
    split
    · rename_i target found
      obtain ⟨later, rfl⟩ : ∃ later : Nat, target = later := by
        rw [stands, ← Int.natCast_succ, Program.closing?_eq] at found
        obtain ⟨length, _, equality⟩ := Option.map_eq_some_iff.1 found
        exact ⟨place + 1 + length, equality.symm⟩
      exact .skip bracket zero ((scan later).1 found)
    · rename_i missed
      apply Calls.lackClosing bracket zero
      rintro ⟨later, closes⟩
      rw [(scan later).2 closes] at missed
      contradiction
  · rename_i nonzero
    apply Calls.proceed
    · intro _
      exact nonzero
    · intro other
      exact absurd other (ne_closing_of_opening bracket)
    · rfl
    · rw [next, stands]

theorem repeatLoop_calls (stands : machine.pointer = place)
    (bracket : machine.program[place]? = some ']') :
    machine.Calls place machine.repeatLoop := by
  unfold repeatLoop
  split
  · rename_i zero
    apply Calls.proceed
    · intro other
      exact absurd bracket (ne_closing_of_opening other)
    · intro _
      exact zero
    · rfl
    · rw [next, stands]
  · rename_i nonzero
    have scan (earlier : Nat) :
        machine.program.opening? 0 machine.pointer.toNat = some earlier ↔
          machine.program.Opens place earlier := by
      rw [stands, Int.toNat_natCast]
      exact Program.opening?_eq_some_iff bracket
    split
    · rename_i earlier found
      exact .back bracket nonzero ((scan earlier).1 found)
    · rename_i missed
      have left : min (-1) (machine.pointer - 1) = -1 := by
        omega
      rw [left]
      apply Calls.lackOpening bracket nonzero
      rintro ⟨earlier, opens⟩
      rw [(scan earlier).2 opens] at missed
      contradiction

theorem obey_calls (stands : machine.pointer = place)
    (found : machine.program[place]? = some c) :
    machine.Calls place (machine.obey c) := by
  have onward {reached : Machine} (notOpening : c ≠ '[') (notClosing : c ≠ ']')
      (sameProgram : reached.program = machine.program)
      (pointer : reached.pointer = machine.pointer + 1) :
      machine.Calls place (.ok reached) := by
    apply Calls.proceed
    · intro other
      rw [found] at other
      exact absurd (Option.some.inj other) notOpening
    · intro other
      rw [found] at other
      exact absurd (Option.some.inj other) notClosing
    · exact sameProgram
    · rw [pointer, stands]
  unfold obey
  cases decoded : Command.ofChar? c with
  | none =>
      obtain ⟨notOpening, notClosing⟩ := Command.ne_bracket_of_comment decoded
      exact onward notOpening notClosing rfl rfl
  | some command =>
      obtain rfl | rfl | ⟨action, rfl⟩ := command.eq_bracket_or_action
      · rw [Command.ofChar?_eq_opening.1 decoded] at found
        exact enterLoop_calls stands found
      · rw [Command.ofChar?_eq_closing.1 decoded] at found
        exact repeatLoop_calls stands found
      · obtain ⟨notOpening, notClosing⟩ :=
          Command.ne_bracket_of_action decoded
        obtain ⟨reached, executed, sameProgram, pointer, _⟩ :=
          machine.execute_action action
        simp only [executed]
        exact onward notOpening notClosing sameProgram pointer

theorem cycle_calls (stands : machine.pointer = place)
    (inside : place < machine.program.size) :
    ∃ step diagnostic, machine.Calls place step ∧
      machine.cycle = (step.andThen fun reached =>
        .ok reached.count).report diagnostic := by
  have found : machine.program[place]? = some machine.program[place] :=
    Array.getElem?_eq_getElem inside
  have fetched : machine.program.character? machine.pointer =
      some machine.program[place] := by
    rw [stands]
    exact found
  refine ⟨machine.obey machine.program[place],
    .commanded machine.pointer machine.program[place] machine.head machine.cell,
    obey_calls stands found, ?_⟩
  rw [cycle, fetched]
  rfl

/-- What a cycle at a place does about the bracket that may stand there. -/
structure MatchesBrackets (machine : Machine) (place : Nat) : Prop where
  outcome : machine.cycle.outcome = .ok ∨
    machine.cycle.outcome = .fault .unmatchedOpening ∨
    machine.cycle.outcome = .fault .unmatchedClosing
  opening : machine.cycle.outcome = .fault .unmatchedOpening ↔
    machine.program[place]? = some '[' ∧ machine.cell = 0 ∧
      ¬ ∃ later, machine.program.Closes place later
  closing : machine.cycle.outcome = .fault .unmatchedClosing ↔
    machine.program[place]? = some ']' ∧ machine.cell ≠ 0 ∧
      ¬ ∃ earlier, machine.program.Opens place earlier
  skips : ∀ later, machine.program[place]? = some '[' → machine.cell = 0 →
    machine.program.Closes place later →
      machine.cycle.outcome = .ok ∧ machine.cycle.state.pointer = later + 1
  returns : ∀ earlier, machine.program[place]? = some ']' →
    machine.cell ≠ 0 → machine.program.Opens place earlier →
      machine.cycle.outcome = .ok ∧ machine.cycle.state.pointer = earlier
  lacksClosing : machine.cycle.outcome = .fault .unmatchedOpening →
    machine.cycle.state = { machine with pointer := machine.program.size }
  lacksOpening : machine.cycle.outcome = .fault .unmatchedClosing →
    machine.cycle.state = { machine with pointer := -1 }

theorem MatchesBrackets.of_ok (succeeds : machine.cycle.outcome = .ok)
    (closes : machine.program[place]? = some '[' → machine.cell = 0 →
      ∃ later, machine.program.Closes place later ∧
        machine.cycle.state.pointer = later + 1)
    (opens : machine.program[place]? = some ']' → machine.cell ≠ 0 →
      ∃ earlier, machine.program.Opens place earlier ∧
        machine.cycle.state.pointer = earlier) :
    machine.MatchesBrackets place := by
  have never (cause : Fault) : machine.cycle.outcome ≠ .fault cause := by
    rw [succeeds]
    exact nofun
  exact
    { outcome := .inl succeeds
      opening := by
        constructor
        · intro fails
          exact absurd fails (never _)
        · rintro ⟨bracket, zero, unmatched⟩
          obtain ⟨later, found, _⟩ := closes bracket zero
          exact absurd ⟨later, found⟩ unmatched
      closing := by
        constructor
        · intro fails
          exact absurd fails (never _)
        · rintro ⟨bracket, nonzero, unmatched⟩
          obtain ⟨earlier, found, _⟩ := opens bracket nonzero
          exact absurd ⟨earlier, found⟩ unmatched
      skips := by
        intro later bracket zero found
        obtain ⟨other, otherFound, pointer⟩ := closes bracket zero
        rw [found.unique otherFound]
        exact ⟨succeeds, pointer⟩
      returns := by
        intro earlier bracket nonzero found
        obtain ⟨other, otherFound, pointer⟩ := opens bracket nonzero
        rw [found.unique otherFound]
        exact ⟨succeeds, pointer⟩
      lacksClosing := fun fails => absurd fails (never _)
      lacksOpening := fun fails => absurd fails (never _) }

theorem MatchesBrackets.of_lacking_closing
    (bracket : machine.program[place]? = some '[') (zero : machine.cell = 0)
    (unmatched : ¬ ∃ later, machine.program.Closes place later)
    (fails : machine.cycle.outcome = .fault .unmatchedOpening)
    (left : machine.cycle.state =
      { machine with pointer := machine.program.size }) :
    machine.MatchesBrackets place where
  outcome := .inr (.inl fails)
  opening := ⟨fun _ => ⟨bracket, zero, unmatched⟩, fun _ => fails⟩
  closing := by
    simp [fails, bracket]
  skips later _ _ found := absurd ⟨later, found⟩ unmatched
  returns _ other := absurd other (ne_closing_of_opening bracket)
  lacksClosing _ := left
  lacksOpening other := by
    rw [fails] at other
    contradiction

theorem MatchesBrackets.of_lacking_opening
    (bracket : machine.program[place]? = some ']') (nonzero : machine.cell ≠ 0)
    (unmatched : ¬ ∃ earlier, machine.program.Opens place earlier)
    (fails : machine.cycle.outcome = .fault .unmatchedClosing)
    (left : machine.cycle.state = { machine with pointer := -1 }) :
    machine.MatchesBrackets place where
  outcome := .inr (.inr fails)
  opening := by
    simp [fails, bracket]
  closing := ⟨fun _ => ⟨bracket, nonzero, unmatched⟩, fun _ => fails⟩
  skips _ other := absurd bracket (ne_closing_of_opening other)
  returns earlier _ _ found := absurd ⟨earlier, found⟩ unmatched
  lacksClosing other := by
    rw [fails] at other
    contradiction
  lacksOpening _ := left

theorem matchesBrackets (stands : machine.pointer = place)
    (inside : place < machine.program.size) :
    machine.MatchesBrackets place := by
  obtain ⟨step, diagnostic, calls, equality⟩ := cycle_calls stands inside
  cases calls with
  | skip bracket _ closes =>
      apply MatchesBrackets.of_ok
      · rw [equality]
        rfl
      · intro _ _
        rw [equality]
        exact ⟨_, closes, rfl⟩
      · intro other
        exact absurd other (ne_closing_of_opening bracket)
  | back bracket _ opens =>
      apply MatchesBrackets.of_ok
      · rw [equality]
        rfl
      · intro other
        exact absurd bracket (ne_closing_of_opening other)
      · intro _ _
        rw [equality]
        exact ⟨_, opens, rfl⟩
  | proceed enters leaves _ _ =>
      apply MatchesBrackets.of_ok
      · rw [equality]
        rfl
      · intro bracket zero
        exact absurd zero (enters bracket)
      · intro bracket nonzero
        exact absurd (leaves bracket) nonzero
  | lackClosing bracket zero unmatched =>
      apply MatchesBrackets.of_lacking_closing bracket zero unmatched
      · rw [equality]
        rfl
      · rw [equality]
        rfl
  | lackOpening bracket nonzero unmatched =>
      apply MatchesBrackets.of_lacking_opening bracket nonzero unmatched
      · rw [equality]
        rfl
      · rw [equality]
        rfl

theorem lt_size_of_ok (succeeds : machine.cycle.outcome = .ok) :
    machine.pointer < machine.program.size := by
  cases found : machine.program.character? machine.pointer with
  | none =>
      rw [cycle, found] at succeeds
      contradiction
  | some c => exact Program.lt_size_of_character? found

structure Within (machine : Machine) (program : Program) : Prop where
  runs : machine.program = program
  lower : 0 ≤ machine.pointer
  upper : machine.pointer ≤ program.size

theorem Within.cycle {program : Program} (within : machine.Within program)
    (succeeds : machine.cycle.outcome = .ok) :
    machine.cycle.state.Within program := by
  obtain ⟨rfl, lower, _⟩ := within
  obtain ⟨place, stands⟩ := Int.eq_ofNat_of_zero_le lower
  have inside : place < machine.program.size := by
    have bound := lt_size_of_ok succeeds
    omega
  obtain ⟨step, diagnostic, calls, equality⟩ := cycle_calls stands inside
  rw [equality] at succeeds ⊢
  cases calls with
  | skip _ _ closes =>
      obtain ⟨⟨_, bound, _⟩, _⟩ := closes
      exact ⟨rfl, Int.natCast_nonneg _, Int.ofNat_le.2 bound⟩
  | back _ _ opens =>
      obtain ⟨⟨before, _⟩, _⟩ := opens
      have bound := Nat.le_of_lt (Nat.lt_trans before inside)
      exact ⟨rfl, Int.natCast_nonneg _, Int.ofNat_le.2 bound⟩
  | @proceed reached _ _ sameProgram pointer =>
      refine ⟨sameProgram, ?_, ?_⟩
      · change 0 ≤ reached.pointer
        omega
      · change reached.pointer ≤ machine.program.size
        omega
  | lackClosing | lackOpening => contradiction

/-- A run stays inside its program until it fails, and it fails at brackets
without a partner only. -/
theorem run_within (program : Program) (input : Input) {count : Nat}
    {machine : Machine}
    (run : Reaches Machine.cycle count { program, input } machine) :
    machine.program = program ∧ 0 ≤ machine.pointer ∧
      machine.pointer ≤ program.size ∧
      ∀ place : Nat, machine.pointer = place → place < program.size →
        machine.MatchesBrackets place := by
  have initial : Within { program, input } program :=
    ⟨rfl, Int.le_refl 0, Int.natCast_nonneg program.size⟩
  have keeps (state : Machine) (within : state.Within program) :
      state.cycle.outcome = .ok → state.cycle.state.Within program :=
    within.cycle
  obtain ⟨rfl, lower, upper⟩ := run.preserves keeps initial
  exact ⟨rfl, lower, upper, fun _ => matchesBrackets⟩

theorem run_within_of_surplus :
    let program : Program := #['+', '>', '+', ']', '.']
    let machine := after cycle 3 { program, input := .empty }
    Reaches Machine.cycle 3 { program, input := .empty } machine ∧
      machine.pointer = 3 ∧
      machine.cycle.outcome = .fault .unmatchedClosing ∧
      machine.cycle.state = { machine with pointer := -1 } := by
  intro program machine
  have run : Reaches Machine.cycle 3 { program, input := .empty } machine :=
    .step rfl (.step rfl (.step rfl .refl))
  obtain ⟨_, _, _, brackets⟩ := run_within program .empty run
  have matching := brackets 3 rfl (by decide)
  have uneven : ∀ earlier < 3, ¬ program.HasEvenBrackets earlier 3 := by
    simp only [Program.HasEvenBrackets]
    decide
  have unmatched : ¬ ∃ earlier, program.Opens 3 earlier := by
    rintro ⟨earlier, ⟨before, even⟩, _⟩
    exact uneven earlier before even
  have fails := matching.closing.2 ⟨rfl, by decide, unmatched⟩
  exact ⟨run, rfl, fails, matching.lacksOpening fails⟩

end Machine

end Esoteric.Brainfuck
