import Esoteric.Proofs.Grid.Footprint

namespace Esoteric

namespace Playfield

variable {field other : Playfield} {hidden : Position → Prop}
  {position : Position}

/-- Playfields with the same cells, which hold the same values but at hidden
positions. -/
structure AgreesOff (hidden : Position → Prop) (field other : Playfield) :
    Prop where
  edge : other.edge = field.edge
  shape : ∀ position, other.contains position = field.contains position
  values : ∀ position, ¬ hidden position →
    other.cell? position = field.cell? position

theorem AgreesOff.mono {fewer : Position → Prop}
    (agrees : field.AgreesOff fewer other)
    (among : ∀ position, fewer position → hidden position) :
    field.AgreesOff hidden other :=
  { agrees with values := fun position visible =>
      agrees.values position (mt (among position) visible) }

theorem AgreesOff.set (agrees : field.AgreesOff hidden other)
    (stored : field.contains position = true) (value : Int) :
    (field.set position value).AgreesOff
      (fun place => hidden place ∧ place ≠ position)
      (other.set position value) := by
  have otherStored := (agrees.shape position).trans stored
  refine ⟨?_, ?_, ?_⟩
  · rw [set_edge, set_edge, agrees.edge]
  · intro place
    rw [contains_set otherStored, contains_set stored, agrees.shape]
  · intro place visible
    rw [cell?_set otherStored, cell?_set stored]
    split
    · rfl
    · rename_i elsewhere
      apply agrees.values
      intro isHidden
      exact visible ⟨isHidden, elsewhere⟩

theorem AgreesOff.shares (agrees : field.AgreesOff hidden other)
    {looks : Position → Prop} {target : Option Position}
    (unseen : ∀ position, looks position → field.contains position = true →
      ¬ hidden position) :
    field.Shares looks target
      (AgreesOff fun place => hidden place ∧ place ∉ target) other where
  edge := agrees.edge
  seen position looked := by
    cases stored : field.contains position with
    | false =>
        have otherStored := (agrees.shape position).trans stored
        rw [contains_eq_false.1 stored, contains_eq_false.1 otherStored]
    | true => exact agrees.values position (unseen position looked stored)
  shape position _ := agrees.shape position
  kept outside := by
    refine ⟨agrees.edge, agrees.shape, ?_⟩
    intro position visible
    by_cases aimed : position ∈ target
    · have stored := outside position aimed
      have otherStored := (agrees.shape position).trans stored
      rw [contains_eq_false.1 stored, contains_eq_false.1 otherStored]
    · apply agrees.values
      intro isHidden
      exact visible ⟨isHidden, aimed⟩
  stored position aimed stored value := by
    apply (agrees.set stored value).mono
    rintro place ⟨isHidden, elsewhere⟩
    refine ⟨isHidden, ?_⟩
    intro aimedThere
    exact elsewhere (Option.mem_unique aimedThere aimed)

end Playfield

namespace Grid.Machine

open Run

variable {hidden : Position → Prop} {machine counterpart : Machine}

/-- A cell at which the next cycle looks. -/
def Examines (dialect : Dialect) (machine : Machine) (position : Position) :
    Prop :=
  machine.LooksAt dialect position ∧ machine.field.contains position = true

/-- One of the first cycles stores a value at a position. -/
def Overwrites (dialect : Dialect) (count : Nat) (machine : Machine)
    (position : Position) : Prop :=
  ∃ turn < count, position ∈ (after (cycle dialect) turn machine).target? dialect

/-- The hidden cells that may still differ: fewer with each value that is stored. -/
def Remains (dialect : Dialect) (hidden : Position → Prop) (machine : Machine)
    (turn : Nat) (position : Position) : Prop :=
  hidden position ∧ ¬ machine.Overwrites dialect turn position

theorem overwrites_succ_iff (dialect : Dialect) (turn : Nat)
    (machine : Machine) (position : Position) :
    machine.Overwrites dialect (turn + 1) position ↔
      machine.Overwrites dialect turn position ∨
        position ∈ (after (cycle dialect) turn machine).target? dialect := by
  constructor
  · rintro ⟨earlier, before, aimed⟩
    rcases Nat.lt_succ_iff_lt_or_eq.1 before with sooner | rfl
    · exact .inl ⟨earlier, sooner, aimed⟩
    · exact .inr aimed
  · rintro (⟨earlier, before, aimed⟩ | aimed)
    · exact ⟨earlier, Nat.lt_succ_of_lt before, aimed⟩
    · exact ⟨turn, Nat.lt_succ_self turn, aimed⟩

theorem cycle_unseen (dialect : Dialect)
    (beside : Beside (Playfield.AgreesOff hidden) machine counterpart)
    (unseen : ∀ position, machine.Examines dialect position →
      ¬ hidden position) :
    (machine.cycle dialect).Related
      (Beside (Playfield.AgreesOff fun position =>
        hidden position ∧ position ∉ machine.target? dialect))
      (counterpart.cycle dialect) := by
  obtain ⟨agrees, copy⟩ := beside
  rw [copy]
  apply cycle_beside
  apply agrees.shares
  intro position looks stored
  exact unseen position ⟨looks, stored⟩

/-- What cells hold makes no difference before a run looks at them, unless it has
stored something else there. -/
theorem unseen_run (dialect : Dialect) (hidden : Position → Prop)
    (machine counterpart : Machine) (count : Nat)
    (beside : machine.Beside (Playfield.AgreesOff hidden) counterpart)
    (unseen : ∀ turn < count, ∀ position,
      (after (cycle dialect) turn machine).Examines dialect position →
        hidden position → machine.Overwrites dialect turn position) :
    ∀ turn < count,
      outcome (cycle dialect) turn counterpart =
          outcome (cycle dialect) turn machine ∧
        (after (cycle dialect) (turn + 1) machine).Beside
          (Playfield.AgreesOff fun position =>
            hidden position ∧ ¬ machine.Overwrites dialect (turn + 1) position)
          (after (cycle dialect) (turn + 1) counterpart) := by
  have start : machine.Beside
      (Playfield.AgreesOff (machine.Remains dialect hidden 0)) counterpart := by
    apply beside.mono
    intro field other agrees
    apply agrees.mono
    rintro position isHidden
    refine ⟨isHidden, ?_⟩
    rintro ⟨turn, bound, _⟩
    exact Nat.not_lt_zero turn bound
  apply lockstep_along (fun turn =>
    Beside (Playfield.AgreesOff (machine.Remains dialect hidden turn))) start
  intro turn bound reached related
  have step := cycle_unseen dialect related <| by
    rintro position examined ⟨isHidden, fresh⟩
    exact fresh (unseen turn bound position examined isHidden)
  apply step.mono
  intro state counterpart states
  apply states.mono
  intro field other agrees
  apply agrees.mono
  rintro position ⟨⟨isHidden, fresh⟩, missed⟩
  refine ⟨isHidden, ?_⟩
  rw [overwrites_succ_iff]
  rintro (earlier | aimed)
  · exact fresh earlier
  · exact missed aimed

/-- The text of a comment on the first line, one character of which is replaced on
the way. -/
theorem unseen_run_of_comment :
    let program (text : Array Int) : Machine :=
      { field := ⟨#[#[35, 33] ++ text, #[108, 32, 69, 113, 32]], .strict⟩ }
    let machine := program #[120, 121, 122]
    let counterpart := program #[97, 98, 99]
    let hidden (position : Position) := position.y = 0 ∧ 2 ≤ position.x
    machine.Beside (Playfield.AgreesOff hidden) counterpart ∧
      (∀ turn < 5, ∀ position,
        (after (cycle .argh) turn machine).Examines .argh position →
          hidden position → machine.Overwrites .argh turn position) ∧
      ∀ turn < 5,
        outcome (cycle .argh) turn counterpart =
            outcome (cycle .argh) turn machine ∧
          (after (cycle .argh) (turn + 1) machine).Beside
            (Playfield.AgreesOff fun position =>
              hidden position ∧ ¬ machine.Overwrites .argh (turn + 1) position)
            (after (cycle .argh) (turn + 1) counterpart) := by
  intro program machine counterpart hidden
  have beside : machine.Beside (Playfield.AgreesOff hidden) counterpart := by
    refine ⟨⟨rfl, ?_, ?_⟩, rfl⟩
    · rintro ⟨x | x, y | y⟩
      · match x, y with
        | 0, 0 | 1, 0 | 2, 0 | 3, 0 | 4, 0 => rfl
        | x + 5, 0 => rfl
        | _, y + 1 => rfl
      all_goals rfl
    · rintro ⟨x | x, y | y⟩ visible
      · match x, y with
        | 0, 0 | 1, 0 => rfl
        | x + 2, 0 =>
            refine absurd ⟨rfl, ?_⟩ visible
            exact Int.ofNat_le.2 (Nat.le_add_left 2 x)
        | _, y + 1 => rfl
      all_goals rfl
  have fetched : ∀ turn < 5,
      ¬ hidden (after (cycle .argh) turn machine).pointer ∧
        (turn = 0 ∨ (after (cycle .argh) turn machine).field.cell?
          (after (cycle .argh) turn machine).pointer ∈
            [some 108, some 32, some 69, some 113]) := by
    decide
  have unseen : ∀ turn < 5, ∀ position,
      (after (cycle .argh) turn machine).Examines .argh position →
        hidden position → machine.Overwrites .argh turn position := by
    rintro turn bound position ⟨looks, _⟩ isHidden
    obtain ⟨visible, quiet⟩ := fetched turn bound
    rcases looks with rfl | ⟨cell, stored, looks⟩
    · exact absurd isHidden visible
    rcases quiet with rfl | quiet
    · obtain rfl : 35 = cell := Option.some.inj stored
      obtain ⟨_, rfl⟩ := looks
      exact absurd isHidden (by decide)
    · rw [stored] at quiet
      simp only [List.mem_cons, Option.some.injEq, List.not_mem_nil, or_false]
        at quiet
      rcases quiet with rfl | rfl | rfl | rfl <;> exact looks.elim
  exact ⟨beside, unseen,
    unseen_run .argh hidden machine counterpart 5 beside unseen⟩

end Grid.Machine

end Esoteric
