import Esoteric.Proofs.Grid.Befunge.Failure

/-! What a cycle that succeeds may change, as the character it fetches tells. -/

namespace Esoteric.Grid

variable {machine reached : Machine} {dialect : Dialect} {cell : Int}
  {c : Char} {holds : Machine → Prop} {position : Position}

namespace Machine

instance (machine : Machine) (c : Char) : Decidable (machine.Holds c) :=
  inferInstanceAs (Decidable (_ = _))

def HoldsOneOf (machine : Machine) (letters : List Char) : Prop :=
  ∃ c ∈ letters, machine.Holds c

instance (machine : Machine) (letters : List Char) :
    Decidable (machine.HoldsOneOf letters) :=
  List.decidableBEx machine.Holds letters

end Machine

namespace Dialect

def letters : Dialect → List Char
  | befunge =>
      ['>', '<', '^', 'v', '?', '_', '|', '"', '#', '@', ':', '\\', '$',
        '0', '1', '2', '3', '4', '5', '6', '7', '8', '9',
        '+', '-', '*', '/', '%', '\x60', '!', 'p', 'g', '.', ',', '&', '~']
  | argh =>
      ['h', 'j', 'k', 'l', 'H', 'J', 'K', 'L', 'x', 'X', 'q', 'd', 'D',
        's', 'S', 'a', 'A', 'r', 'R', 'f', 'F', 'p', 'P', 'g', 'G', 'e', 'E',
        '#']

def printing : Dialect → List Char
  | befunge => ['.', ',', '&']
  | argh => ['p', 'P']

def asking : Dialect → List Char
  | befunge => ['&', '~']
  | argh => ['g', 'G']

def drawing : Dialect → List Char
  | befunge => ['?']
  | argh => []

/-- Draws are made one at a time. -/
def chanceAfter (dialect : Dialect) (machine : Machine) : Chance :=
  if machine.HoldsOneOf dialect.drawing then
    machine.chance.rest
  else
    machine.chance

def turning : Dialect → List Char
  | befunge => ['>', '<', '^', 'v', '?', '_', '|']
  | argh => ['h', 'j', 'k', 'l', 'H', 'J', 'K', 'L', 'x', 'X', '#']

/-- The cell at which a cycle may store a value. -/
def StoresAt (dialect : Dialect) (machine : Machine) (position : Position) :
    Prop :=
  match dialect with
  | befunge =>
      machine.Holds 'p' ∧ ∃ value rest,
        machine.stack = position.y :: position.x :: value :: rest
  | argh =>
      ∃ side : Argh.Side, ∃ c ∈ ['f', 'g', 'e'],
        machine.Holds (side.letter c) ∧
          position = machine.pointer.advance side.direction

/-- The number of cells by which a cycle moves on, where only the end of a text
and the landing of a jump are not told. -/
def Strides (dialect : Dialect) (machine : Machine) (distance : Nat) : Prop :=
  match dialect with
  | befunge =>
      machine.Holds '"' ∨ distance = if machine.Holds '#' then 2 else 1
  | argh =>
      machine.stack ≠ [] ∧ machine.HoldsOneOf ['H', 'J', 'K', 'L'] ∨
        distance = 1

end Dialect

/-- What a cycle that succeeds leaves of a machine. -/
structure Machine.Changes (dialect : Dialect) (machine left : Machine) :
    Prop where
  height : left.field.height = machine.field.height
  width : ∀ row, left.field.width row = machine.field.width row
  field : left.field = machine.field ∨
    ∃ position value, dialect.StoresAt machine position ∧
      left.field = machine.field.set position value
  output : left.output = machine.output ∨
    machine.HoldsOneOf dialect.printing ∧
      ∃ text, left.output = machine.output ++ text
  input : left.input = machine.input ∨
    machine.HoldsOneOf dialect.asking ∧ left.input = machine.input.rest
  chance : left.chance = dialect.chanceAfter machine
  heading : left.heading = machine.heading ∨
    machine.HoldsOneOf dialect.turning
  pointer : ∃ distance, dialect.Strides machine distance ∧
    left.pointer = machine.pointer.moved left.heading distance
  cycles : left.cycles = machine.cycles + 1

namespace Machine

theorem load_ensures (machine : Machine) {use : Int → Step Machine}
    (uses : ∀ value, (use value).Ensures holds) :
    (machine.load position use).Ensures holds := by
  rw [load]
  cases machine.field.read position with
  | ok value => exact uses value
  | error cause => exact .fault cause

theorem store_ensures (machine : Machine) {value : Int}
    (kept : holds machine)
    (stored : holds
      { machine with field := machine.field.set position value }) :
    (machine.store position value).Ensures holds := by
  rw [store, Playfield.write]
  cases machine.field.cell? position with
  | some present => exact .ok stored
  | none =>
      cases machine.field.edge with
      | strict => exact .fault (.writeOutside position)
      | silent filler =>
          intro _
          exact kept

theorem cycle_ensures
    (stored : machine.field.cell? machine.pointer = some cell)
    (ensures : (dialect.execute cell machine).Ensures fun reached =>
      holds reached.finish) :
    (machine.cycle dialect).Ensures holds := by
  rw [cycle, stored]
  exact ensures.andThen_ok _

namespace Changes

theorem of_move (dialect : Dialect) {chance : Chance} {distance : Nat}
    (heading : Direction) (stack : List Int)
    (draws : dialect.chanceAfter machine = chance)
    (strides : dialect.Strides machine (distance + 1))
    (turns : heading = machine.heading ∨ machine.HoldsOneOf dialect.turning) :
    machine.Changes dialect
      { machine with
        pointer := machine.pointer.moved heading distance
        heading, stack, chance }.finish where
  height := rfl
  width _ := rfl
  field := .inl rfl
  output := .inl rfl
  input := .inl rfl
  chance := draws.symm
  heading := turns
  pointer := ⟨distance + 1, strides, Position.advance_moved ..⟩
  cycles := rfl

theorem of_turn (dialect : Dialect) {chance : Chance} (heading : Direction)
    (stack : List Int)
    (draws : dialect.chanceAfter machine = chance)
    (walks : dialect.Strides machine 1)
    (turns : heading = machine.heading ∨ machine.HoldsOneOf dialect.turning) :
    machine.Changes dialect { machine with heading, stack, chance }.finish := by
  have moved := of_move dialect heading stack draws walks turns
  rwa [Position.moved_zero] at moved

theorem of_set (changes : machine.Changes dialect reached)
    (aims : dialect.StoresAt machine position) (value : Int) :
    machine.Changes dialect
      { reached with field := machine.field.set position value } :=
  { changes with
    height := machine.field.height_set position value
    width := machine.field.width_set position value
    field := .inr ⟨position, value, aims, rfl⟩ }

end Changes

end Machine

namespace Befunge.Instruction

variable {instruction : Instruction}

theorem decode_of_holds
    (stored : machine.field.cell? machine.pointer = some cell)
    (holds : machine.Holds c) : decode cell = ofChar? c := by
  obtain rfl : cell = c.toNat := Option.some.inj (stored.symm.trans holds)
  rw [decode, symbol_character]

theorem mem_letters (read : ofChar? c = some instruction) :
    c ∈ Dialect.befunge.letters := by
  unfold ofChar? at read
  split at read
  all_goals cases read <;> decide

theorem chanceAfter_eq
    (stored : machine.field.cell? machine.pointer = some cell)
    (other : decode cell ≠ some wander) :
    Dialect.befunge.chanceAfter machine = machine.chance := by
  rw [Dialect.chanceAfter, if_neg]
  rintro ⟨c, member, holds⟩
  obtain rfl := List.mem_singleton.1 member
  exact other (decode_of_holds stored holds)

theorem walks
    (stored : machine.field.cell? machine.pointer = some cell)
    (other : decode cell ≠ some bridge) :
    Dialect.befunge.Strides machine 1 := by
  right
  rw [if_neg]
  intro holds
  exact other (decode_of_holds stored holds)

theorem executeText_changes (holds : machine.Holds '"')
    (still : Dialect.befunge.chanceAfter machine = machine.chance) :
    (executeText machine).Ensures fun reached =>
      machine.Changes .befunge reached.finish := by
  unfold executeText
  extract_lets start ahead text stop reached
  have ends : stop = machine.pointer.moved machine.heading (text.length + 1) :=
    (Position.moved_succ ..).symm
  split
  · apply Step.Ensures.ok
    unfold reached
    rw [ends]
    exact .of_move .befunge machine.heading _ still (.inl holds) (.inl rfl)
  · exact .fault _

theorem wander_changes
    (stored : machine.field.cell? machine.pointer = some cell)
    (decoded : decode cell = some wander) :
    (wander.execute machine).Ensures fun reached =>
      machine.Changes .befunge reached.finish := by
  have holds : machine.Holds '?' := holds_letter stored decoded
  have one : Dialect.befunge.Strides machine 1 := by
    apply walks stored
    simp [decoded]
  rw [execute]
  split
  · rename_i direction _
    apply Step.Ensures.ok
    apply Machine.Changes.of_turn .befunge direction machine.stack _ one
    · exact .inr ⟨'?', by decide, holds⟩
    · exact if_pos ⟨'?', by decide, holds⟩
  · exact .astray

theorem bridge_changes
    (stored : machine.field.cell? machine.pointer = some cell)
    (decoded : decode cell = some bridge) :
    (bridge.execute machine).Ensures fun reached =>
      machine.Changes .befunge reached.finish := by
  have holds : machine.Holds '#' := holds_letter stored decoded
  have still : Dialect.befunge.chanceAfter machine = machine.chance := by
    apply chanceAfter_eq stored
    simp [decoded]
  have next : machine.pointer.advance machine.heading =
      machine.pointer.moved machine.heading 1 := by
    rw [Position.moved_succ, Position.moved_zero]
  apply Step.Ensures.ok
  rw [Machine.advance, next]
  apply Machine.Changes.of_move .befunge machine.heading machine.stack still
  · right
    rw [if_pos holds]
  · exact .inl rfl

theorem execute_changes
    (stored : machine.field.cell? machine.pointer = some cell)
    (decoded : decode cell = some instruction) :
    (instruction.execute machine).Ensures fun reached =>
      machine.Changes .befunge reached.finish := by
  have holds := holds_letter stored decoded
  by_cases draws : instruction = wander
  · subst draws
    exact wander_changes stored decoded
  by_cases leaps : instruction = bridge
  · subst leaps
    exact bridge_changes stored decoded
  have still : Dialect.befunge.chanceAfter machine = machine.chance := by
    apply chanceAfter_eq stored
    rw [decoded]
    exact mt Option.some.inj draws
  have one : Dialect.befunge.Strides machine 1 := by
    apply walks stored
    rw [decoded]
    exact mt Option.some.inj leaps
  have works (stack : List Int) :
      machine.Changes .befunge { machine with stack }.finish :=
    .of_turn .befunge machine.heading stack still one (.inl rfl)
  cases instruction with
  | wander => exact absurd rfl draws
  | bridge => exact absurd rfl leaps
  | head direction =>
      apply Step.Ensures.ok
      apply Machine.Changes.of_turn .befunge direction machine.stack still one
      exact .inr ⟨_, by cases direction <;> decide, holds⟩
  | branchAcross | branchAlong =>
      apply Step.Ensures.ok
      apply Machine.Changes.of_turn .befunge _ (machine.stack.drop 1) still one
      exact .inr ⟨_, by decide, holds⟩
  | readText => exact executeText_changes holds still
  | halt => exact .quit
  | compute operator =>
      rw [execute]
      split
      · exact .ok (works _)
      · exact .fault _
  | put =>
      by_cases short : machine.stack.length < 3
      · rw [execute_put_of_short short]
        exact .fault _
      · obtain ⟨y, x, value, rest, operands⟩ :=
          exists_three_operands (Nat.not_lt.1 short)
        rw [execute_put_of_operands operands]
        apply Machine.store_ensures
        · exact works rest
        · apply (works rest).of_set
          exact ⟨holds, value, rest, operands⟩
  | get =>
      by_cases short : machine.stack.length < 2
      · rw [execute_get_of_short short]
        exact .fault _
      · obtain ⟨y, x, rest, operands⟩ :=
          exists_two_operands (Nat.not_lt.1 short)
        rw [execute_get_of_operands operands]
        apply Machine.load_ensures
        intro value
        exact .ok (works (value :: rest))
  | showNumber =>
      rw [execute, Machine.printNumber]
      split
      · apply Step.Ensures.ok
        exact { works (machine.stack.drop 1) with
          output := .inr ⟨⟨_, by decide, holds⟩, _, rfl⟩ }
      · exact .fault _
  | showCharacter =>
      apply Step.Ensures.ok
      exact { works (machine.stack.drop 1) with
        output := .inr ⟨⟨_, by decide, holds⟩, _, rfl⟩ }
  | askNumber =>
      apply Step.Ensures.ok
      exact { works (machine.input.next :: machine.stack) with
        output := .inr ⟨⟨_, by decide, holds⟩, _, rfl⟩
        input := .inr ⟨⟨_, by decide, holds⟩, rfl⟩ }
  | askCharacter =>
      apply Step.Ensures.ok
      exact { works (machine.input.next :: machine.stack) with
        input := .inr ⟨⟨_, by decide, holds⟩, rfl⟩ }
  | duplicate | swap | discard | digit _ | invert => exact .ok (works _)

end Befunge.Instruction

namespace Argh.Instruction

variable {instruction : Instruction}

theorem mem_letters (read : ofChar? c = some instruction) :
    c ∈ Dialect.argh.letters := by
  unfold ofChar? at read
  split at read
  all_goals cases read <;> decide

theorem chanceAfter_eq (machine : Machine) :
    Dialect.argh.chanceAfter machine = machine.chance := by
  rw [Dialect.chanceAfter, if_neg]
  rintro ⟨c, member, _⟩
  contradiction

theorem changes_of_turn (heading : Direction) (stack : List Int)
    (turns : heading = machine.heading ∨
      machine.HoldsOneOf Dialect.argh.turning) :
    machine.Changes .argh { machine with heading, stack }.finish :=
  .of_turn .argh heading stack (chanceAfter_eq machine) (.inr rfl) turns

theorem executeJump_changes {direction : Direction}
    (holds : machine.Holds (jumpLetter direction)) :
    (executeJump direction machine).Ensures fun reached =>
      machine.Changes .argh reached.finish := by
  have turns : machine.HoldsOneOf Dialect.argh.turning :=
    ⟨_, by cases direction <;> decide, holds⟩
  unfold executeJump
  cases operand : machine.stack with
  | nil =>
      apply Step.Ensures.ok
      exact changes_of_turn direction [] (.inr turns)
  | cons target rest =>
      dsimp only
      split
      · apply Step.Ensures.ok
        apply Machine.Changes.of_move .argh direction (target :: rest)
          (chanceAfter_eq machine) _ (.inr turns)
        have loaded : machine.stack ≠ [] := by
          rw [operand]
          exact List.cons_ne_nil target rest
        left
        exact ⟨loaded, _, by cases direction <;> decide, holds⟩
      · exact .fault _

theorem execute_changes
    (holds : machine.Holds instruction.letter) :
    (instruction.execute machine).Ensures fun reached =>
      machine.Changes .argh reached.finish := by
  have works (stack : List Int) :
      machine.Changes .argh { machine with stack }.finish :=
    changes_of_turn machine.heading stack (.inl rfl)
  cases instruction with
  | head direction =>
      apply Step.Ensures.ok
      apply changes_of_turn direction machine.stack
      exact .inr ⟨_, by cases direction <;> decide, holds⟩
  | jump direction => exact executeJump_changes holds
  | turnRight | turnLeft =>
      rw [execute]
      split
      · apply Step.Ensures.ok
        apply changes_of_turn _ machine.stack
        exact .inr ⟨_, by decide, holds⟩
      · exact .ok (works _)
  | halt => exact .quit
  | duplicate =>
      rw [execute]
      cases operand : machine.stack with
      | nil => exact .ok (works _)
      | cons top rest => exact .ok (works _)
  | copy side =>
      apply Machine.load_ensures
      intro value
      exact .ok (works _)
  | add side | subtract side =>
      rw [execute]
      cases operand : machine.stack with
      | nil => exact .ok (works _)
      | cons top rest =>
          apply Machine.load_ensures
          intro value
          exact .ok (works _)
  | fetch side =>
      rw [execute]
      cases operand : machine.stack with
      | nil => exact .ok (works _)
      | cons top rest =>
          apply Machine.store_ensures
          · exact works rest
          · apply (works rest).of_set
            exact ⟨side, 'f', by decide, holds, rfl⟩
  | print side =>
      apply Machine.load_ensures
      intro value
      apply Step.Ensures.ok
      exact { works machine.stack with
        output := .inr ⟨⟨_, by cases side <;> decide, holds⟩, _, rfl⟩ }
  | ask side =>
      have asks : machine.Changes .argh machine.consumeInput.finish :=
        { works machine.stack with
          input := .inr ⟨⟨_, by cases side <;> decide, holds⟩, rfl⟩ }
      apply Machine.store_ensures
      · exact asks
      · apply asks.of_set
        exact ⟨side, 'g', by decide, holds, rfl⟩
  | clear side =>
      apply Machine.store_ensures
      · exact works machine.stack
      · apply (works machine.stack).of_set
        exact ⟨side, 'e', by decide, holds, rfl⟩
  | comment =>
      rw [execute]
      split
      · apply Machine.load_ensures
        intro value
        split
        · apply Step.Ensures.ok
          apply changes_of_turn .down machine.stack
          exact .inr ⟨_, by decide, holds⟩
        · exact .ok (works _)
      · exact .ok (works _)
  | discard => exact .ok (works _)

end Argh.Instruction

namespace Dialect

theorem execute_changes (dialect : Dialect)
    (stored : machine.field.cell? machine.pointer = some cell) :
    (dialect.execute cell machine).Ensures fun reached =>
      machine.Changes dialect reached.finish := by
  cases dialect with
  | befunge =>
      simp only [execute]
      cases decoded : Befunge.Instruction.decode cell with
      | some instruction =>
          exact Befunge.Instruction.execute_changes stored decoded
      | none =>
          apply Step.Ensures.ok
          apply Machine.Changes.of_turn .befunge machine.heading machine.stack
          · apply Befunge.Instruction.chanceAfter_eq stored
            simp [decoded]
          · apply Befunge.Instruction.walks stored
            simp [decoded]
          · exact .inl rfl
  | argh =>
      simp only [execute]
      cases decoded : Argh.Instruction.decode cell with
      | some instruction =>
          apply Argh.Instruction.execute_changes
          exact Argh.Instruction.holds_letter stored decoded
      | none =>
          apply Step.Ensures.ok
          exact Argh.Instruction.changes_of_turn machine.heading machine.stack
            (.inl rfl)

theorem execute_of_not_holdsOneOf (dialect : Dialect)
    (stored : machine.field.cell? machine.pointer = some cell)
    (idle : ¬ machine.HoldsOneOf dialect.letters) :
    dialect.execute cell machine = .ok machine := by
  cases dialect with
  | befunge =>
      simp only [execute]
      cases decoded : Befunge.Instruction.decode cell with
      | none => rfl
      | some instruction =>
          have listed := Befunge.Instruction.mem_letters decoded
          have holds := Machine.holds_of_read stored decoded rfl
          exact absurd ⟨_, listed, holds⟩ idle
  | argh =>
      simp only [execute]
      cases decoded : Argh.Instruction.decode cell with
      | none => rfl
      | some instruction =>
          have listed := Argh.Instruction.mem_letters decoded
          have holds := Machine.holds_of_read stored decoded rfl
          exact absurd ⟨_, listed, holds⟩ idle

end Dialect

/-- A cycle that succeeds changes nothing but what the character it fetches
stands for, and a cell that holds no instruction is passed over. -/
theorem Machine.cycle_changes (dialect : Dialect) (machine : Machine) :
    ((machine.cycle dialect).outcome = .ok →
      machine.Changes dialect (machine.cycle dialect).state) ∧
    (machine.field.contains machine.pointer = true →
      ¬ machine.HoldsOneOf dialect.letters →
        (machine.cycle dialect).outcome = .ok ∧
          (machine.cycle dialect).state = machine.finish) := by
  constructor
  · intro succeeds
    cases stored : machine.field.cell? machine.pointer with
    | none =>
        obtain ⟨fails, _⟩ := cycle_of_outside dialect stored
        rw [fails] at succeeds
        contradiction
    | some cell =>
        exact cycle_ensures stored (dialect.execute_changes stored) succeeds
  · intro inside idle
    obtain ⟨cell, stored⟩ := Option.isSome_iff_exists.1 inside
    have executed := dialect.execute_of_not_holdsOneOf stored idle
    constructor
    · rw [outcome_cycle dialect stored, executed]
      rfl
    · exact state_cycle_of_ok dialect stored executed

theorem Machine.cycle_changes_of_put :
    let machine : Machine :=
      { field := ⟨#[#[112, 32]], .strict⟩, stack := [0, 1, 7] }
    let idle : Machine := { field := ⟨#[#[-5]], .strict⟩ }
    (machine.cycle .befunge).outcome = .ok ∧
      machine.Changes .befunge (machine.cycle .befunge).state ∧
      idle.field.contains idle.pointer = true ∧
      ¬ idle.HoldsOneOf Dialect.befunge.letters ∧
      (idle.cycle .befunge).outcome = .ok ∧
      (idle.cycle .befunge).state = idle.finish := by
  intro machine idle
  have succeeds : (machine.cycle .befunge).outcome = .ok := rfl
  have inside : idle.field.contains idle.pointer = true := rfl
  have unlisted : ¬ idle.HoldsOneOf Dialect.befunge.letters := by decide
  obtain ⟨changes, _⟩ := Machine.cycle_changes .befunge machine
  obtain ⟨_, passes⟩ := Machine.cycle_changes .befunge idle
  exact ⟨succeeds, changes succeeds, inside, unlisted, passes inside unlisted⟩

end Esoteric.Grid
