import Esoteric.Proofs.Grid.Footprint
import Esoteric.Proofs.Playfield.Load

namespace Esoteric

def Outcome.isFault : Outcome → Bool
  | .fault _ => true
  | _ => false

namespace Playfield

variable {field other inner outer : Playfield} {position : Position}

structure Confines (looks : Position → Prop) (target : Option Position)
    (field : Playfield) : Prop where
  seen : ∀ position, looks position → field.contains position = true
  stored : ∀ position ∈ target, field.contains position = true

theorem confines_nothing (field : Playfield) :
    field.Confines (fun _ => False) none := by
  refine ⟨fun _ => False.elim, ?_⟩
  intro position aimed
  contradiction

theorem Confines.looking {looks : Position → Prop}
    (seen : ∀ position, looks position → field.contains position = true) :
    field.Confines looks none :=
  ⟨seen, field.confines_nothing.stored⟩

theorem Confines.aiming (stored : field.contains position = true) :
    field.Confines (fun _ => False) (some position) := by
  refine ⟨fun _ => False.elim, ?_⟩
  rintro _ ⟨⟩
  exact stored

/-- Strict playfields, of which the second has all cells of the first. -/
structure EnclosedBy (field other : Playfield) : Prop where
  strict : field.edge = .strict
  otherStrict : other.edge = .strict
  values : ∀ position value, field.cell? position = some value →
    other.cell? position = some value

/-- Playfields with the cells of two others, of which the second has all cells of
the first and holds what it held in those around them. -/
structure Follows (inner outer field other : Playfield) : Prop
    extends EnclosedBy field other where
  shape : ∀ position, field.contains position = inner.contains position
  around : ∀ position, inner.contains position = false →
    other.cell? position = outer.cell? position

theorem EnclosedBy.contains (enclosed : field.EnclosedBy other)
    (stored : field.contains position = true) :
    other.contains position = true := by
  obtain ⟨value, found⟩ := Option.isSome_iff_exists.1 stored
  exact contains_of_cell? (enclosed.values position value found)

theorem EnclosedBy.follows (enclosed : field.EnclosedBy other) :
    Follows field other field other :=
  { enclosed with shape := fun _ => rfl, around := fun _ _ => rfl }

theorem Follows.set (follows : Follows inner outer field other)
    (stored : field.contains position = true) (value : Int) :
    Follows inner outer (field.set position value)
      (other.set position value) := by
  have otherStored := follows.contains stored
  refine ⟨⟨?_, ?_, ?_⟩, ?_, ?_⟩
  · rw [set_edge, follows.strict]
  · rw [set_edge, follows.otherStrict]
  · intro place present
    rw [cell?_set stored, cell?_set otherStored]
    split
    · exact id
    · exact follows.values place present
  · intro place
    rw [contains_set stored, follows.shape]
  · intro place outside
    have elsewhere : place ≠ position := by
      rintro rfl
      rw [← follows.shape, stored] at outside
      contradiction
    rw [cell?_set otherStored, if_neg elsewhere, follows.around place outside]

theorem Follows.shares (follows : Follows inner outer field other)
    {looks : Position → Prop} {target : Option Position}
    (confines : field.Confines looks target) :
    field.Shares looks target (Follows inner outer) other where
  edge := follows.otherStrict.trans follows.strict.symm
  seen position looked := by
    obtain ⟨value, found⟩ :=
      Option.isSome_iff_exists.1 (confines.seen position looked)
    rw [found, follows.values position value found]
  shape position aimed := by
    have stored := confines.stored position aimed
    rw [stored, follows.contains stored]
  kept _ := follows
  stored _ _ stored value := follows.set stored value

theorem enclosedBy_ofLines (lines : List (List Char)) (filler : Char)
    {width wider : Int} (sensible : 0 ≤ width) (grows : width ≤ wider) :
    (ofLines lines width filler .strict).EnclosedBy
      (ofLines lines wider filler .strict) := by
  refine ⟨rfl, rfl, ?_⟩
  obtain ⟨columns, rfl⟩ := Int.eq_ofNat_of_zero_le sensible
  obtain ⟨more, rfl⟩ := Int.eq_ofNat_of_zero_le (Int.le_trans sensible grows)
  rintro ⟨x | x, y | y⟩ value stored
  · rw [cell?_ofLines] at stored ⊢
    obtain ⟨line, found, laid⟩ := Option.bind_eq_some_iff.1 stored
    rw [getElem?_layRow] at laid
    rw [found, Option.bind_some, getElem?_layRow]
    split at laid
    · rename_i inside
      rw [if_pos (by omega)]
      exact laid
    · contradiction
  all_goals contradiction

end Playfield

namespace Grid

open Run

variable {machine counterpart : Machine} {position : Position} {cell : Int}

namespace Machine

theorem contains_of_load (machine : Machine)
    (strict : machine.field.edge = .strict) {use : Int → Step Machine}
    (faultless : (machine.load position use).outcome.isFault = false) :
    machine.field.contains position = true := by
  cases stored : machine.field.cell? position with
  | none =>
      simp only [load, Playfield.read_of_strict strict stored] at faultless
      contradiction
  | some value => exact Playfield.contains_of_cell? stored

theorem contains_of_store (machine : Machine)
    (strict : machine.field.edge = .strict) {value : Int}
    (faultless : (machine.store position value).outcome.isFault = false) :
    machine.field.contains position = true := by
  cases stored : machine.field.cell? position with
  | none =>
      simp only [store, Playfield.write_of_strict strict stored] at faultless
      contradiction
  | some value => exact Playfield.contains_of_cell? stored

end Machine

open Grid.Machine

namespace Befunge.Instruction

theorem confines (instruction : Instruction)
    (strict : machine.field.edge = .strict)
    (faultless : (instruction.execute machine).outcome.isFault = false) :
    machine.field.Confines (instruction.LooksAt machine)
      (instruction.target? machine) := by
  cases instruction with
  | readText =>
      simp only [execute, executeText] at faultless
      split at faultless
      · rename_i found
        apply Playfield.Confines.looking
        intro position searched
        exact searched.contains found
      · contradiction
  | put =>
      by_cases enough : 3 ≤ machine.stack.length
      · rw [execute_put enough] at faultless
        rw [target?, if_pos enough]
        apply Playfield.Confines.aiming
        exact contains_of_store (machine.consume 3) strict faultless
      · rw [target?, if_neg enough]
        exact machine.field.confines_nothing
  | get =>
      apply Playfield.Confines.looking
      rintro position ⟨enough, rfl⟩
      rw [execute_get enough] at faultless
      exact contains_of_load (machine.consume 2) strict faultless
  | _ => exact machine.field.confines_nothing

end Befunge.Instruction

namespace Argh.Instruction

theorem confines (instruction : Instruction)
    (strict : machine.field.edge = .strict)
    (faultless : (instruction.execute machine).outcome.isFault = false) :
    machine.field.Confines (instruction.LooksAt machine)
      (instruction.target? machine) := by
  cases instruction with
  | jump direction =>
      apply Playfield.Confines.looking
      rintro position ⟨target, rest, values, searched⟩
      simp only [execute, executeJump, values] at faultless
      split at faultless
      · rename_i found
        exact searched.contains found
      · contradiction
  | copy side | print side =>
      apply Playfield.Confines.looking
      rintro position rfl
      exact contains_of_load machine strict faultless
  | add side | subtract side =>
      apply Playfield.Confines.looking
      rintro position ⟨filled, rfl⟩
      obtain ⟨top, rest, values⟩ := List.exists_cons_of_ne_nil filled
      simp only [execute, values] at faultless
      exact contains_of_load machine strict faultless
  | fetch side =>
      cases values : machine.stack with
      | nil =>
          simp only [target?, values, if_true]
          exact machine.field.confines_nothing
      | cons top rest =>
          simp only [execute, values] at faultless
          simp only [target?, values, List.cons_ne_nil, if_false]
          apply Playfield.Confines.aiming
          exact contains_of_store { machine with stack := rest } strict faultless
  | ask side =>
      apply Playfield.Confines.aiming
      exact contains_of_store machine.consumeInput strict faultless
  | clear side =>
      apply Playfield.Confines.aiming
      exact contains_of_store machine strict faultless
  | comment =>
      apply Playfield.Confines.looking
      rintro position ⟨atOrigin, rfl⟩
      simp only [execute, if_pos atOrigin] at faultless
      exact contains_of_load machine strict faultless
  | _ => exact machine.field.confines_nothing

end Argh.Instruction

theorem Dialect.confines (dialect : Dialect)
    (strict : machine.field.edge = .strict)
    (faultless : (dialect.execute cell machine).outcome.isFault = false) :
    machine.field.Confines (dialect.LooksAt cell machine)
      (dialect.target? cell machine) := by
  cases dialect with
  | befunge =>
      cases decoded : Befunge.Instruction.decode cell with
      | none =>
          simp only [LooksAt, target?, decoded]
          exact machine.field.confines_nothing
      | some instruction =>
          simp only [execute, decoded] at faultless
          simp only [LooksAt, target?, decoded]
          exact instruction.confines strict faultless
  | argh =>
      cases decoded : Argh.Instruction.decode cell with
      | none =>
          simp only [LooksAt, target?, decoded]
          exact machine.field.confines_nothing
      | some instruction =>
          simp only [execute, decoded] at faultless
          simp only [LooksAt, target?, decoded]
          exact instruction.confines strict faultless

namespace Machine

theorem cycle_confines (dialect : Dialect)
    (strict : machine.field.edge = .strict)
    (faultless : (machine.cycle dialect).outcome.isFault = false) :
    machine.field.Confines (machine.LooksAt dialect)
      (machine.target? dialect) := by
  cases stored : machine.field.cell? machine.pointer with
  | none =>
      simp only [cycle, stored] at faultless
      contradiction
  | some cell =>
      rw [outcome_cycle dialect stored] at faultless
      obtain ⟨seen, aimed⟩ := dialect.confines strict faultless
      simp only [target?, stored, Option.bind_some]
      refine ⟨?_, aimed⟩
      rintro position (rfl | ⟨fetched, found, looks⟩)
      · exact Playfield.contains_of_cell? stored
      · obtain rfl := Option.some.inj (stored.symm.trans found)
        exact seen position looks

theorem cycle_follows (dialect : Dialect) {inner outer : Playfield}
    (beside : Beside (Playfield.Follows inner outer) machine counterpart)
    (faultless : (machine.cycle dialect).outcome.isFault = false) :
    (machine.cycle dialect).Related (Beside (Playfield.Follows inner outer))
      (counterpart.cycle dialect) := by
  obtain ⟨follows, copy⟩ := beside
  rw [copy]
  apply cycle_beside
  apply follows.shares
  exact cycle_confines dialect follows.strict faultless

/-- A run of a counterpart with more cells is the same but for those cells, which
keep what they hold. -/
def Reproduces (dialect : Dialect) (count : Nat)
    (machine counterpart : Machine) : Prop :=
  ∀ turn < count,
    outcome (cycle dialect) turn counterpart =
        outcome (cycle dialect) turn machine ∧
      (after (cycle dialect) (turn + 1) machine).Beside
        (Playfield.Follows machine.field counterpart.field)
        (after (cycle dialect) (turn + 1) counterpart)

theorem Beside.reproduces (dialect : Dialect) {count : Nat}
    (beside : machine.Beside Playfield.EnclosedBy counterpart)
    (faultless : ∀ turn < count,
      (outcome (cycle dialect) turn machine).isFault = false) :
    Reproduces dialect count machine counterpart := by
  have step : ∀ state reached,
      Beside (Playfield.Follows machine.field counterpart.field) state reached →
        (state.cycle dialect).outcome.isFault = false →
          (state.cycle dialect).Related
            (Beside (Playfield.Follows machine.field counterpart.field))
            (reached.cycle dialect) := fun _ _ => cycle_follows dialect
  exact lockstep step ⟨beside.fields.follows, beside.copy⟩ faultless

/-- What a run without a fault does on a strict playfield it does on every larger
one, as on one that is loaded with more columns. -/
theorem enlarged_run (dialect : Dialect) (machine : Machine) (count : Nat)
    (faultless : ∀ turn < count,
      (outcome (cycle dialect) turn machine).isFault = false) :
    (∀ counterpart, machine.Beside Playfield.EnclosedBy counterpart →
      Reproduces dialect count machine counterpart) ∧
    ∀ lines filler width wider, 0 ≤ width → width ≤ wider →
      machine.field = .ofLines lines width filler .strict →
        Reproduces dialect count machine
          (machine.withField (.ofLines lines wider filler .strict)) := by
  refine ⟨?_, ?_⟩
  · intro counterpart beside
    exact beside.reproduces dialect faultless
  · intro lines filler width wider sensible grows loaded
    apply Beside.reproduces dialect ?_ faultless
    refine ⟨?_, rfl⟩
    rw [loaded]
    exact Playfield.enclosedBy_ofLines lines filler sensible grows

theorem enlarged_run_of_put :
    let lines := [['7', '0', '0', 'p', '@', '\r', '\n']]
    let machine : Machine := { field := .ofLines lines 5 ' ' .strict }
    (∀ turn < 5,
        (outcome (cycle .befunge) turn machine).isFault = false) ∧
      Reproduces .befunge 5 machine
        (machine.withField (.ofLines lines 80 ' ' .strict)) := by
  intro lines machine
  have faultless : ∀ turn < 5,
      (outcome (cycle .befunge) turn machine).isFault = false := by
    decide
  obtain ⟨_, loaded⟩ := enlarged_run .befunge machine 5 faultless
  exact ⟨faultless,
    loaded lines ' ' 5 80 (by decide) (by decide) rfl⟩

end Machine

end Grid

end Esoteric
