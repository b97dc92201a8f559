import Esoteric.Proofs.Grid.Stack
import Esoteric.Proofs.Playfield.Access
import Esoteric.Proofs.Playfield.Search

/-! The cells that a cycle depends on and the one that it changes. -/

namespace Esoteric

namespace Playfield

variable {field other : Playfield} {position : Position}

/-- What two playfields have in common for an effect that looks at some positions
and stores at most at one, and what such an effect leaves them in. -/
structure Shares (looks : Position → Prop) (target : Option Position)
    (relation : Playfield → Playfield → Prop) (field other : Playfield) :
    Prop where
  edge : other.edge = field.edge
  seen : ∀ position, looks position →
    other.cell? position = field.cell? position
  shape : ∀ position ∈ target,
    other.contains position = field.contains position
  kept : (∀ position ∈ target, field.contains position = false) →
    relation field other
  stored : ∀ position ∈ target, field.contains position = true →
    ∀ value, relation (field.set position value) (other.set position value)

theorem Shares.unchanged {looks : Position → Prop}
    {relation : Playfield → Playfield → Prop}
    (shares : field.Shares looks none relation other) :
    relation field other := by
  apply shares.kept
  intro position aimed
  contradiction

theorem Shares.narrow {looks fewer : Position → Prop} {target : Option Position}
    {relation : Playfield → Playfield → Prop}
    (shares : field.Shares looks target relation other)
    (among : ∀ position, fewer position → looks position) :
    field.Shares fewer target relation other :=
  { shares with seen := fun position looked =>
      shares.seen position (among position looked) }

theorem read_congr (sameEdge : other.edge = field.edge)
    (sameCell : other.cell? position = field.cell? position) :
    other.read position = field.read position := by
  simp only [read, sameEdge, sameCell]

end Playfield

namespace Grid

variable {relation : Playfield → Playfield → Prop} {machine : Machine}
  {other : Playfield} {position : Position} {cell : Int}

namespace Machine

def withField (field : Playfield) (machine : Machine) : Machine :=
  { machine with field }

structure Beside (relation : Playfield → Playfield → Prop)
    (machine counterpart : Machine) : Prop where
  fields : relation machine.field counterpart.field
  copy : counterpart = machine.withField counterpart.field

theorem Beside.mono {weaker : Playfield → Playfield → Prop}
    {counterpart : Machine} (beside : Beside relation machine counterpart)
    (weakens : ∀ field other, relation field other → weaker field other) :
    Beside weaker machine counterpart :=
  ⟨weakens _ _ beside.fields, beside.copy⟩

theorem Beside.finish {counterpart : Machine}
    (beside : Beside relation machine counterpart) :
    Beside relation machine.finish counterpart.finish := by
  obtain ⟨fields, copy⟩ := beside
  rw [copy]
  exact ⟨fields, rfl⟩

theorem load_beside (machine : Machine) {use otherUse : Int → Step Machine}
    (sameEdge : other.edge = machine.field.edge)
    (sameCell : other.cell? position = machine.field.cell? position)
    (kept : relation machine.field other)
    (uses : ∀ value, (use value).Related (Beside relation) (otherUse value)) :
    (machine.load position use).Related (Beside relation)
      ((machine.withField other).load position otherUse) := by
  apply load_related
  · exact Playfield.read_congr sameEdge sameCell
  · exact ⟨kept, rfl⟩
  · exact uses

theorem store_beside (machine : Machine) {looks : Position → Prop}
    (shares : machine.field.Shares looks (some position) relation other)
    (value : Int) :
    (machine.store position value).Related (Beside relation)
      ((machine.withField other).store position value) := by
  have sameShape := shares.shape position rfl
  cases stored : machine.field.cell? position with
  | some present =>
      have within := Playfield.contains_of_cell? stored
      obtain ⟨counterpart, otherStored⟩ :=
        Option.isSome_iff_exists.1 (sameShape.trans within)
      have otherWritten : (machine.withField other).field.write position value =
          .inside (other.set position value) :=
        Playfield.write_of_some otherStored value
      simp only [store, Playfield.write_of_some stored, otherWritten]
      exact .ok ⟨shares.stored position rfl within value, rfl⟩
  | none =>
      have beyond := Playfield.contains_eq_false.2 stored
      have otherBeyond :=
        Playfield.contains_eq_false.1 (sameShape.trans beyond)
      have kept : relation machine.field other := by
        apply shares.kept
        rintro _ ⟨⟩
        exact beyond
      simp only [store, withField, Playfield.write, stored, otherBeyond,
        shares.edge]
      cases machine.field.edge with
      | strict => exact .fault _ ⟨kept, rfl⟩
      | silent filler =>
          apply Step.Related.report
          exact .ok ⟨kept, rfl⟩

end Machine

open Grid.Machine

namespace Befunge.Instruction

def LooksAt (instruction : Instruction) (machine : Machine)
    (position : Position) : Prop :=
  match instruction with
  | readText =>
      machine.field.Searches machine.heading quote
        (machine.pointer.advance machine.heading) position
  | get =>
      2 ≤ machine.stack.length ∧
        position = ⟨machine.operand 1, machine.operand 0⟩
  | _ => False

def target? (instruction : Instruction) (machine : Machine) :
    Option Position :=
  match instruction with
  | put =>
      if 3 ≤ machine.stack.length then
        some ⟨machine.operand 1, machine.operand 0⟩
      else
        none
  | _ => none

theorem execute_beside (instruction : Instruction)
    (shares : machine.field.Shares (instruction.LooksAt machine)
      (instruction.target? machine) relation other) :
    (instruction.execute machine).Related (Beside relation)
      (instruction.execute (machine.withField other)) := by
  cases instruction with
  | wander =>
      have kept := shares.unchanged
      simp only [execute, withField]
      cases machine.chance.next with
      | none => exact .astray ⟨kept, rfl⟩
      | some direction => exact .ok ⟨kept, rfl⟩
  | readText =>
      have kept := shares.unchanged
      obtain ⟨sameText, sameFound⟩ := Playfield.search_congr shares.seen
      simp only [execute, executeText, withField, sameText, sameFound]
      split
      · exact .ok ⟨kept, rfl⟩
      · exact .fault _ ⟨kept, rfl⟩
  | halt => exact .quit ⟨shares.unchanged, rfl⟩
  | compute operator =>
      have kept := shares.unchanged
      have sameOperand (depth : Nat) :
          (machine.withField other).operand depth = machine.operand depth := rfl
      simp only [execute, sameOperand]
      cases operator.apply (machine.operand 1) (machine.operand 0) with
      | ok result => exact .ok ⟨kept, rfl⟩
      | error cause => exact .fault cause ⟨kept, rfl⟩
  | put =>
      by_cases enough : 3 ≤ machine.stack.length
      · have otherEnough : 3 ≤ (machine.withField other).stack.length := enough
        simp only [target?, if_pos enough] at shares
        rw [execute_put enough, execute_put otherEnough]
        exact store_beside (machine.consume 3) shares _
      · have short : machine.stack.length < 3 := Nat.lt_of_not_le enough
        have otherShort : (machine.withField other).stack.length < 3 := short
        simp only [target?, if_neg enough] at shares
        rw [execute_put_of_short short, execute_put_of_short otherShort]
        exact .fault _ ⟨shares.unchanged, rfl⟩
  | get =>
      have kept := shares.unchanged
      by_cases enough : 2 ≤ machine.stack.length
      · have otherEnough : 2 ≤ (machine.withField other).stack.length := enough
        have sameCell := shares.seen _ ⟨enough, rfl⟩
        rw [execute_get enough, execute_get otherEnough]
        apply load_beside (machine.consume 2) shares.edge sameCell kept
        intro value
        exact .ok ⟨kept, rfl⟩
      · have short : machine.stack.length < 2 := Nat.lt_of_not_le enough
        have otherShort : (machine.withField other).stack.length < 2 := short
        rw [execute_get_of_short short, execute_get_of_short otherShort]
        exact .fault _ ⟨kept, rfl⟩
  | showNumber =>
      apply printNumber_related
      · exact ⟨shares.unchanged, rfl⟩
      · exact fun _ => ⟨shares.unchanged, rfl⟩
  | _ => exact .ok ⟨shares.unchanged, rfl⟩

end Befunge.Instruction

namespace Argh.Instruction

def LooksAt (instruction : Instruction) (machine : Machine)
    (position : Position) : Prop :=
  let beside (side : Side) := machine.pointer.advance side.direction
  match instruction with
  | jump direction =>
      ∃ target rest, machine.stack = target :: rest ∧
        machine.field.Searches direction target machine.pointer position
  | copy side => position = beside side
  | add side => machine.stack ≠ [] ∧ position = beside side
  | subtract side => machine.stack ≠ [] ∧ position = beside side
  | print side => position = beside side
  | comment =>
      machine.pointer = .origin ∧ position = machine.pointer.advance .right
  | _ => False

def target? (instruction : Instruction) (machine : Machine) :
    Option Position :=
  let beside (side : Side) := machine.pointer.advance side.direction
  match instruction with
  | fetch side => if machine.stack = [] then none else some (beside side)
  | ask side => some (beside side)
  | clear side => some (beside side)
  | _ => none

theorem execute_beside (instruction : Instruction)
    (shares : machine.field.Shares (instruction.LooksAt machine)
      (instruction.target? machine) relation other) :
    (instruction.execute machine).Related (Beside relation)
      (instruction.execute (machine.withField other)) := by
  have sameStack : (machine.withField other).stack = machine.stack := rfl
  have samePointer : (machine.withField other).pointer = machine.pointer := rfl
  cases instruction with
  | jump direction =>
      have kept := shares.unchanged
      simp only [execute, executeJump, sameStack, samePointer]
      cases values : machine.stack with
      | nil => exact .ok ⟨kept, rfl⟩
      | cons target rest =>
          have seen (position : Position) :
              machine.field.Searches direction target machine.pointer position →
                other.cell? position = machine.field.cell? position :=
            fun searched => shares.seen position ⟨target, rest, values, searched⟩
          obtain ⟨sameText, sameFound⟩ := Playfield.search_congr seen
          simp only [withField, sameText, sameFound]
          split
          · exact .ok ⟨kept, rfl⟩
          · exact .fault _ ⟨kept, rfl⟩
  | turnRight | turnLeft =>
      have kept := shares.unchanged
      have sameOperand :
          (machine.withField other).operand 0 = machine.operand 0 := rfl
      simp only [execute, sameOperand]
      split <;> exact .ok ⟨kept, rfl⟩
  | halt => exact .quit ⟨shares.unchanged, rfl⟩
  | duplicate =>
      have kept := shares.unchanged
      simp only [execute, sameStack]
      cases machine.stack with
      | nil => exact .ok ⟨kept, rfl⟩
      | cons top rest => exact .ok ⟨kept, rfl⟩
  | copy side | print side =>
      have kept := shares.unchanged
      apply load_beside machine shares.edge (shares.seen _ rfl) kept
      intro value
      exact .ok ⟨kept, rfl⟩
  | add side | subtract side =>
      have kept := shares.unchanged
      simp only [execute, sameStack]
      cases values : machine.stack with
      | nil => exact .ok ⟨kept, rfl⟩
      | cons top rest =>
          have filled : machine.stack ≠ [] := by
            rw [values]
            exact List.cons_ne_nil top rest
          apply load_beside machine shares.edge (shares.seen _ ⟨filled, rfl⟩) kept
          intro value
          exact .ok ⟨kept, rfl⟩
  | fetch side =>
      simp only [execute, sameStack]
      cases values : machine.stack with
      | nil =>
          simp only [target?, values] at shares
          exact .ok ⟨shares.unchanged, rfl⟩
      | cons top rest =>
          simp only [target?, values, List.cons_ne_nil, if_false] at shares
          exact store_beside { machine with stack := rest } shares top
  | ask side =>
      exact store_beside machine.consumeInput shares _
  | clear side => exact store_beside machine shares 0
  | comment =>
      have kept := shares.unchanged
      simp only [execute, samePointer]
      split
      · rename_i atOrigin
        apply load_beside machine shares.edge (shares.seen _ ⟨atOrigin, rfl⟩) kept
        intro value
        split <;> exact .ok ⟨kept, rfl⟩
      · exact .ok ⟨kept, rfl⟩
  | _ => exact .ok ⟨shares.unchanged, rfl⟩

end Argh.Instruction

namespace Dialect

def LooksAt (dialect : Dialect) (cell : Int) (machine : Machine) :
    Position → Prop :=
  match dialect with
  | befunge =>
      match Befunge.Instruction.decode cell with
      | some instruction => instruction.LooksAt machine
      | none => fun _ => False
  | argh =>
      match Argh.Instruction.decode cell with
      | some instruction => instruction.LooksAt machine
      | none => fun _ => False

def target? (dialect : Dialect) (cell : Int) (machine : Machine) :
    Option Position :=
  match dialect with
  | befunge =>
      match Befunge.Instruction.decode cell with
      | some instruction => instruction.target? machine
      | none => none
  | argh =>
      match Argh.Instruction.decode cell with
      | some instruction => instruction.target? machine
      | none => none

theorem execute_beside (dialect : Dialect)
    (shares : machine.field.Shares (dialect.LooksAt cell machine)
      (dialect.target? cell machine) relation other) :
    (dialect.execute cell machine).Related (Beside relation)
      (dialect.execute cell (machine.withField other)) := by
  cases dialect with
  | befunge =>
      simp only [execute]
      cases decoded : Befunge.Instruction.decode cell with
      | none =>
          simp only [target?, decoded] at shares
          exact .ok ⟨shares.unchanged, rfl⟩
      | some instruction =>
          simp only [LooksAt, target?, decoded] at shares
          exact instruction.execute_beside shares
  | argh =>
      simp only [execute]
      cases decoded : Argh.Instruction.decode cell with
      | none =>
          simp only [target?, decoded] at shares
          exact .ok ⟨shares.unchanged, rfl⟩
      | some instruction =>
          simp only [LooksAt, target?, decoded] at shares
          exact instruction.execute_beside shares

end Dialect

namespace Machine

/-- The positions that a cycle looks at: the one it fetches from and those of the
instruction there. -/
def LooksAt (dialect : Dialect) (machine : Machine) (position : Position) :
    Prop :=
  position = machine.pointer ∨
    ∃ cell, machine.field.cell? machine.pointer = some cell ∧
      dialect.LooksAt cell machine position

def target? (dialect : Dialect) (machine : Machine) : Option Position :=
  (machine.field.cell? machine.pointer).bind fun cell =>
    dialect.target? cell machine

/-- A cycle depends on nothing but the cells it looks at. -/
theorem cycle_beside (dialect : Dialect)
    (shares : machine.field.Shares (machine.LooksAt dialect)
      (machine.target? dialect) relation other) :
    (machine.cycle dialect).Related (Beside relation)
      ((machine.withField other).cycle dialect) := by
  have sameCell := shares.seen machine.pointer (.inl rfl)
  cases stored : machine.field.cell? machine.pointer with
  | none =>
      simp only [target?, stored, Option.bind_none] at shares
      simp only [cycle, withField, sameCell, stored]
      exact .fault _ ⟨shares.unchanged, rfl⟩
  | some cell =>
      simp only [target?, stored, Option.bind_some] at shares
      simp only [cycle, withField, sameCell, stored]
      apply Step.Related.report
      apply Step.Related.andThen
      · apply dialect.execute_beside
        apply shares.narrow
        intro position looks
        exact .inr ⟨cell, stored, looks⟩
      · intro state counterpart beside
        exact .ok beside.finish

end Machine

end Grid

end Esoteric
