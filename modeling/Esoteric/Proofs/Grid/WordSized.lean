import Esoteric.Machine
import Esoteric.Proofs.Arithmetic
import Esoteric.Proofs.Grid.Stack
import Esoteric.Proofs.Playfield.Access
import Esoteric.Proofs.Playfield.Load
import Esoteric.Proofs.Playfield.Search

namespace Esoteric

theorem isWord_character (character : Char) :
    IsWord (character.toNat : Int) := by
  have bound : character.toNat < 0x110000 := by
    rcases character.valid with low | ⟨_, high⟩
    · exact Nat.lt_trans low (by decide)
    · exact high
  unfold IsWord
  omega

theorem Input.isWord_next (input : Input) : IsWord input.next := by
  unfold next
  split
  · decide
  · exact isWord_character _

namespace Playfield

variable {field : Playfield} {position : Position} {value : Int}

/-- All cells hold words, and around them words are read. -/
structure HoldsWords (field : Playfield) : Prop where
  cells : ∀ position value, field.cell? position = some value → IsWord value
  filler : ∀ filler, field.edge = .silent filler → IsWord filler

theorem HoldsWords.read (holds : field.HoldsWords)
    (result : field.read position = .ok value) : IsWord value := by
  unfold Playfield.read at result
  split at result
  · rename_i stored
    cases result
    exact holds.cells position value stored
  · rename_i silent
    cases result
    exact holds.filler value silent
  · contradiction

theorem HoldsWords.set (holds : field.HoldsWords)
    (stored : field.contains position = true) (word : IsWord value) :
    (field.set position value).HoldsWords := by
  refine ⟨?_, ?_⟩
  · intro place present found
    rw [cell?_set stored] at found
    split at found
    · cases found
      exact word
    · exact holds.cells place present found
  · intro filler silent
    rw [set_edge] at silent
    exact holds.filler filler silent

theorem holdsWords_ofLines (lines : List (List Char)) (width : Int)
    {edge : Edge} (words : ∀ filler, edge = .silent filler → IsWord filler) :
    (ofLines lines width ' ' edge).HoldsWords := by
  refine ⟨?_, words⟩
  rintro ⟨x | x, y | y⟩ value found
  · rw [cell?_ofLines] at found
    obtain ⟨line, _, laid⟩ := Option.bind_eq_some_iff.1 found
    have member := List.mem_of_getElem? laid
    simp only [layRow, List.mem_append, List.mem_map, List.mem_replicate]
      at member
    rcases member with ⟨character, _, rfl⟩ | ⟨_, rfl⟩
    · exact isWord_character character
    · exact isWord_character ' '
  all_goals contradiction

end Playfield

namespace Grid

open Run

variable {machine : Machine} {position : Position} {value : Int}

/-- The digits that can be written have one place. -/
theorem Befunge.Instruction.isWord_digit {c : Char} {digit : Nat}
    (written : ofChar? c = some (.digit digit)) : IsWord digit := by
  unfold ofChar? at written
  split at written
  all_goals cases written <;> decide

namespace Machine

/-- Words only, on the stack and on the playfield. -/
structure HoldsWords (machine : Machine) : Prop where
  stack : ∀ value ∈ machine.stack, IsWord value
  field : machine.field.HoldsWords

namespace HoldsWords

theorem push (holds : machine.HoldsWords) (word : IsWord value) :
    (machine.push value).HoldsWords :=
  ⟨List.forall_mem_cons.2 ⟨word, holds.stack⟩, holds.field⟩

theorem consume (holds : machine.HoldsWords) (count : Nat) :
    (machine.consume count).HoldsWords :=
  ⟨fun value member => holds.stack value (List.mem_of_mem_drop member),
    holds.field⟩

theorem operand (holds : machine.HoldsWords) (depth : Nat) :
    IsWord (machine.operand depth) := by
  rw [Machine.operand, List.getD_eq_getElem?_getD]
  cases found : machine.stack[depth]? with
  | none => decide
  | some value => exact holds.stack value (List.mem_of_getElem? found)

theorem load (holds : machine.HoldsWords) {use : Int → Step Machine}
    (uses : ∀ value, IsWord value → (use value).state.HoldsWords) :
    (machine.load position use).state.HoldsWords := by
  unfold Machine.load
  split
  · rename_i value result
    exact uses value (holds.field.read result)
  · exact holds

theorem store (holds : machine.HoldsWords) (word : IsWord value) :
    (machine.store position value).state.HoldsWords := by
  unfold Machine.store Playfield.write
  cases stored : machine.field.cell? position with
  | some present =>
      have within := Playfield.contains_of_cell? stored
      exact ⟨holds.stack, holds.field.set within word⟩
  | none =>
      cases machine.field.edge with
      | strict => exact holds
      | silent filler => exact holds

theorem executeText (holds : machine.HoldsWords) :
    (Befunge.Instruction.executeText machine).state.HoldsWords := by
  unfold Befunge.Instruction.executeText
  extract_lets start ahead text stop reached
  have read : reached.HoldsWords := by
    refine ⟨?_, holds.field⟩
    intro value member
    rcases List.mem_append.1 member with inText | below
    · have met : value ∈ ahead :=
        List.takeWhile_subset _ (List.mem_reverse.1 inText)
      obtain ⟨position, stored⟩ := Playfield.exists_cell?_of_mem_ray met
      exact holds.field.cells position value stored
    · exact holds.stack value below
  split
  · exact read
  · exact read

theorem execute (holds : machine.HoldsWords)
    {instruction : Befunge.Instruction}
    (written : ∃ c, Befunge.Instruction.ofChar? c = some instruction) :
    (instruction.execute machine).state.HoldsWords := by
  have one : IsWord 1 := by decide
  have zero : IsWord 0 := by decide
  cases instruction with
  | head direction => exact ⟨holds.stack, holds.field⟩
  | wander =>
      simp only [Befunge.Instruction.execute]
      split
      · exact ⟨holds.stack, holds.field⟩
      · exact ⟨holds.stack, holds.field⟩
  | branchAcross | branchAlong =>
      obtain ⟨stack, field⟩ := holds.consume 1
      exact ⟨stack, field⟩
  | readText => exact holds.executeText
  | bridge => exact ⟨holds.stack, holds.field⟩
  | halt => exact holds
  | duplicate =>
      apply push
      · exact (holds.consume 1).push (holds.operand 0)
      · exact holds.operand 0
  | swap =>
      apply push
      · exact (holds.consume 2).push (holds.operand 0)
      · exact holds.operand 1
  | discard => exact holds.consume 1
  | digit value =>
      obtain ⟨c, written⟩ := written
      exact holds.push (Befunge.Instruction.isWord_digit written)
  | compute operator =>
      simp only [Befunge.Instruction.execute]
      split
      · exact (holds.consume 2).push (isWord_signedWord _)
      · exact holds.consume 2
  | invert =>
      apply (holds.consume 1).push
      split
      · exact one
      · exact zero
  | put =>
      by_cases enough : 3 ≤ machine.stack.length
      · rw [Befunge.Instruction.execute_put enough]
        exact (holds.consume 3).store (holds.operand 2)
      · have short := Nat.lt_of_not_le enough
        rw [Befunge.Instruction.execute_put_of_short short]
        exact holds
  | get =>
      by_cases enough : 2 ≤ machine.stack.length
      · rw [Befunge.Instruction.execute_get enough]
        apply (holds.consume 2).load
        intro value word
        exact (holds.consume 2).push word
      · have short := Nat.lt_of_not_le enough
        rw [Befunge.Instruction.execute_get_of_short short]
        exact holds
  | showNumber =>
      obtain ⟨stack, field⟩ := holds.consume 1
      rw [Befunge.Instruction.execute, printNumber]
      split
      · exact ⟨stack, field⟩
      · exact ⟨stack, field⟩
  | showCharacter =>
      obtain ⟨stack, field⟩ := holds.consume 1
      exact ⟨stack, field⟩
  | askNumber | askCharacter =>
      obtain ⟨stack, field⟩ := holds.push machine.input.isWord_next
      exact ⟨stack, field⟩

theorem cycle (holds : machine.HoldsWords) :
    (machine.cycle .befunge).state.HoldsWords := by
  apply cycle_of_invariant .befunge holds
  · intro cell stored
    simp only [Dialect.execute]
    split
    · rename_i decoded
      exact holds.execute ⟨symbol cell, decoded⟩
    · exact holds
  · intro reached words
    exact ⟨words.stack, words.field⟩

end HoldsWords

/-- On a playfield that is loaded from words, and read as words outside of it, a
program makes nothing but words, and leaves nothing else when it fails. -/
theorem wordSized_run (width : Int) (edge : Option Edge) (input : Input)
    (chance : Chance) (count : Nat)
    (words : ∀ filler, edge = some (.silent filler) → IsWord filler) :
    (∀ source, (after (cycle .befunge) count
      { ofSource .befunge source width edge with
        input, chance }).HoldsWords) ∧
    ∀ lines, (after (cycle .befunge) count
      { field := .ofLines lines width ' '
          (edge.getD (Dialect.standardEdge .befunge))
        input, chance }).HoldsWords := by
  have given : ∀ filler,
      edge.getD (Dialect.standardEdge .befunge) = .silent filler →
        IsWord filler := by
    intro filler silent
    cases edge with
    | none =>
        cases silent
        decide
    | some edge => exact words filler (congrArg some silent)
  have loaded : ∀ lines, (after (cycle .befunge) count
      { field := .ofLines lines width ' '
          (edge.getD (Dialect.standardEdge .befunge))
        input, chance }).HoldsWords := by
    intro lines
    apply after_of_invariant fun _ => HoldsWords.cycle
    exact ⟨nofun, Playfield.holdsWords_ofLines lines width given⟩
  exact ⟨fun source => loaded (Lines.split source), loaded⟩

theorem wordSized_run_of_square :
    let edge := some (.silent 0x7FFFFFFF)
    (∀ filler, edge = some (.silent filler) → IsWord filler) ∧
      (after (cycle .befunge) 9
        { ofSource .befunge "88g:*00p@".toList 9 edge with
          input := .empty, chance := default }).HoldsWords := by
  intro edge
  have words : ∀ filler, edge = some (.silent filler) → IsWord filler := by
    intro filler silent
    have same : 0x7FFFFFFF = filler := Edge.silent.inj (Option.some.inj silent)
    subst same
    decide
  obtain ⟨loaded, _⟩ := wordSized_run 9 edge .empty default 9 words
  exact ⟨words, loaded "88g:*00p@".toList⟩

end Machine

end Grid

end Esoteric
