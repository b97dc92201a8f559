import Esoteric.Brainfuck.Machine
import Esoteric.Proofs.Brainfuck.Evaluation
import Esoteric.Proofs.Run
import Esoteric.Proofs.Tape

namespace Esoteric.Brainfuck

variable {machine reached : Machine} {memory arrived : Memory} {c : Char}
  {before after inner start finish : List Char}

namespace Machine

def contents (machine : Machine) : Memory where
  head := machine.head
  cells := machine.tape.read
  input := machine.input
  output := machine.output

theorem contents_setCell (machine : Machine) (value : Int) :
    (machine.setCell value).contents = machine.contents.setCell value := by
  ext index
  · rfl
  · exact Tape.read_write ..
  · rfl
  · rfl

theorem execute_action (machine : Machine) (action : Action) :
    ∃ reached, machine.execute action.command = .ok reached ∧
      reached.program = machine.program ∧
      reached.pointer = machine.pointer + 1 ∧
      reached.contents = machine.contents.perform action := by
  cases action with
  | right => exact ⟨_, rfl, rfl, rfl, rfl⟩
  | left => exact ⟨_, rfl, rfl, rfl, rfl⟩
  | output => exact ⟨_, rfl, rfl, rfl, rfl⟩
  | increment =>
      exact ⟨_, rfl, rfl, rfl, machine.contents_setCell (machine.cell + 1)⟩
  | decrement =>
      exact ⟨_, rfl, rfl, rfl, machine.contents_setCell (machine.cell - 1)⟩
  | input =>
      refine ⟨_, rfl, rfl, rfl, ?_⟩
      have stored := machine.contents_setCell machine.input.next
      exact congrArg (fun memory : Memory =>
        { memory with input := machine.input.rest }) stored

/-- The machine is about to execute the text after, with the text before it
behind it. -/
structure Stands (machine : Machine) (before after : List Char)
    (memory : Memory) : Prop where
  layout : machine.program.toList = before ++ after
  pointer : machine.pointer = before.length
  contents : machine.contents = memory

def Proceeds (machine : Machine) (before after : List Char)
    (memory : Memory) : Prop :=
  machine.cycle.outcome = .ok ∧ machine.cycle.state.Stands before after memory

namespace Stands

theorem character? (stands : machine.Stands before (c :: after) memory) :
    machine.program.character? machine.pointer = some c := by
  rw [stands.pointer, Program.character?_eq, stands.layout]
  simp

theorem cell (stands : machine.Stands before after memory) :
    machine.cell = memory.cell := by
  rw [← stands.contents]
  rfl

theorem next (stands : machine.Stands before (c :: after) memory) :
    machine.next.Stands (before ++ [c]) after memory where
  layout := by
    rw [List.append_assoc]
    exact stands.layout
  pointer := by simp [Machine.next, stands.pointer]
  contents := stands.contents

theorem comment (stands : machine.Stands before (c :: after) memory)
    (isComment : Command.ofChar? c = none) :
    machine.Proceeds (before ++ [c]) after memory := by
  rw [Proceeds, Machine.cycle, stands.character?]
  simp only [isComment]
  obtain ⟨layout, pointer, contents⟩ := stands.next
  exact ⟨rfl, layout, pointer, contents⟩

theorem proceeds (stands : machine.Stands before (c :: after) memory)
    {command : Command} (decoded : Command.ofChar? c = some command)
    (executed : machine.execute command = .ok reached)
    (arrives : reached.Stands start finish arrived) :
    machine.Proceeds start finish arrived := by
  rw [Proceeds, Machine.cycle, stands.character?]
  simp only [decoded, executed]
  exact ⟨rfl, arrives.layout, arrives.pointer, arrives.contents⟩

theorem act (stands : machine.Stands before (c :: after) memory)
    {action : Action} (isAction : Command.ofChar? c = some action.command) :
    machine.Proceeds (before ++ [c]) after (memory.perform action) := by
  obtain ⟨reached, executed, program, pointer, contents⟩ :=
    machine.execute_action action
  apply stands.proceeds isAction executed
  obtain ⟨nextLayout, nextPointer, _⟩ := stands.next
  refine ⟨?_, ?_, ?_⟩
  · rw [program]
    exact nextLayout
  · rw [pointer]
    exact nextPointer
  · rw [contents, stands.contents]

theorem skip (stands : machine.Stands before ('[' :: inner ++ ']' :: after) memory)
    (balanced : Balanced inner) (zero : memory.cell = 0) :
    machine.Proceeds (before ++ '[' :: inner ++ [']']) after memory := by
  have layout : machine.program.toList =
      before ++ '[' :: inner ++ ']' :: after := by
    rw [stands.layout, List.append_assoc]
  have target : machine.program.closing? 0 (machine.pointer + 1) =
      some ((before.length + 1 + inner.length : Nat) : Int) := by
    rw [stands.pointer, ← Int.natCast_succ]
    exact Program.closing?_of_layout layout balanced
  apply stands.proceeds (Command.ofChar?_eq_opening.2 rfl)
  · rw [Machine.execute, Machine.enterLoop, stands.cell, if_pos zero, target]
  · refine ⟨by simpa using layout, ?_, stands.contents⟩
    simp only [List.length_append, List.length_cons, List.length_nil]
    omega

theorem enter (stands : machine.Stands before ('[' :: after) memory)
    (nonzero : memory.cell ≠ 0) :
    machine.Proceeds (before ++ ['[']) after memory := by
  apply stands.proceeds (Command.ofChar?_eq_opening.2 rfl) ?_ stands.next
  rw [Machine.execute, Machine.enterLoop, stands.cell, if_neg nonzero]

theorem leave (stands : machine.Stands before (']' :: after) memory)
    (zero : memory.cell = 0) :
    machine.Proceeds (before ++ [']']) after memory := by
  apply stands.proceeds (Command.ofChar?_eq_closing.2 rfl) ?_ stands.next
  rw [Machine.execute, Machine.repeatLoop, stands.cell, if_pos zero]

theorem again
    (stands : machine.Stands (before ++ '[' :: inner) (']' :: after) memory)
    (balanced : Balanced inner) (nonzero : memory.cell ≠ 0) :
    machine.Proceeds before ('[' :: inner ++ ']' :: after) memory := by
  have length : (before ++ '[' :: inner).length =
      before.length + 1 + inner.length := by
    rw [List.length_append, List.length_cons]
    omega
  have target : machine.program.opening? 0 machine.pointer.toNat =
      some before.length := by
    rw [stands.pointer, Int.toNat_natCast, length]
    exact Program.opening?_of_layout stands.layout balanced
  apply stands.proceeds (Command.ofChar?_eq_closing.2 rfl)
  · rw [Machine.execute, Machine.repeatLoop, stands.cell, if_neg nonzero, target]
  · refine ⟨?_, rfl, stands.contents⟩
    rw [← List.append_assoc]
    exact stands.layout

theorem proceeds_of_balanced
    (stands : machine.Stands before (c :: after) memory)
    (balanced : Balanced (before ++ c :: after)) :
    ∃ start finish arrived, machine.Proceeds start finish arrived ∧
      start ++ finish = before ++ c :: after := by
  cases decoded : Command.ofChar? c with
  | none =>
      exact ⟨_, _, _, stands.comment decoded, (List.append_cons ..).symm⟩
  | some command =>
      obtain rfl | rfl | ⟨action, rfl⟩ := command.eq_bracket_or_action
      · obtain rfl := Command.ofChar?_eq_opening.1 decoded
        obtain ⟨inner, later, rfl, matched⟩ := balanced.exists_closing
        by_cases zero : memory.cell = 0
        · exact ⟨_, _, _, stands.skip matched zero, by simp⟩
        · exact ⟨_, _, _, stands.enter zero, by simp⟩
      · obtain rfl := Command.ofChar?_eq_closing.1 decoded
        obtain ⟨start, inner, rfl, matched⟩ := balanced.exists_opening
        by_cases zero : memory.cell = 0
        · exact ⟨_, _, _, stands.leave zero, by simp⟩
        · exact ⟨_, _, _, stands.again matched zero, by simp⟩
      · exact ⟨_, _, _, stands.act decoded, (List.append_cons ..).symm⟩

end Stands

end Machine

end Esoteric.Brainfuck
