import Esoteric.Proofs.Brainfuck.Simulation
import Esoteric.Proofs.Session

namespace Esoteric.Brainfuck

open Run

variable {text before after : List Char} {memory final : Memory}
  {state : Machine} {input : Input} {fuel : Nat} {reached : Session}

def begin (text : List Char) (input : Input) (traced : Bool) : Session where
  machine := .tape { program := text.toArray, input }
  traced := traced

theorem stands_begin (text : List Char) (input : Input) :
    Machine.Stands { program := text.toArray, input } [] text { input } where
  layout := rfl
  pointer := rfl
  contents := by
    ext index
    · rfl
    · exact Tape.read_blank index
    · rfl
    · rfl

theorem Machine.Stands.finished_iff (stands : state.Stands before after memory) :
    state.finished = true ↔ after = [] := by
  have size : state.program.size = before.length + after.length := by
    rw [← Array.length_toList, stands.layout, List.length_append]
  rw [Machine.finished, decide_eq_true_eq, stands.pointer, size]
  constructor
  · intro reachesEnd
    exact List.eq_nil_of_length_eq_zero (by omega)
  · rintro rfl
    simp

theorem ending_of_balanced (balanced : Balanced text) {traced : Bool}
    {ending : Ending}
    (result : (begin text input traced).run none fuel = some (ending, reached)) :
    ending = .finished := by
  let safe (machine : Esoteric.Machine) : Prop :=
    ∃ state before after memory, machine = .tape state ∧
      state.Stands before after memory ∧ before ++ after = text
  have progress : ∀ machine, safe machine → machine.finished = false →
      machine.cycle.outcome = .ok ∧ safe machine.cycle.state := by
    rintro _ ⟨state, before, after, memory, rfl, stands, rfl⟩ unfinished
    cases after with
    | nil =>
        have finished := stands.finished_iff.2 rfl
        exact absurd (finished.symm.trans unfinished) (by decide)
    | cons c after =>
        obtain ⟨start, finish, arrived, proceeds, same⟩ :=
          stands.proceeds_of_balanced balanced
        exact ⟨proceeds.1, state.cycle.state, start, finish, arrived, rfl,
          proceeds.2, same⟩
  exact Session.ending_of_safe progress
    ⟨_, [], text, { input }, rfl, stands_begin text input, rfl⟩ result

theorem exists_run_of_evaluates {block : Block} (spelled : block.SpelledBy text)
    (evaluates : block.Evaluates { input } final) (traced : Bool) :
    ∃ fuel reached state,
      (begin text input traced).run none fuel = some (.finished, reached) ∧
        reached.machine = .tape state ∧ state.Stands text [] final := by
  have stands : Machine.Stands { program := text.toArray, input } []
      (text ++ []) { input } := by
    rw [List.append_nil]
    exact stands_begin text input
  obtain ⟨count, state, run, arrives⟩ := evaluates.carries.start spelled stands
  have whole : Reaches Esoteric.Machine.cycle count
      (begin text input traced).machine (.tape state) :=
    Machine.reaches_tape_iff.2 ⟨state, rfl, run⟩
  obtain ⟨reached, result, ends⟩ :=
    Session.run_of_reaches whole (arrives.finished_iff.2 rfl)
  exact ⟨count + 1, reached, state, result, ends, arrives⟩

theorem exists_reaches_of_run {traced : Bool}
    (result : (begin text input traced).run none fuel =
      some (.finished, reached)) :
    ∃ state count, reached.machine = .tape state ∧
      Reaches Machine.cycle count { program := text.toArray, input } state ∧
      state.cycle.outcome ≠ .ok := by
  obtain ⟨finished, count, whole⟩ := Session.reaches_of_run result
  obtain ⟨state, ends, run⟩ := Machine.reaches_tape_iff.1 whole
  rw [ends] at finished
  refine ⟨state, count, ends, run, ?_⟩
  rw [Machine.cycle_of_finished finished]
  exact nofun

theorem exists_evaluates_of_run {block : Block} (spelled : block.SpelledBy text)
    {traced : Bool}
    (result : (begin text input traced).run none fuel =
      some (.finished, reached)) :
    ∃ final state, block.Evaluates { input } final ∧
      reached.machine = .tape state ∧ state.Stands text [] final := by
  obtain ⟨state, count, ends, run, stops⟩ := exists_reaches_of_run result
  have stands : Machine.Stands { program := text.toArray, input } []
      (text ++ []) { input } := by
    rw [List.append_nil]
    exact stands_begin text input
  obtain ⟨final, evaluates⟩ :=
    (Block.completes_of_reaches run stops).start spelled stands
  obtain ⟨late, arrived, _, rest, arrives⟩ :=
    (evaluates.carries.start spelled stands).remaining run stops
  cases rest with
  | refl => exact ⟨final, state, evaluates, ends, arrives⟩
  | step succeeds _ =>
      rw [Machine.cycle_of_finished (arrives.finished_iff.2 rfl)] at succeeds
      contradiction

/-- A program whose brackets match does what its blocks and loops say. -/
theorem run_refines_evaluation (text : List Char) (balanced : Balanced text)
    (input : Input) (traced : Bool) :
    ∃ block, Block.parse text = some block ∧
      block.commands = text.filterMap Command.ofChar? ∧
      (∀ fuel ending reached,
        (begin text input traced).run none fuel = some (ending, reached) →
          ending = .finished) ∧
      ((∃ fuel reached,
        (begin text input traced).run none fuel = some (.finished, reached)) ↔
          ∃ final, block.Evaluates { input } final) ∧
      ∀ fuel reached final,
        (begin text input traced).run none fuel = some (.finished, reached) →
          block.Evaluates { input } final →
            ∃ state, reached.machine = .tape state ∧
              state.pointer = text.length ∧ state.contents = final := by
  obtain ⟨block, parsed⟩ := Block.exists_parse balanced
  have spelled := Block.spelledBy_of_parse parsed
  refine ⟨block, parsed, spelled.symm, ?_, ⟨?_, ?_⟩, ?_⟩
  · intro fuel ending reached result
    exact ending_of_balanced balanced result
  · rintro ⟨fuel, reached, result⟩
    obtain ⟨final, _, evaluates, _⟩ := exists_evaluates_of_run spelled result
    exact ⟨final, evaluates⟩
  · rintro ⟨final, evaluates⟩
    obtain ⟨fuel, reached, _, result, _⟩ :=
      exists_run_of_evaluates spelled evaluates traced
    exact ⟨fuel, reached, result⟩
  · intro fuel reached final result evaluates
    obtain ⟨other, state, otherEvaluates, ends, stands⟩ :=
      exists_evaluates_of_run spelled result
    obtain rfl := evaluates.unique otherEvaluates
    exact ⟨state, ends, stands.pointer, stands.contents⟩

theorem run_of_nested_loops :
    let text := ['+', '[', '>', '+', '!', '[', '-', ']', '<', '-', ']']
    Balanced text ∧
      ∃ block fuel reached final, Block.parse text = some block ∧
        (begin text .empty false).run none fuel = some (.finished, reached) ∧
        block.Evaluates { input := .empty } final ∧
        ∃ state, reached.machine = .tape state ∧
          state.pointer = text.length ∧ state.contents = final := by
  intro text
  have balanced : Balanced text := by decide
  obtain ⟨block, parsed, _, _, finishes, agrees⟩ :=
    run_refines_evaluation text balanced .empty false
  have ends : ((begin text .empty false).run none 20).map Prod.fst =
      some .finished := by decide +kernel
  obtain ⟨⟨_, reached⟩, result, rfl⟩ := Option.map_eq_some_iff.1 ends
  obtain ⟨final, evaluates⟩ := finishes.1 ⟨20, reached, result⟩
  exact ⟨balanced, block, 20, reached, final, parsed, result, evaluates,
    agrees 20 reached final result evaluates⟩

end Esoteric.Brainfuck
