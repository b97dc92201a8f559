import Esoteric.Proofs.Brainfuck.StructuredRun
import Esoteric.Proofs.Budget
import Esoteric.Proofs.Tape.History

/-! Programs without loops, input and output: what they come to is told by
counting. -/

namespace Esoteric.Brainfuck

open Run

variable {text before later : List Char} {c : Char} {machine : Machine}
  {input : Input} {turn : Nat}

/-- How far to the right a text moves the head. -/
def drift (text : List Char) : Int :=
  text.count '>' - text.count '<'

/-- The characters of a text, each with the index at which the head meets it. -/
def trail (text : List Char) : List (Char × Int) :=
  text.mapIdx fun place c => (c, drift (text.take place))

/-- How often more a text adds one at an index than it takes one away. -/
def net (text : List Char) (index : Int) : Int :=
  (trail text).count ('+', index) - (trail text).count ('-', index)

def altered (text : List Char) : List Int :=
  (trail text).filterMap fun (c, index) =>
    if c = '+' ∨ c = '-' then some index else none

def shift (c : Char) : Int :=
  if c = '>' then 1 else if c = '<' then -1 else 0

def gain (c : Char) : Int :=
  if c = '+' then 1 else if c = '-' then -1 else 0

theorem drift_concat (text : List Char) (c : Char) :
    drift (text ++ [c]) = drift text + shift c := by
  simp only [drift, shift, List.count_append, List.count_singleton, beq_iff_eq]
  by_cases right : c = '>'
  · subst right
    simp
    omega
  · simp only [if_neg right]
    split <;> omega

theorem trail_concat (text : List Char) (c : Char) :
    trail (text ++ [c]) = trail text ++ [(c, drift text)] := by
  rw [trail, List.mapIdx_concat, List.take_left]
  congr 1
  rw [trail, List.mapIdx_eq_mapIdx_iff]
  intro place inside
  rw [List.take_append_of_le_length (Nat.le_of_lt inside)]

theorem net_concat (text : List Char) (c : Char) (index : Int) :
    net (text ++ [c]) index =
      net text index + if index = drift text then gain c else 0 := by
  simp only [net, gain, trail_concat, List.count_append, List.count_singleton,
    beq_iff_eq, Prod.mk.injEq]
  by_cases here : index = drift text
  · subst here
    by_cases adds : c = '+'
    · subst adds
      simp
      omega
    · simp [adds]
      split <;> omega
  · simp [here, Ne.symm here]

theorem altered_concat (text : List Char) (c : Char) :
    altered (text ++ [c]) =
      altered text ++ if c = '+' ∨ c = '-' then [drift text] else [] := by
  rw [altered, trail_concat, List.filterMap_append]
  congr 1
  split
  · rename_i alters
    simp [alters]
  · rename_i alters
    simp [alters]

theorem altered_eq_nil_iff : altered text = [] ↔ '+' ∉ text ∧ '-' ∉ text := by
  induction text using List.reverseRecOn with
  | nil => simp [altered, trail]
  | append_singleton text c induction =>
      rw [altered_concat, List.append_eq_nil_iff, induction]
      simp only [List.mem_append, List.mem_singleton, ite_eq_right_iff,
        List.cons_ne_nil]
      grind

/-- The memory that a text comes to, without regard to the order in which it goes
about it. -/
def tally (text : List Char) (input : Input) : Memory where
  head := drift text
  cells := fun index => signedByte (net text index)
  input := input

theorem tally_nil (input : Input) : tally [] input = { input } := by
  simp [tally, drift, net, trail, signedByte]

theorem tally_move (idle : gain c = 0) (text : List Char) (input : Input) :
    { tally text input with head := drift text + shift c } =
      tally (text ++ [c]) input := by
  simp [tally, drift_concat, net_concat, idle]

theorem tally_setCell (still : shift c = 0) (text : List Char) (input : Input) :
    (tally text input).setCell ((tally text input).cell + gain c) =
      tally (text ++ [c]) input := by
  ext index
  · simp [Memory.setCell, tally, drift_concat, still]
  · by_cases here : index = drift text
    · -- The sum of a byte and a summand is cut down once for both.
      have folded : signedByte (signedByte (net text index) + gain c) =
          signedByte (net text index + gain c) := Int.bmod_add_bmod ..
      simp [Memory.setCell, Memory.cell, tally, net_concat, ← here, folded]
    · simp [Memory.setCell, tally, net_concat, here]
  · rfl
  · rfl

theorem Command.cases_of_straight (straight : c ∉ ['.', ',', '[', ']']) :
    c = '>' ∨ c = '<' ∨ c = '+' ∨ c = '-' ∨
      ofChar? c = none ∧ c ∉ ['>', '<', '+', '-'] := by
  unfold ofChar?
  split <;> simp_all

namespace Machine

theorem Stands.tallies
    (stands : machine.Stands before (c :: later) (tally before input))
    (straight : c ∉ ['.', ',', '[', ']']) :
    machine.Proceeds (before ++ [c]) later (tally (before ++ [c]) input) := by
  obtain rfl | rfl | rfl | rfl | ⟨ignored, comment⟩ :=
    Command.cases_of_straight straight
  · rw [← tally_move rfl]
    have decoded : Command.ofChar? '>' = some Action.right.command := rfl
    exact stands.act decoded
  · rw [← tally_move rfl]
    have decoded : Command.ofChar? '<' = some Action.left.command := rfl
    exact stands.act decoded
  · rw [← tally_setCell rfl]
    have decoded : Command.ofChar? '+' = some Action.increment.command := rfl
    exact stands.act decoded
  · rw [← tally_setCell rfl]
    have decoded : Command.ofChar? '-' = some Action.decrement.command := rfl
    exact stands.act decoded
  · have still : shift c = 0 := by simp_all [shift]
    have idle : gain c = 0 := by simp_all [gain]
    rw [← tally_move idle, still, Int.add_zero]
    exact stands.comment ignored

theorem size_cycle (found : machine.program.character? machine.pointer = some c)
    (straight : c ∉ ['.', ',', '[', ']']) :
    machine.cycle.state.tape.cells.size =
      if c = '+' ∨ c = '-' then
        max machine.tape.cells.size (Tape.slot machine.head + 1)
      else machine.tape.cells.size := by
  rw [cycle, found]
  obtain rfl | rfl | rfl | rfl | ⟨ignored, comment⟩ :=
    Command.cases_of_straight straight
  · rfl
  · rfl
  · exact Tape.size_write ..
  · exact Tape.size_write ..
  · rw [if_neg (by simp_all)]
    simp only [ignored]
    rfl

/-- The machine has the text before it behind it, and has come to what counting
says of that text. -/
structure Tallies (machine : Machine) (before later : List Char)
    (input : Input) : Prop where
  stands : machine.Stands before later (tally before input)
  cycles : machine.cycles = before.length
  covers : Tape.Covers (altered before) machine.tape.cells.size

namespace Tallies

theorem start (text : List Char) (input : Input) :
    Tallies { program := text.toArray, input } [] text input where
  stands := by
    rw [tally_nil]
    exact stands_begin text input
  cycles := rfl
  covers := ⟨nofun, .inl rfl⟩

theorem head (tallies : machine.Tallies before later input) :
    machine.head = drift before :=
  congrArg Memory.head tallies.stands.contents

theorem step (tallies : machine.Tallies before (c :: later) input)
    (straight : c ∉ ['.', ',', '[', ']']) :
    machine.cycle.outcome = .ok ∧
      machine.cycle.state.Tallies (before ++ [c]) later input := by
  obtain ⟨succeeds, stands⟩ := tallies.stands.tallies straight
  refine ⟨succeeds, stands, ?_, ?_⟩
  · rw [machine.cycle_counted.ok succeeds, tallies.cycles, List.length_append]
    rfl
  · rw [size_cycle tallies.stands.character? straight, altered_concat]
    split
    · rw [tallies.head]
      exact tallies.covers.concat _
    · rw [List.append_nil]
      exact tallies.covers

end Tallies

def meets (machine : Machine) : Option (Char × Int) :=
  (machine.program.character? machine.pointer).map fun c => (c, machine.head)

theorem Tallies.meets (tallies : machine.Tallies before later input) :
    machine.meets = later.head?.map fun c => (c, drift before) := by
  rw [Machine.meets, tallies.head, tallies.stands.pointer,
    Program.character?_eq, tallies.stands.layout,
    List.getElem?_append_right (Nat.le_refl _), Nat.sub_self,
    List.head?_eq_getElem?]

theorem tallies_after (straight : ∀ c ∈ text, c ∉ ['.', ',', '[', ']'])
    (input : Input) {turn : Nat} (within : turn ≤ text.length) :
    let start : Machine := { program := text.toArray, input }
    Reaches cycle turn start (after cycle turn start) ∧
      (after cycle turn start).Tallies (text.take turn) (text.drop turn) input := by
  intro start
  induction turn with
  | zero => exact ⟨.refl, .start text input⟩
  | succ turn induction =>
      obtain ⟨run, tallies⟩ := induction (Nat.le_of_lt within)
      rw [List.drop_eq_getElem_cons within] at tallies
      obtain ⟨succeeds, next⟩ :=
        tallies.step (straight _ (List.getElem_mem within))
      rw [← List.take_succ_eq_append_getElem within] at next
      rw [after_succ]
      exact ⟨run.trans (.one succeeds), next⟩

end Machine

theorem getElem?_trail (text : List Char) (turn : Nat) :
    (trail text)[turn]? =
      (text.drop turn).head?.map fun c => (c, drift (text.take turn)) := by
  rw [trail, List.getElem?_mapIdx, List.head?_drop]

/-- A program without loops, input and output makes one cycle for each of its
characters. What it leaves at an index is what it adds there less what it takes
away, cut down once, and the tape reaches as far as it has added or taken away. -/
theorem run_of_straight (text : List Char)
    (straight : ∀ c ∈ text, c ∉ ['.', ',', '[', ']']) (input : Input)
    (traced : Bool) :
    let start : Machine := { program := text.toArray, input }
    (∀ turn ≤ text.length,
      (after Machine.cycle turn start).meets = (trail text)[turn]?) ∧
      ∃ final, (begin text input traced).Leaves none .finished (.tape final) ∧
        final.cycles = text.length ∧
        final.head = text.count '>' - text.count '<' ∧
        (∀ index, final.tape.read index =
          signedByte ((trail text).count ('+', index) -
            (trail text).count ('-', index))) ∧
        final.output = "" ∧ final.input = input ∧
        ('+' ∉ text → '-' ∉ text → final.tape.cells.size = 0) ∧
        ('+' ∈ text ∨ '-' ∈ text →
          ∃ top ∈ altered text,
            (∀ index ∈ altered text, Tape.slot index ≤ Tape.slot top) ∧
              final.tape.cells.size = Tape.slot top + 1) := by
  intro start
  refine ⟨?_, ?_⟩
  · intro turn within
    obtain ⟨_, tallies⟩ := Machine.tallies_after straight input within
    rw [tallies.meets, getElem?_trail]
  · obtain ⟨run, tallies⟩ :=
      Machine.tallies_after straight input (Nat.le_refl text.length)
    rw [List.take_length, List.drop_length] at tallies
    generalize after Machine.cycle text.length _ = final at run tallies
    have finished := tallies.stands.finished_iff.2 rfl
    have whole : Reaches Esoteric.Machine.cycle text.length
        (begin text input traced).machine (.tape final) :=
      Machine.reaches_tape_iff.2 ⟨final, rfl, run⟩
    have contents := tallies.stands.contents
    refine ⟨final, ?_, tallies.cycles, tallies.head, ?_, ?_, ?_, ?_, ?_⟩
    · apply Session.leaves_of_iterates
      exact .of_reaches whole (.stop (.finished finished))
    · intro index
      exact congrFun (congrArg Memory.cells contents) index
    · exact congrArg Memory.output contents
    · exact congrArg Memory.input contents
    · intro never neither
      have covers := tallies.covers
      rw [altered_eq_nil_iff.2 ⟨never, neither⟩] at covers
      simpa using covers.reached
    · intro alters
      apply tallies.covers.exists_top
      rw [Ne, altered_eq_nil_iff]
      grind

theorem run_of_straight_to_the_left :
    let text := ['-', '<', '+', '!', '+', '>', '-']
    (∀ c ∈ text, c ∉ ['.', ',', '[', ']']) ∧
      ∃ final, (begin text .empty false).Leaves none .finished (.tape final) ∧
        final.cycles = 7 ∧ final.head = 0 ∧ final.tape.read 0 = -2 ∧
        final.tape.read (-1) = 2 ∧ final.tape.cells.size = 2 := by
  intro text
  have straight : ∀ c ∈ text, c ∉ ['.', ',', '[', ']'] := by simp [text]
  have adds : '+' ∈ text := by simp [text]
  obtain ⟨_, final, leaves, cycles, head, cells, _, _, _, reaches⟩ :=
    run_of_straight text straight .empty false
  obtain ⟨top, among, highest, size⟩ := reaches (.inl adds)
  have above := highest (-1) (by decide)
  have within : ∀ index ∈ altered text, Tape.slot index ≤ Tape.slot (-1) := by
    decide
  refine ⟨straight, final, leaves, cycles, head, ?_, ?_, ?_⟩
  · rw [cells]
    decide
  · rw [cells]
    decide
  · rw [size, Nat.le_antisymm (within top among) above]
    rfl

end Esoteric.Brainfuck
