import Esoteric.Proofs.Budget
import Esoteric.Proofs.Grid.Befunge.Text
import Esoteric.Proofs.Grid.Straight
import Esoteric.Proofs.Playfield.Load
import Esoteric.Proofs.Text.LineEnd

/-! Programs of one line that print a text: they quote it, and show what they have
quoted. -/

namespace Esoteric

theorem Playfield.spells_ofText {text : List Char} (filled : text ≠ [])
    (inside : '\n' ∉ text) (trimmed : Lines.trimEnd text = text) {width : Int}
    (fits : text.length ≤ width) (filler : Char) (edge : Edge) :
    (ofText text width filler edge).Spells .origin .right text := by
  obtain ⟨columns, rfl⟩ :=
    Int.eq_ofNat_of_zero_le (Int.le_trans (Int.natCast_nonneg _) fits)
  intro index bound
  have place : Position.origin.moved .right index =
      ⟨.ofNat index, .ofNat 0⟩ := by
    simp [Position.moved, Position.origin, Direction.dx, Direction.dy]
  have column : index < columns := by omega
  rw [place, ofText, Lines.split_of_newline_not_mem filled inside, cell?_ofLines,
    List.getElem?_cons_zero, Option.bind_some, getElem?_layRow, if_pos column,
    trimmed, List.getElem?_eq_getElem bound, Option.getD_some]

theorem lowByte_character {c : Char} (byte : c.toNat < 0x100) :
    lowByte (c.toNat : Int) = c := by
  have kept : (c.toNat : Int) % 0x100 = c.toNat := by omega
  rw [lowByte, kept, Int.toNat_natCast, Char.ofNat_toNat]

namespace Grid.Befunge

open Run

variable {machine : Machine} {text : List Char} {below : List Int}
  {c : Char}

def quoted (text : List Char) : List Char :=
  '"' :: (text ++ ['"'])

/-- The text is quoted from its end, so that its first character comes to lie on
top of the stack. -/
def printCode (text : List Char) : List Char :=
  quoted text.reverse ++ (List.replicate text.length ',' ++ ['@'])

theorem newline_not_mem_printCode (unbroken : '\n' ∉ text) :
    '\n' ∉ printCode text := by
  simp [printCode, quoted, unbroken]

theorem trimEnd_printCode (text : List Char) :
    Lines.trimEnd (printCode text) = printCode text := by
  rw [printCode, ← List.append_assoc]
  exact Lines.trimEnd_append_of_ordinary _ rfl

def codes (text : List Char) : List Int :=
  text.map fun c => (c.toNat : Int)

theorem quote_not_mem_codes (unquoted : '"' ∉ text) : quote ∉ codes text := by
  intro member
  obtain ⟨c, among, same⟩ := List.mem_map.1 member
  have code : c.toNat = ('"').toNat := Int.ofNat_inj.1 same
  rw [Char.toNat_inj.1 code] at among
  exact unquoted among

theorem textAhead_of_spells
    (spells : machine.field.Spells machine.pointer machine.heading (quoted text))
    (unquoted : '"' ∉ text) : Instruction.textAhead machine = codes text := by
  have passed : ∀ cell ∈ codes text, decide (cell ≠ quote) = true := by
    intro cell member
    exact decide_eq_true (ne_of_mem_of_not_mem member
      (quote_not_mem_codes unquoted))
  rw [Instruction.textAhead, spells.cons.2.ray_eq, List.map_append,
    List.append_assoc, ← codes, List.takeWhile_append_of_pos passed,
    List.map_singleton, List.singleton_append,
    List.takeWhile_cons_of_neg (by decide), List.append_nil]

theorem length_quoted (text : List Char) :
    (quoted text).length = (codes text).length + 2 := by
  rw [quoted, codes, List.length_cons, List.length_append, List.length_map]
  rfl

theorem cycle_of_quoted
    (spells : machine.field.Spells machine.pointer machine.heading (quoted text))
    (unquoted : '"' ∉ text) :
    (machine.cycle .befunge).outcome = .ok ∧
      (machine.cycle .befunge).state =
        { machine with
          pointer := machine.pointer.moved machine.heading (quoted text).length
          stack := (codes text).reverse ++ machine.stack
          cycles := machine.cycles + 1 } := by
  have ahead := textAhead_of_spells spells unquoted
  have length : ('"' :: text).length =
      (Instruction.textAhead machine).length + 1 := by
    rw [ahead, codes, List.length_map, List.length_cons]
  have closed : machine.field.cell? (machine.pointer.moved machine.heading
      ((Instruction.textAhead machine).length + 1)) = some quote := by
    rw [quoted, ← List.cons_append] at spells
    rw [← length]
    exact spells.append.2.head
  have reads := cycle_of_read .readText spells.cons.1 rfl
    (Instruction.executeText_of_quote closed)
  rw [Machine.finish, Machine.advance, Position.advance_moved, ahead] at reads
  rw [length_quoted]
  exact reads

def shown (text : List Char) (below : List Int) (machine : Machine) : Machine :=
  { machine.along text.length below with
    output := machine.output ++ String.ofList text }

theorem shown_cons (c : Char) (text : List Char) (middle below : List Int)
    (machine : Machine) :
    shown text below (shown [c] middle machine) =
      shown (c :: text) below machine := by
  have whole : c :: text = [c] ++ text := rfl
  rw [whole]
  simp only [shown, Machine.along, Position.moved_moved, String.ofList_append,
    String.append_assoc, List.length_append, Nat.add_assoc]

theorem cycle_of_comma (holds : machine.Holds ',')
    (operand : machine.stack = (c.toNat : Int) :: below)
    (byte : c.toNat < 0x100) :
    (machine.cycle .befunge).outcome = .ok ∧
      (machine.cycle .befunge).state = shown [c] below machine := by
  have shows : Instruction.showCharacter.execute machine =
      .ok { machine with
        stack := below
        output := machine.output ++ c.toString } := by
    simp only [Instruction.execute, Machine.operand, Machine.consume, operand,
      List.getD_cons_zero, lowByte_character byte]
    rfl
  rw [shown, Machine.along, List.length_singleton, Position.moved_one,
    ← String.singleton_eq_ofList]
  exact cycle_of_read .showCharacter holds rfl shows

theorem reaches_shown (bytes : ∀ c ∈ text, c.toNat < 0x100)
    (spells : machine.field.Spells machine.pointer machine.heading
      (List.replicate text.length ','))
    (operands : machine.stack = codes text ++ below) :
    Reaches (Machine.cycle .befunge) text.length machine
      (shown text below machine) := by
  induction text generalizing machine with
  | nil =>
      have same : shown [] below machine = machine := by
        rw [shown, Machine.along, ← show machine.stack = below from operands,
          List.length_nil, Position.moved_zero, String.ofList_nil,
          String.append_empty]
        rfl
      rw [same]
      exact .refl
  | cons c text induction =>
      obtain ⟨byte, others⟩ := List.forall_mem_cons.1 bytes
      obtain ⟨comma, commas⟩ := spells.cons
      have operand : machine.stack = (c.toNat : Int) :: (codes text ++ below) :=
        operands
      obtain ⟨succeeds, leaves⟩ := cycle_of_comma comma operand byte
      rw [← Position.moved_one] at commas
      refine .step succeeds ?_
      rw [leaves, ← shown_cons c text (codes text ++ below)]
      exact induction others commas rfl

/-- The code of a text prints it, wherever it lies and whatever is on the stack. -/
theorem reaches_printed (bytes : ∀ c ∈ text, c.toNat < 0x100)
    (unquoted : '"' ∉ text)
    (spells : machine.field.Spells machine.pointer machine.heading
      (printCode text)) :
    ∃ final : Machine,
      Reaches (Machine.cycle .befunge) (text.length + 1) machine final ∧
        final.Holds '@' ∧
        final =
          { machine with
            pointer := final.pointer
            output := machine.output ++ String.ofList text
            cycles := machine.cycles + 1 + text.length } := by
  obtain ⟨quotes, remaining⟩ := spells.append
  obtain ⟨commas, halts⟩ := remaining.append
  rw [← List.mem_reverse] at unquoted
  obtain ⟨succeeds, leaves⟩ := cycle_of_quoted quotes unquoted
  have operands : (machine.cycle .befunge).state.stack =
      codes text ++ machine.stack := by
    rw [leaves, codes, List.map_reverse, List.reverse_reverse]
    rfl
  refine ⟨shown text machine.stack (machine.cycle .befunge).state,
    .step succeeds (reaches_shown bytes ?_ operands), ?_, ?_⟩
  · rw [leaves]
    exact commas
  · rw [leaves]
    rw [List.length_replicate] at halts
    exact halts.head
  · rw [leaves]
    rfl

/-- A program that prints a text, loaded from a single line, quits with the text as
its output, and leaves nothing but that. -/
theorem run_of_printCode (text : List Char) (width : Int) (edge : Option Edge)
    (input : Input) (chance : Chance) (traced : Bool)
    (plain : ∀ c ∈ text, c.toNat < 0x100 ∧ c ≠ '\n' ∧ c ≠ '"')
    (fits : (printCode text).length ≤ width) :
    let start : Machine :=
      { Machine.ofSource .befunge (printCode text) width edge with
        input, chance }
    ∃ final : Machine,
      Session.Leaves none { machine := .grid .befunge start, traced } .quit
          (.grid .befunge final) ∧
        final.output = String.ofList text ∧ final.stack = [] ∧
        final.field = start.field ∧ final.input = input ∧
        final.cycles = text.length + 1 := by
  intro start
  have bytes : ∀ c ∈ text, c.toNat < 0x100 := fun c among => (plain c among).1
  have unquoted : '"' ∉ text := fun among => (plain _ among).2.2 rfl
  have unbroken : '\n' ∉ text := fun among => (plain _ among).2.1 rfl
  have spells : start.field.Spells start.pointer start.heading
      (printCode text) := by
    apply Playfield.spells_ofText
    · exact List.cons_ne_nil _ _
    · exact newline_not_mem_printCode unbroken
    · exact trimEnd_printCode text
    · exact fits
  obtain ⟨final, run, halts, equation⟩ := reaches_printed bytes unquoted spells
  have quits : Esoteric.Machine.Stops none (.grid .befunge final) .quit
      (.grid .befunge (final.cycle .befunge).state) :=
    .cycle rfl nofun (congrArg Outcome.ending? (outcome_of_halt halts))
  rw [state_of_halt halts] at quits
  refine ⟨final, Session.leaves_of_iterates
    (.of_reaches (Esoteric.Machine.reaches_grid run) (.stop quits)), ?_⟩
  rw [equation]
  refine ⟨?_, rfl, rfl, rfl, ?_⟩
  · exact String.empty_append
  · exact Nat.add_comm 1 text.length

theorem run_of_printCode_of_instructions :
    let text := ['@', '\r', ',', 'ÿ']
    let start : Machine :=
      { Machine.ofSource .befunge (printCode text) 11 (some .strict) with
        input := .ofText ['7'] }
    (∀ c ∈ text, c.toNat < 0x100 ∧ c ≠ '\n' ∧ c ≠ '"') ∧
      ((printCode text).length : Int) ≤ 11 ∧
      ∃ final : Machine,
        Session.Leaves none { machine := .grid .befunge start } .quit
            (.grid .befunge final) ∧
          final.output = "@\r,ÿ" ∧ final.stack = [] ∧
          final.field = start.field ∧ final.input = .ofText ['7'] ∧
          final.cycles = 5 := by
  intro text start
  have plain : ∀ c ∈ text, c.toNat < 0x100 ∧ c ≠ '\n' ∧ c ≠ '"' := by
    simp [text]
  have fits : ((printCode text).length : Int) ≤ 11 := by decide
  exact ⟨plain, fits, run_of_printCode text 11 (some .strict) (.ofText ['7'])
    default false plain fits⟩

end Grid.Befunge

end Esoteric
