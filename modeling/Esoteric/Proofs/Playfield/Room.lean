import Mathlib.Data.List.Induction
import Esoteric.Machine

/-! When a host has room for the rows of a playfield. -/

namespace Esoteric

namespace Playfield

variable {room : List Nat → Bool} {width : Int} {lines later : List (List Char)}
  {line : List Char} {cause : Excess} {filler : Char} {edge : Edge}
  {field : Playfield}

/-- The number of cells with which a row is filled up behind its line. -/
def shortfall (width : Int) (line : List Char) : Int :=
  width - (cut width (Lines.trimEnd line)).length

def Countable (number : Int) : Prop :=
  -0x8000000000000000 ≤ number ∧ number < 0x8000000000000000

instance (number : Int) : Decidable (Countable number) :=
  inferInstanceAs (Decidable (_ ∧ _))

def lengths (width : Int) (lines : List (List Char)) : List Nat :=
  (lines.map fun line => (layRow width ' ' line).length).reverse

inductive Fits (room : List Nat → Bool) (width : Int) :
    List (List Char) → Prop
  | nil : Fits room width []
  | concat {lines : List (List Char)} {line : List Char}
      (fits : Fits room width lines)
      (countable : Countable (shortfall width line))
      (stored : room (lengths width (lines ++ [line])) = true) :
      Fits room width (lines ++ [line])

/-- What there are no means for in the first row that does not fit. -/
inductive Exceeds (room : List Nat → Bool) (width : Int)
    (lines : List (List Char)) : Excess → Prop
  | uncountable {earlier later : List (List Char)} {line : List Char}
      (whole : lines = earlier ++ line :: later)
      (fits : Fits room width earlier)
      (vast : ¬ Countable (shortfall width line)) :
      Exceeds room width lines .uncountable
  | unstorable {earlier later : List (List Char)} {line : List Char}
      (whole : lines = earlier ++ line :: later)
      (fits : Fits room width earlier)
      (countable : Countable (shortfall width line))
      (full : room (lengths width (earlier ++ [line])) = false) :
      Exceeds room width lines .unstorable

theorem Exceeds.append (exceeds : Exceeds room width lines cause)
    (later : List (List Char)) : Exceeds room width (lines ++ later) cause := by
  cases exceeds with
  | uncountable whole fits vast =>
      rw [whole, List.append_assoc]
      exact .uncountable rfl fits vast
  | unstorable whole fits countable full =>
      rw [whole, List.append_assoc]
      exact .unstorable rfl fits countable full

theorem fits_or_exceeds (room : List Nat → Bool) (width : Int)
    (lines : List (List Char)) :
    Fits room width lines ∨ ∃ cause, Exceeds room width lines cause := by
  induction lines using List.reverseRecOn with
  | nil => exact .inl .nil
  | append_singleton lines line induction =>
      obtain fits | ⟨cause, exceeds⟩ := induction
      · by_cases countable : Countable (shortfall width line)
        · cases stored : room (lengths width (lines ++ [line])) with
          | true => exact .inl (.concat fits countable stored)
          | false => exact .inr ⟨_, .unstorable rfl fits countable stored⟩
        · exact .inr ⟨_, .uncountable rfl fits countable⟩
      · exact .inr ⟨cause, exceeds.append [line]⟩

theorem lengths_concat (width : Int) (lines : List (List Char))
    (line : List Char) :
    lengths width (lines ++ [line]) =
      ((cut width (Lines.trimEnd line)).length +
        (shortfall width line).toNat) :: lengths width lines := by
  simp only [lengths, List.map_append, List.map_cons, List.map_nil,
    List.reverse_append, List.reverse_singleton, List.singleton_append, layRow,
    List.length_append, List.length_map, List.length_replicate, shortfall]

theorem excess?_cons (room : List Nat → Bool) (width : Int)
    (lines : List (List Char)) (line : List Char) (later : List (List Char)) :
    excess? room width (lengths width lines) (line :: later) =
      if Countable (shortfall width line) then
        if room (lengths width (lines ++ [line])) then
          excess? room width (lengths width (lines ++ [line])) later
        else
          some .unstorable
      else
        some .uncountable := by
  rw [lengths_concat, excess?, ← shortfall]
  by_cases countable : Countable (shortfall width line)
  · rw [if_pos countable, if_neg]
    rw [Countable] at countable
    omega
  · rw [if_neg countable, if_pos]
    rw [Countable] at countable
    omega

theorem Fits.excess? (fits : Fits room width lines) (later : List (List Char)) :
    excess? room width [] (lines ++ later) =
      Playfield.excess? room width (lengths width lines) later := by
  induction fits generalizing later with
  | nil => rfl
  | concat _ countable stored induction =>
      rw [List.append_assoc, List.singleton_append, induction, excess?_cons,
        if_pos countable, if_pos stored]

theorem Exceeds.excess? (exceeds : Exceeds room width lines cause) :
    excess? room width [] lines = some cause := by
  cases exceeds with
  | uncountable whole fits vast =>
      rw [whole, fits.excess?, excess?_cons, if_neg vast]
  | unstorable whole fits countable full =>
      rw [whole, fits.excess?, excess?_cons, if_pos countable, full]
      rfl

theorem excess?_eq_none_iff :
    excess? room width [] lines = none ↔ Fits room width lines := by
  constructor
  · intro none
    obtain fits | ⟨cause, exceeds⟩ := fits_or_exceeds room width lines
    · exact fits
    · exact nomatch none.symm.trans exceeds.excess?
  · intro fits
    have whole := fits.excess? []
    rwa [List.append_nil] at whole

theorem excess?_eq_some_iff :
    excess? room width [] lines = some cause ↔
      Exceeds room width lines cause := by
  constructor
  · intro some
    obtain fits | ⟨other, exceeds⟩ := fits_or_exceeds room width lines
    · exact nomatch some.symm.trans (excess?_eq_none_iff.2 fits)
    · cases some.symm.trans exceeds.excess?
      exact exceeds
  · exact Exceeds.excess?

/-- A host with room for all rows has them laid out, and no other host does. -/
theorem load_eq_ok_iff :
    load room lines width filler edge = .ok field ↔
      Fits room width lines ∧ field = ofLines lines width filler edge := by
  rw [load, ← excess?_eq_none_iff]
  cases excess? room width [] lines with
  | none => simp [eq_comm]
  | some cause => simp

theorem load_eq_error_iff :
    load room lines width filler edge = .error cause ↔
      Exceeds room width lines cause := by
  rw [load, ← excess?_eq_some_iff]
  cases excess? room width [] lines with
  | none => simp
  | some other => simp

theorem excess?_congr {others : List (List Char)}
    (same : lines.map Lines.trimEnd = others.map Lines.trimEnd)
    (room : List Nat → Bool) (width : Int) (stored : List Nat) :
    excess? room width stored lines = excess? room width stored others := by
  induction lines generalizing others stored with
  | nil =>
      obtain rfl := List.map_eq_nil_iff.1 same.symm
      rfl
  | cons line lines induction =>
      obtain ⟨other, others, rfl, head, tail⟩ :=
        List.map_eq_cons_iff.1 same.symm
      simp only [excess?, ← head, induction tail.symm]

end Playfield

namespace Machine

variable {room : List Nat → Bool} {lines : List (List Char)} {width : Int}
  {cause : Excess}

theorem loadRows_of_fits (fits : Playfield.Fits room width lines)
    (dialect : Grid.Dialect) (edge : Option Edge) :
    loadRows room dialect lines width edge =
      .ok (grid dialect
        { field := .ofLines lines width ' '
            (edge.getD dialect.standardEdge) }) := by
  rw [loadRows, Playfield.load_eq_ok_iff.2 ⟨fits, rfl⟩]
  rfl

theorem loadRows_of_exceeds (exceeds : Playfield.Exceeds room width lines cause)
    (dialect : Grid.Dialect) (edge : Option Edge) :
    loadRows room dialect lines width edge = .error cause := by
  rw [loadRows, Playfield.load_eq_error_iff.2 exceeds]
  rfl

end Machine

end Esoteric
