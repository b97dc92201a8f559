import Mathlib.Algebra.Group.Nat.Defs
import Esoteric.Step

/-! What can be put into words: all but the numbers with too many digits. -/

namespace Esoteric

namespace Numeral

variable {number : Int}

theorem short_iff : Short number ↔ number.natAbs < 10 ^ mostDigits :=
  Nat.length_toDigits_le_iff (b := 10) (by decide) (Nat.succ_pos 4299)

theorem short_of_lt (small : number.natAbs < 10 ^ 3) : Short number := by
  have few : 3 ≤ mostDigits := by decide
  rw [short_iff]
  generalize mostDigits = most at few
  exact Nat.lt_of_lt_of_le small (Nat.pow_le_pow_right (Nat.succ_pos 9) few)

theorem not_short_pow : ¬ Short (10 ^ mostDigits : Nat) := by
  rw [short_iff, Int.natAbs_natCast]
  exact Nat.lt_irrefl _

end Numeral

open Numeral

namespace Position

variable {position : Position}

def numbers (position : Position) : List Int :=
  [position.x, position.y]

def render (position : Position) : String :=
  "(" ++ toString position.x ++ ", " ++ toString position.y ++ ")"

theorem render?_of_short (short : ∀ number ∈ position.numbers, Short number) :
    position.render? = some position.render := by
  rw [render?, show?_of_short (short _ (by simp [numbers])),
    show?_of_short (short _ (by simp [numbers]))]
  simp [assemble?, render, String.append_assoc]

@[simp] theorem render?_eq_none_iff :
    position.render? = none ↔ ∃ number ∈ position.numbers, ¬ Short number := by
  simp [render?, numbers, show?_eq_none_iff]

end Position

namespace Fault

def numbers : Fault → List Int
  | readOutside position | writeOutside position | pointerOutside position
  | unterminatedString position => position.numbers
  | noLanding target position => target :: position.numbers
  | longNumber number => [number]
  | cycleLimit limit => [limit]
  | _ => []

/-- A number that is met on the way is too long, if it is a fault at all. -/
def Proper (cause : Fault) : Prop :=
  ∀ number, cause = .longNumber number → ¬ Short number

theorem message?_eq_none_iff {cause : Fault} (proper : cause.Proper) :
    cause.message? = none ↔ ∃ number ∈ cause.numbers, ¬ Short number := by
  cases cause with
  | longNumber number => simp [message?, numbers, proper number rfl]
  | _ =>
      simp [message?, numbers, show?_eq_none_iff]

end Fault

theorem Fault.raised_eq_failure_iff {cause : Fault} {message : String} :
    cause.raised = .failure message ↔ cause.message? = some message := by
  rw [raised]
  split <;> simp [*]

theorem Fault.raised_eq_overlong_iff {cause : Fault} :
    cause.raised = .overlong ↔ cause.message? = none := by
  rw [raised]
  split <;> simp [*]

theorem Fault.raised_of_long {cause : Fault}
    (long : ∃ number ∈ cause.numbers, ¬ Short number) :
    cause.raised = .overlong := by
  rw [raised_eq_overlong_iff]
  by_cases proper : cause.Proper
  · exact (message?_eq_none_iff proper).2 long
  · cases cause with
    | longNumber number => rfl
    | _ => exact absurd nofun proper

theorem Fault.raised_noLanding {target : Int} {position : Position}
    (short : ∀ number ∈ target :: position.numbers, Short number) :
    (noLanding target position).raised =
      .failure ("jump found no " ++ toString target ++
        " before leaving the grid at " ++ position.render) := by
  obtain ⟨head, tail⟩ := List.forall_mem_cons.1 short
  rw [raised, message?, show?_of_short head, Position.render?_of_short tail]
  simp [assemble?, String.append_assoc]

theorem Outcome.raised?_iff {State : Type} {outcome : Outcome}
    {fails : Fault → State → Prop}
    (faults : ∀ cause, outcome = .fault cause ↔ ∃ left, fails cause left)
    (proper : ∀ cause left, fails cause left → cause.Proper) :
    (∀ message, outcome.raised? = some (.failure message) ↔
      ∃ cause left, fails cause left ∧ cause.message? = some message) ∧
      (outcome.raised? = some .overlong ↔
        ∃ cause left, fails cause left ∧
          ∃ number ∈ cause.numbers, ¬ Short number) := by
  constructor
  · intro message
    constructor
    · intro raises
      cases outcome with
      | fault cause =>
          obtain ⟨left, reason⟩ := (faults cause).1 rfl
          exact ⟨cause, left, reason,
            Fault.raised_eq_failure_iff.1 (Option.some.inj raises)⟩
      | ok | quit | astray => cases raises
    · rintro ⟨cause, left, reason, told⟩
      rw [(faults cause).2 ⟨left, reason⟩, raised?,
        Fault.raised_eq_failure_iff.2 told]
  · constructor
    · intro raises
      cases outcome with
      | fault cause =>
          obtain ⟨left, reason⟩ := (faults cause).1 rfl
          have untold := Fault.raised_eq_overlong_iff.1 (Option.some.inj raises)
          exact ⟨cause, left, reason,
            (Fault.message?_eq_none_iff (proper _ _ reason)).1 untold⟩
      | ok | quit | astray => cases raises
    · rintro ⟨cause, left, reason, long⟩
      have untold := (Fault.message?_eq_none_iff (proper _ _ reason)).2 long
      rw [(faults cause).2 ⟨left, reason⟩, raised?,
        Fault.raised_eq_overlong_iff.2 untold]

namespace Diagnostic

def numbers : Diagnostic → List Int
  | fetched position cell _ stack => position.numbers ++ cell :: stack.take 8
  | dropped value position => value :: position.numbers
  | stopped position cycles => (cycles : Int) :: position.numbers
  | commanded pointer _ head cell => [pointer, head, cell]
  | sourceExpected | failed _ => []

theorem renderCell?_eq_none_iff {cell : Int} :
    renderCell? cell = none ↔ ¬ Short cell := by
  rw [renderCell?, glyph?]
  split
  · rename_i c shown
    rw [Option.ite_none_right_eq_some] at shown
    have short : Short cell := short_of_lt (by omega)
    simp [short]
  · exact show?_eq_none_iff

theorem renderStack?_eq_none_iff {stack : List Int} :
    renderStack? stack = none ↔ ∃ number ∈ stack.take 8, ¬ Short number := by
  have listed (values : List Int) :
      assemble? ((values.map show?).intersperse (some ", ") ++ [some "]"]) = none ↔
        ∃ number ∈ values, ¬ Short number := by
    induction values with
    | nil => simp
    | cons value values induction =>
        cases values with
        | nil => simp [show?_eq_none_iff]
        | cons next values =>
            rw [List.map_cons] at induction
            rw [List.map_cons, List.map_cons, List.intersperse_cons_cons,
              List.cons_append, List.cons_append,
              assemble?_cons_eq_none_iff, assemble?_cons_eq_none_iff, induction]
            simp [show?_eq_none_iff]
  rw [renderStack?, List.cons_append, assemble?_cons_eq_none_iff, listed]
  simp

theorem text?_eq_none_iff {diagnostic : Diagnostic} :
    diagnostic.text? = none ↔ ∃ number ∈ diagnostic.numbers, ¬ Short number := by
  cases diagnostic with
  | sourceExpected | failed message => simp [text?, numbers]
  | fetched position cell heading stack =>
      simp [text?, numbers, renderCell?_eq_none_iff, renderStack?_eq_none_iff,
        or_and_right, exists_or]
  | dropped value position =>
      simp [text?, numbers, show?_eq_none_iff]
  | stopped position cycles =>
      simp [text?, numbers, show?_eq_none_iff, or_comm]
  | commanded pointer command head cell =>
      simp [text?, numbers, show?_eq_none_iff]

theorem exists_text?_iff {diagnostic : Diagnostic} :
    (∃ text, diagnostic.text? = some text) ↔
      ∀ number ∈ diagnostic.numbers, Short number := by
  rw [← Option.ne_none_iff_exists', Ne, text?_eq_none_iff]
  simp only [not_exists, not_and, Decidable.not_not]

end Diagnostic

end Esoteric
