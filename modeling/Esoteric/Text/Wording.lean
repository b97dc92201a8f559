import Esoteric.Text.Numeral

namespace Esoteric

namespace Numeral

def Short (number : Int) : Prop :=
  (Nat.toDigits 10 number.natAbs).length ≤ mostDigits

instance (number : Int) : Decidable (Short number) :=
  inferInstanceAs (Decidable (_ ≤ _))

def show? (number : Int) : Option String :=
  if Short number then some (toString number) else none

theorem show?_of_short {number : Int} (short : Short number) :
    show? number = some (toString number) :=
  if_pos short

theorem show?_eq_some_iff {number : Int} {text : String} :
    show? number = some text ↔ Short number ∧ toString number = text := by
  rw [show?]
  split <;> simp [*]

theorem show?_eq_none_iff {number : Int} :
    show? number = none ↔ ¬ Short number := by
  rw [show?]
  split <;> simp [*]

end Numeral

/-- A text of several parts, which is wanting where one of them is. -/
def assemble? : (parts : List (Option String)) → Option String
  | [] => some ""
  | part :: parts => do
      let start ← part
      let rest ← assemble? parts
      return start ++ rest

@[simp] theorem assemble?_nil : assemble? [] = some "" := rfl

@[simp] theorem assemble?_cons_eq_none_iff {part : Option String}
    {parts : List (Option String)} :
    assemble? (part :: parts) = none ↔ part = none ∨ assemble? parts = none := by
  rw [assemble?]
  cases part with
  | none => simp
  | some start => cases assemble? parts <;> simp

theorem assemble?_cons_eq_some_iff {part : Option String}
    {parts : List (Option String)} {text : String} :
    assemble? (part :: parts) = some text ↔
      ∃ start rest, part = some start ∧ assemble? parts = some rest ∧
        start ++ rest = text := by
  rw [assemble?]
  cases part with
  | none => simp
  | some start => cases assemble? parts <;> simp

end Esoteric
