import Esoteric.Diagnostic

/-! Texts that are shown within one line. -/

theorem List.forall_mem_intersperse {α : Type} {holds : α → Prop}
    {separator : α} (apart : holds separator) {parts : List α}
    (all : ∀ part ∈ parts, holds part) :
    ∀ part ∈ parts.intersperse separator, holds part := by
  induction parts with
  | nil => exact all
  | cons part parts induction =>
      obtain ⟨head, tail⟩ := List.forall_mem_cons.1 all
      cases parts with
      | nil => exact all
      | cons next parts =>
          rw [List.intersperse_cons_cons, List.forall_mem_cons,
            List.forall_mem_cons]
          exact ⟨head, apart, induction tail⟩

namespace Esoteric

def SingleLine (text : String) : Prop :=
  '\n' ∉ text.toList

instance (text : String) : Decidable (SingleLine text) :=
  inferInstanceAs (Decidable ('\n' ∉ text.toList))

namespace SingleLine

theorem append {first second : String} (start : SingleLine first)
    (rest : SingleLine second) : SingleLine (first ++ second) := by
  rw [SingleLine, String.toList_append, List.mem_append]
  rintro (member | member)
  · exact start member
  · exact rest member

theorem repr_nat (number : Nat) : SingleLine number.repr := by
  rw [SingleLine, Nat.repr_eq_ofList_toDigits, String.toList_ofList]
  intro member
  have digit := Nat.isDigit_of_mem_toDigits (by decide) (by decide) member
  exact absurd digit (by decide)

theorem toString_int (number : Int) : SingleLine (toString number) := by
  rw [Int.toString_eq_repr]
  cases number with
  | ofNat number => exact repr_nat number
  | negSucc number =>
      exact append (by decide : SingleLine "-") (repr_nat (number + 1))

end SingleLine

/-- Words in one line, or none. -/
def WithinLine (words : Option String) : Prop :=
  ∀ text, words = some text → SingleLine text

namespace WithinLine

theorem some {text : String} (single : SingleLine text) : WithinLine (some text) := by
  rintro _ ⟨⟩
  exact single

theorem show? (number : Int) : WithinLine (Numeral.show? number) := by
  intro text shown
  obtain ⟨_, rfl⟩ := Numeral.show?_eq_some_iff.1 shown
  exact .toString_int number

theorem assemble? {parts : List (Option String)}
    (legible : ∀ part ∈ parts, WithinLine part) : WithinLine (assemble? parts) := by
  induction parts with
  | nil => exact .some (by decide)
  | cons part parts induction =>
      obtain ⟨head, tail⟩ := List.forall_mem_cons.1 legible
      intro text assembled
      obtain ⟨start, rest, first, later, rfl⟩ :=
        assemble?_cons_eq_some_iff.1 assembled
      exact (head start first).append (induction tail rest later)

end WithinLine

namespace Quoted

theorem digitChar_ne_newline (number : Nat) :
    Nat.digitChar (number % 16) ≠ '\n' := by
  have small : number % 16 < 16 := Nat.mod_lt _ (by decide)
  generalize number % 16 = digit at small
  decide +revert

theorem newline_not_mem_hexadecimal (digits number : Nat) :
    '\n' ∉ hexadecimal digits number := by
  induction digits generalizing number with
  | zero => exact List.not_mem_nil
  | succ digits induction =>
      rw [hexadecimal, List.mem_append, List.mem_singleton]
      rintro (member | same)
      · exact induction _ member
      · exact digitChar_ne_newline number same.symm

theorem newline_not_mem_escape {mark : Char} (quotes : mark ≠ '\n') (c : Char) :
    '\n' ∉ escape mark c := by
  rw [escape]
  split
  · rename_i special
    have other : c ≠ '\n' := by
      rcases special with rfl | rfl
      · exact quotes
      · decide
    simp [other.symm]
  split
  · decide
  rename_i other
  split
  · decide
  split
  · decide
  split
  · exact fun same => other (List.mem_singleton.1 same).symm
  split
  · simp [newline_not_mem_hexadecimal]
  split
  · simp [newline_not_mem_hexadecimal]
  · simp [newline_not_mem_hexadecimal]

theorem encode_singleLine (text : List Char) : SingleLine (encode text) := by
  have quotes : mark text ≠ '\n' := by
    rw [mark]
    split <;> decide
  rw [SingleLine, encode, String.toList_ofList]
  rw [List.mem_append, List.mem_cons, List.mem_flatMap, List.mem_singleton]
  rintro ((same | ⟨c, _, inside⟩) | same)
  · exact quotes same.symm
  · exact newline_not_mem_escape quotes c inside
  · exact quotes same.symm

end Quoted

theorem Position.render?_withinLine (position : Position) :
    WithinLine position.render? := by
  refine .assemble? ?_
  simp only [List.forall_mem_cons]
  exact ⟨.some (by decide), .show? _, .some (by decide), .show? _,
    .some (by decide), nofun⟩

theorem Direction.name_singleLine (direction : Direction) :
    SingleLine direction.name := by
  cases direction <;> decide

def Fault.Legible (cause : Fault) : Prop :=
  WithinLine cause.message?

/-- Messages hold nothing from outside but the name of an operation. -/
theorem Fault.legible_of_named {cause : Fault}
    (named : ∀ operation, cause = .shortage operation → SingleLine operation) :
    cause.Legible := by
  have places {start : String} (single : SingleLine start) (position : Position) :
      WithinLine (assemble? [some start, position.render?]) := by
    refine .assemble? ?_
    simp only [List.forall_mem_cons]
    exact ⟨.some single, position.render?_withinLine, nofun⟩
  cases cause with
  | readOutside position | writeOutside position | pointerOutside position
  | unterminatedString position => exact places (by decide) position
  | noLanding target position =>
      refine .assemble? ?_
      simp only [List.forall_mem_cons]
      exact ⟨.some (by decide), .show? _, .some (by decide),
        position.render?_withinLine, nofun⟩
  | longNumber number => exact nofun
  | divisionByZero | moduloByZero | unmatchedOpening | unmatchedClosing =>
      exact .some (by decide)
  | shortage operation =>
      have rest : SingleLine ": not enough elements in the stack" := by decide
      exact .some ((named operation rfl).append rest)
  | cycleLimit limit =>
      refine .assemble? ?_
      simp only [List.forall_mem_cons]
      exact ⟨.some (by decide), .show? _, .some (by decide), nofun⟩

namespace Diagnostic

theorem renderCell?_withinLine (cell : Int) : WithinLine (renderCell? cell) := by
  rw [renderCell?]
  split
  · exact .some (Quoted.encode_singleLine _)
  · exact .show? cell

theorem renderStack?_withinLine (stack : List Int) :
    WithinLine (renderStack? stack) := by
  have between : WithinLine (some ", ") := .some (by decide)
  refine .assemble? ?_
  rw [List.forall_mem_append, List.forall_mem_cons, List.forall_mem_singleton]
  refine ⟨⟨.some (by decide), List.forall_mem_intersperse between ?_⟩,
    .some (by decide)⟩
  rw [List.forall_mem_map]
  exact fun value _ => .show? value

def Legible (diagnostic : Diagnostic) : Prop :=
  WithinLine diagnostic.text?

theorem legible_sourceExpected : Legible .sourceExpected :=
  .some (by decide)

theorem legible_failed {message : String} (single : SingleLine message) :
    Legible (.failed message) := by
  have start : SingleLine "ERR: " := by decide
  exact .some (start.append single)

theorem legible_of_isTrace {diagnostic : Diagnostic}
    (traces : diagnostic.isTrace = true) : diagnostic.Legible := by
  cases diagnostic with
  | sourceExpected | failed message => contradiction
  | fetched position cell heading stack =>
      refine .assemble? ?_
      simp only [List.forall_mem_cons]
      exact ⟨.some (by decide), position.render?_withinLine, .some (by decide),
        renderCell?_withinLine cell, .some (by decide),
        .some heading.name_singleLine, .some (by decide),
        renderStack?_withinLine stack, nofun⟩
  | dropped value position =>
      refine .assemble? ?_
      simp only [List.forall_mem_cons]
      exact ⟨.some (by decide), .show? _, .some (by decide),
        position.render?_withinLine, nofun⟩
  | stopped position cycles =>
      refine .assemble? ?_
      simp only [List.forall_mem_cons]
      exact ⟨.some (by decide), position.render?_withinLine, .some (by decide),
        .show? _, .some (by decide), nofun⟩
  | commanded pointer command head cell =>
      refine .assemble? ?_
      simp only [List.forall_mem_cons]
      exact ⟨.some (by decide), .show? _, .some (by decide),
        .some (Quoted.encode_singleLine _), .some (by decide), .show? _,
        .some (by decide), .show? _, nofun⟩

end Diagnostic

end Esoteric
