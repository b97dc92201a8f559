namespace Esoteric

inductive Access (Place : Type) where
  | read (place : Place)
  | write (place : Place) (value : Int)
deriving DecidableEq, Repr

namespace Access

variable {Place : Type}

def target? : Access Place → Option Place
  | read _ => none
  | write place _ => some place

def targets (history : List (Access Place)) : List Place :=
  history.filterMap target?

theorem targets_concat (history : List (Access Place)) (access : Access Place) :
    targets (history ++ [access]) =
      targets history ++ access.target?.toList := by
  rw [targets, List.filterMap_append]
  cases access <;> rfl

section

variable [DecidableEq Place]

def written? (place : Place) : Access Place → Option Int
  | read _ => none
  | write other value => if other = place then some value else none

def lastWritten? (place : Place) (history : List (Access Place)) : Option Int :=
  (history.filterMap (written? place)).getLast?

theorem lastWritten?_concat (place : Place) (history : List (Access Place))
    (access : Access Place) :
    lastWritten? place (history ++ [access]) =
      (access.written? place).or (lastWritten? place history) := by
  rw [lastWritten?, List.filterMap_append]
  cases given : access.written? place with
  | none => simp [given, lastWritten?]
  | some value => simp [given]

end

end Access

end Esoteric
