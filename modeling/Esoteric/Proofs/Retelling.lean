import Esoteric.Launch
import Esoteric.Proofs.Session

/-! A run takes no notice of what has been reported, nor of what is kept of it. -/

namespace Esoteric

def Turn.map (change : Session → Session) : Turn → Turn
  | ended ending session => ended ending (change session)
  | going session => going (change session)

namespace Session

/-- A change of the reports of a session, made now or later. -/
structure Retells (change : Session → Session) : Prop where
  replaces : ∀ session machine,
    change { session with machine } = { change session with machine }
  records : ∀ session diagnostic,
    (change session).record diagnostic = change (session.record diagnostic)

namespace Retells

variable {change : Session → Session}

theorem machine (retells : Retells change) (session : Session) :
    (change session).machine = session.machine := by
  have replaced : change session =
      { change session with machine := session.machine } :=
    retells.replaces session session.machine
  rw [replaced]

theorem recordAll (retells : Retells change) (session : Session)
    (diagnostics : List Diagnostic) :
    (change session).recordAll diagnostics =
      change (session.recordAll diagnostics) := by
  induction diagnostics generalizing session with
  | nil => rfl
  | cons diagnostic diagnostics induction =>
      rw [Session.recordAll, List.foldl_cons, retells.records]
      exact induction (session.record diagnostic)

theorem after (retells : Retells change) (session : Session)
    (step : Step Machine) :
    (change session).after step = change (session.after step) := by
  rw [Session.after, ← retells.replaces, retells.recordAll]
  rfl

theorem fail (retells : Retells change) (session : Session) (cause : Fault) :
    (change session).fail cause = (session.fail cause).map change := by
  rw [Session.fail, retells.machine, retells.recordAll]
  rfl

theorem turn (retells : Retells change) (limit : Option Int)
    (session : Session) :
    (change session).turn limit = (session.turn limit).map change := by
  have sameSpent : (change session).spent? limit = session.spent? limit := by
    rw [spent?, spent?, retells.machine]
  simp only [Session.turn, cycle_eq, sameSpent, retells.machine, retells.after]
  split
  · rfl
  · cases session.spent? limit with
    | some limit => exact retells.fail session _
    | none =>
        cases session.machine.cycle.outcome with
        | ok | quit | astray => rfl
        | fault cause => exact retells.fail _ cause

theorem run (retells : Retells change) (limit : Option Int) (fuel : Nat)
    (session : Session) :
    (change session).run limit fuel =
      (session.run limit fuel).map fun (ending, reached) =>
        (ending, change reached) := by
  induction fuel generalizing session with
  | zero => rfl
  | succ fuel induction =>
      rw [Session.run, Session.run, retells.turn]
      cases session.turn limit with
      | ended ending reached => rfl
      | going reached => exact induction reached

end Retells

def precededBy (earlier : Array Diagnostic) (session : Session) : Session :=
  { session with diagnostics := earlier ++ session.diagnostics }

theorem retells_precededBy (earlier : Array Diagnostic) :
    Retells (precededBy earlier) where
  replaces _ _ := rfl
  records session diagnostic := by
    obtain ⟨machine, traced, diagnostics⟩ := session
    cases kept : traced || !diagnostic.isTrace with
    | true => simp [record, precededBy, kept]
    | false => simp [record, precededBy, kept]

end Session

end Esoteric
