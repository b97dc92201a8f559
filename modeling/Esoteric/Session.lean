import Esoteric.Machine

namespace Esoteric

structure Session where
  machine : Machine
  traced : Bool := false
  diagnostics : Array Diagnostic := #[]

inductive Ending where
  | finished
  | quit
  | failed (cause : Fault)
  | astray
deriving DecidableEq, Repr

inductive Turn where
  | ended (ending : Ending) (session : Session)
  | going (session : Session)

namespace Session

/-- Keeps a diagnostic, unless it belongs to a trace that is not wanted. -/
def record (session : Session) (diagnostic : Diagnostic) : Session :=
  if session.traced || !diagnostic.isTrace then
    { session with diagnostics := session.diagnostics.push diagnostic }
  else
    session

def recordAll (session : Session) (diagnostics : List Diagnostic) : Session :=
  diagnostics.foldl record session

def after (session : Session) (step : Step Machine) : Session :=
  { session with machine := step.state }.recordAll step.diagnostics

def cycle : Session → Outcome × Session
  | { machine, traced, diagnostics } =>
      -- The session lets go of its machine, so that the step can reuse it.
      let step := machine.cycle
      let reached : Session := { machine := step.state, traced, diagnostics }
      (step.outcome, reached.recordAll step.diagnostics)

theorem cycle_eq (session : Session) :
    session.cycle =
      (session.machine.cycle.outcome, session.after session.machine.cycle) := rfl

def fail (session : Session) (cause : Fault) : Turn :=
  .ended (.failed cause)
    (session.recordAll (session.machine.failReport cause))

def spent? (limit : Option Int) (session : Session) : Option Int :=
  limit.filter fun (limit : Int) => limit ≤ session.machine.cycles

/-- The limit is on all cycles of the machine and is tested before each. -/
def turn (limit : Option Int) (session : Session) : Turn :=
  if session.machine.finished then
    .ended .finished session
  else
    match session.spent? limit with
    | some limit => session.fail (.cycleLimit limit)
    | none =>
        match session.cycle with
        | (.ok, reached) => .going reached
        | (.quit, reached) => .ended .quit reached
        | (.fault cause, reached) => reached.fail cause
        | (.astray, reached) => .ended .astray reached

/-- Runs to the end, or to nothing when the fuel does not last. -/
def run (limit : Option Int) : (fuel : Nat) → Session → Option (Ending × Session)
  | 0, _ => none
  | fuel + 1, session =>
      match session.turn limit with
      | .ended ending reached => some (ending, reached)
      | .going reached => reached.run limit fuel

end Session

end Esoteric
