import Esoteric.Diagnostic

namespace Esoteric

/-- The outcomes of one cycle. A machine goes astray where there is nothing to
execute or a draw gives no direction. -/
inductive Outcome where
  | ok
  | quit
  | fault (cause : Fault)
  | astray
deriving DecidableEq, Repr

def Outcome.raised? : Outcome → Option Raised
  | ok => none
  | quit => none
  | fault cause => some cause.raised
  | astray => some .astray

structure Step (State : Type) where
  outcome : Outcome
  state : State
  diagnostics : List Diagnostic := []

namespace Step

def ok (state : State) : Step State :=
  { outcome := .ok, state }

def quit (state : State) : Step State :=
  { outcome := .quit, state }

def fault (cause : Fault) (state : State) : Step State :=
  { outcome := .fault cause, state }

def astray (state : State) : Step State :=
  { outcome := .astray, state }

def report (diagnostic : Diagnostic) (step : Step State) : Step State :=
  { step with diagnostics := diagnostic :: step.diagnostics }

def andThen (step : Step State) (next : State → Step State) : Step State :=
  match step.outcome with
  | .ok =>
      let later := next step.state
      { later with diagnostics := step.diagnostics ++ later.diagnostics }
  | _ => step

def map (change : Old → New) (step : Step Old) : Step New :=
  { step with state := change step.state }

@[simp] theorem andThen_ok (state : State) (next : State → Step State) :
    (ok state).andThen next = next state := rfl

@[simp] theorem andThen_quit (state : State) (next : State → Step State) :
    (quit state).andThen next = quit state := rfl

@[simp] theorem andThen_fault (cause : Fault) (state : State)
    (next : State → Step State) :
    (fault cause state).andThen next = fault cause state := rfl

end Step

end Esoteric
