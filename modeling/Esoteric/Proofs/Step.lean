import Esoteric.Step

namespace Esoteric.Step

variable {Old New : Type} {relation weaker : Old → New → Prop}
  {state : Old} {counterpart : New} {first : Step Old} {second : Step New}

structure Related (relation : Old → New → Prop) (first : Step Old)
    (second : Step New) : Prop where
  outcome : second.outcome = first.outcome
  state : relation first.state second.state

namespace Related

theorem ok (related : relation state counterpart) :
    Related relation (.ok state) (.ok counterpart) :=
  ⟨rfl, related⟩

theorem quit (related : relation state counterpart) :
    Related relation (.quit state) (.quit counterpart) :=
  ⟨rfl, related⟩

theorem fault (cause : Fault) (related : relation state counterpart) :
    Related relation (.fault cause state) (.fault cause counterpart) :=
  ⟨rfl, related⟩

theorem astray (related : relation state counterpart) :
    Related relation (.astray state) (.astray counterpart) :=
  ⟨rfl, related⟩

theorem report (related : Related relation first second)
    (diagnostic other : Diagnostic) :
    Related relation (first.report diagnostic) (second.report other) :=
  ⟨related.outcome, related.state⟩

theorem mono (related : Related relation first second)
    (weakens : ∀ state counterpart, relation state counterpart →
      weaker state counterpart) : Related weaker first second :=
  ⟨related.outcome, weakens _ _ related.state⟩

theorem andThen {next : Old → Step Old} {other : New → Step New}
    (related : Related relation first second)
    (continues : ∀ state counterpart, relation state counterpart →
      Related relation (next state) (other counterpart)) :
    Related relation (first.andThen next) (second.andThen other) := by
  obtain ⟨same, states⟩ := related
  rw [Step.andThen, Step.andThen, same]
  split
  · obtain ⟨outcomes, reached⟩ := continues _ _ states
    exact ⟨outcomes, reached⟩
  · exact ⟨same, states⟩

theorem map (step : Step Old) (change : Old → New) :
    Related (fun state counterpart => counterpart = change state) step
      (step.map change) :=
  ⟨rfl, rfl⟩

theorem map_map {OldWhole NewWhole : Type}
    {whole : OldWhole → NewWhole → Prop} {change : Old → OldWhole}
    {other : New → NewWhole} (related : Related relation first second)
    (embeds : ∀ state counterpart, relation state counterpart →
      whole (change state) (other counterpart)) :
    Related whole (first.map change) (second.map other) :=
  ⟨related.outcome, embeds _ _ related.state⟩

end Related

section

variable {State : Type} {holds : State → Prop} {state : State}
  {step : Step State}

/-- What is true of the state that a step leaves, if it succeeds. -/
def Ensures (holds : State → Prop) (step : Step State) : Prop :=
  step.outcome = .ok → holds step.state

namespace Ensures

theorem ok (kept : holds state) : (Step.ok state).Ensures holds :=
  fun _ => kept

theorem quit : (Step.quit state).Ensures holds :=
  nofun

theorem fault (cause : Fault) : (Step.fault cause state).Ensures holds :=
  nofun

theorem astray : (Step.astray state).Ensures holds :=
  nofun

theorem andThen_ok {finish : State → State}
    (ensures : step.Ensures fun reached => holds (finish reached))
    (diagnostic : Diagnostic) :
    ((step.andThen fun reached => .ok (finish reached)).report
      diagnostic).Ensures holds := by
  intro succeeds
  cases executed : step.outcome with
  | ok =>
      simp only [andThen, report, executed]
      exact ensures executed
  | quit | fault _ | astray =>
      simp only [andThen, report, executed] at succeeds
      contradiction

end Ensures

end

section

variable {State : Type} {quits strays : Prop} {fails : Fault → State → Prop}
  {state : State} {step : Step State} {cause : Fault}

/-- There is a reason for every outcome but success. -/
structure Justified (quits strays : Prop) (fails : Fault → State → Prop)
    (step : Step State) : Prop where
  quit : step.outcome = .quit → quits
  astray : step.outcome = .astray → strays
  fault : ∀ cause, step.outcome = .fault cause → fails cause step.state

namespace Justified

theorem of_ok (succeeds : step.outcome = .ok) :
    step.Justified quits strays fails := by
  constructor <;> simp [succeeds]

theorem of_quit (reason : quits) :
    (Step.quit state).Justified quits strays fails :=
  ⟨fun _ => reason, nofun, nofun⟩

theorem of_astray (reason : strays) :
    (Step.astray state).Justified quits strays fails :=
  ⟨nofun, fun _ => reason, nofun⟩

theorem of_fault (reason : fails cause state) :
    (Step.fault cause state).Justified quits strays fails := by
  refine ⟨nofun, nofun, ?_⟩
  intro other same
  cases same
  exact reason

theorem report (justified : step.Justified quits strays fails)
    (diagnostic : Diagnostic) :
    (step.report diagnostic).Justified quits strays fails :=
  ⟨justified.quit, justified.astray, justified.fault⟩

theorem andThen_ok (justified : step.Justified quits strays fails)
    (finish : State → State) :
    (step.andThen fun reached => .ok (finish reached)).Justified quits strays
      fails := by
  rw [Step.andThen]
  split
  · exact .of_ok rfl
  · exact justified

theorem outcome_iff (justified : step.Justified quits strays fails)
    (quitting : quits → step.outcome = .quit)
    (failing : ∀ cause left, fails cause left → step.outcome = .fault cause)
    (steers : ¬ strays) :
    (step.outcome = .quit ↔ quits) ∧
      (∀ cause, step.outcome = .fault cause ↔ ∃ left, fails cause left) ∧
      (step.outcome = .ok ↔ ¬ quits ∧ ∀ cause left, ¬ fails cause left) ∧
      step.outcome ≠ .astray := by
  refine ⟨⟨justified.quit, quitting⟩, ?_, ⟨?_, ?_⟩, mt justified.astray steers⟩
  · intro cause
    constructor
    · intro ending
      exact ⟨step.state, justified.fault cause ending⟩
    · rintro ⟨left, reason⟩
      exact failing cause left reason
  · intro succeeds
    constructor
    · intro reason
      rw [quitting reason] at succeeds
      contradiction
    · intro cause left reason
      rw [failing cause left reason] at succeeds
      contradiction
  · rintro ⟨stays, sound⟩
    cases ending : step.outcome with
    | ok => rfl
    | quit => exact absurd (justified.quit ending) stays
    | fault cause => exact absurd (justified.fault cause ending) (sound _ _)
    | astray => exact absurd (justified.astray ending) steers

end Justified

end

end Esoteric.Step
