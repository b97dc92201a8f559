import Esoteric.Proofs.CommandLine.Verbose
import Esoteric.Proofs.Retelling
import Esoteric.Proofs.Text.Deletion
import Esoteric.Proofs.Traces

/-! A trace is told beside a run and makes no difference to it. -/

namespace Esoteric

namespace Session

def muted (session : Session) : Session where
  machine := session.machine
  traced := false
  diagnostics := session.diagnostics.filter fun diagnostic =>
    !diagnostic.isTrace

theorem retells_muted : Retells muted where
  replaces _ _ := rfl
  records session diagnostic := by
    obtain ⟨machine, traced, diagnostics⟩ := session
    cases traces : diagnostic.isTrace with
    | true => cases traced <;> simp [record, muted, traces]
    | false => simp [record, muted, traces]

end Session

def Turn.left : Turn → Session
  | ended _ session => session
  | going session => session

namespace Session

variable {session reached : Session} {limit : Option Int} {fuel : Nat}
  {ending : Ending} {cause : Fault}

def Legible (session : Session) : Prop :=
  ∀ diagnostic ∈ session.diagnostics, diagnostic.Legible

namespace Legible

theorem after (legible : session.Legible) {step : Step Machine}
    (traces : step.Traces) : (session.after step).Legible := by
  have begins : Legible { session with machine := step.state } := legible
  apply forall_recordAll begins
  intro diagnostic member
  exact Diagnostic.legible_of_isTrace (traces diagnostic member)

theorem fail (legible : session.Legible) (words : cause.Legible) :
    (session.recordAll (session.machine.failReport cause)).Legible := by
  apply forall_recordAll legible
  rw [Machine.failReport]
  cases told : cause.message? with
  | none => exact nofun
  | some message =>
      intro diagnostic member
      rcases List.mem_append.1 member with stop | last
      · apply Diagnostic.legible_of_isTrace
        exact session.machine.isTrace_of_mem_stopReport stop
      · rw [List.mem_singleton.1 last]
        exact Diagnostic.legible_failed (words message told)

end Legible

theorem Legible.turn (legible : session.Legible) (limit : Option Int) :
    (session.turn limit).left.Legible := by
  have reaches := legible.after session.machine.cycle_traces
  rw [Session.turn]
  split
  · exact legible
  · cases session.spent? limit with
    | some limit =>
        apply legible.fail
        apply Fault.legible_of_named
        rintro operation ⟨⟩
    | none =>
        simp only [cycle_eq]
        cases result : session.machine.cycle.outcome with
        | ok | quit | astray => exact reaches
        | fault cause =>
            exact reaches.fail (Machine.legible_of_fault result)

theorem Legible.run (legible : session.Legible)
    (result : session.run limit fuel = some (ending, reached)) :
    reached.Legible := by
  induction fuel generalizing session with
  | zero => contradiction
  | succ fuel induction =>
      have reaches := legible.turn limit
      rw [Session.run] at result
      cases turned : session.turn limit with
      | ended ending last =>
          rw [turned] at result reaches
          cases result
          exact reaches
      | going later =>
          rw [turned] at result reaches
          exact induction reaches result

/-- The outcomes of a number of cycles, and the session that they leave. -/
def proceed : (count : Nat) → Session → List Outcome × Session
  | 0, session => ([], session)
  | count + 1, session =>
      let (outcome, reached) := session.cycle
      let (outcomes, last) := proceed count reached
      (outcome :: outcomes, last)

theorem recordAll_of_untraced {diagnostics : List Diagnostic}
    (plain : session.traced = false)
    (traces : ∀ diagnostic ∈ diagnostics, diagnostic.isTrace = true) :
    session.recordAll diagnostics = session := by
  induction diagnostics with
  | nil => rfl
  | cons diagnostic diagnostics induction =>
      obtain ⟨head, tail⟩ := List.forall_mem_cons.1 traces
      have skipped : session.record diagnostic = session := by
        simp [record, plain, head]
      rw [recordAll, List.foldl_cons, skipped]
      exact induction tail

theorem recordAll_of_traced (traced : session.traced = true)
    (diagnostics : List Diagnostic) :
    session.recordAll diagnostics =
      { session with
        diagnostics := session.diagnostics ++ diagnostics.toArray } := by
  induction diagnostics generalizing session with
  | nil => simp [recordAll]
  | cons diagnostic diagnostics induction =>
      have kept : session.record diagnostic =
          { session with
            diagnostics := session.diagnostics.push diagnostic } := by
        simp [record, traced]
      have still : (session.record diagnostic).traced = true := by
        rw [kept]
        exact traced
      refine (induction still).trans ?_
      simp [kept]

theorem proceed_alike (machine : Machine) (told untold : Array Diagnostic)
    (count : Nat) :
    ∃ outcomes reached trace,
      proceed count ⟨machine, true, told⟩ =
          (outcomes, ⟨reached, true, told ++ trace⟩) ∧
        proceed count ⟨machine, false, untold⟩ =
          (outcomes, ⟨reached, false, untold⟩) ∧
        ∀ diagnostic ∈ trace, diagnostic.isTrace = true := by
  induction count generalizing machine told with
  | zero => exact ⟨[], machine, #[], by rw [Array.append_empty]; rfl, rfl, nofun⟩
  | succ count induction =>
      have traces := machine.cycle_traces
      obtain ⟨outcomes, reached, trace, traced, plain, later⟩ :=
        induction machine.cycle.state
          (told ++ machine.cycle.diagnostics.toArray)
      refine ⟨machine.cycle.outcome :: outcomes, reached,
        machine.cycle.diagnostics.toArray ++ trace, ?_, ?_, ?_⟩
      · simp only [proceed, cycle_eq, after]
        rw [recordAll_of_traced rfl, traced, Array.append_assoc]
      · simp only [proceed, cycle_eq, after]
        rw [recordAll_of_untraced rfl traces, plain]
      · intro diagnostic member
        rcases Array.mem_append.1 member with now | next
        · exact traces diagnostic (by simpa using now)
        · exact later diagnostic next

end Session

namespace Launch

variable {launch : Launch} {host : Host} {options : Options}
  {diagnostics : Array Diagnostic}

def muted : Launch → Launch
  | ended exit diagnostics =>
      ended exit (diagnostics.filter fun diagnostic => !diagnostic.isTrace)
  | ready session limit => ready session.muted limit

def Legible : Launch → Prop
  | ended _ diagnostics => ∀ diagnostic ∈ diagnostics, diagnostic.Legible
  | ready session _ => session.Legible

/-- All that has been reported when a launch comes to its end. -/
def told (fuel : Nat) : Launch → Array Diagnostic
  | ended _ diagnostics => diagnostics
  | ready session limit =>
      match session.run limit fuel with
      | some (_, reached) => reached.diagnostics
      | none => #[]

/-- A launch with a trace beside one that comes to the same without it. What the first
shows is what the second shows and the lines of the trace, unless a number that it
reports is too long. -/
inductive Traces (host : Host) (fuel : Nat) (aloud plain : Launch) : Prop
  | going (first : aloud.report host fuel = none)
      (second : plain.report host fuel = none)
  | ended {told shown : Report} (first : aloud.report host fuel = some told)
      (second : plain.report host fuel = some shown)
      (exit : told.exit = shown.exit) (output : told.output = shown.output)
      (errors : withoutTrace told.errors = shown.errors ↔
        ∀ diagnostic ∈ aloud.told fuel, ∀ number ∈ diagnostic.numbers,
          Numeral.Short number)

variable {session reached : Session} {limit : Option Int} {fuel : Nat}
  {ending : Ending}

theorem report_of_going (result : session.run limit fuel = none) (host : Host) :
    (ready session limit).report host fuel = none := by
  rw [report, result]
  rfl

theorem report_of_run
    (result : session.run limit fuel = some (ending, reached)) (host : Host) :
    (ready session limit).report host fuel =
      some { exit := .ran ending
             output := reached.machine.output
             errors := render host reached.diagnostics } := by
  rw [report, result]
  rfl

theorem traces_muted (legible : launch.Legible) (host : Host) (fuel : Nat) :
    Traces host fuel launch launch.muted := by
  cases launch with
  | ended exit diagnostics =>
      exact .ended rfl rfl rfl rfl (withoutTrace_render_iff host legible)
  | ready session limit =>
      have mutedRun := Session.retells_muted.run limit fuel session
      cases result : session.run limit fuel with
      | none =>
          rw [result] at mutedRun
          exact .going (report_of_going result host)
            (report_of_going mutedRun host)
      | some last =>
          rw [result] at mutedRun
          have kept := withoutTrace_render_iff host
            (Session.Legible.run legible result)
          refine .ended (report_of_run result host)
            (report_of_run mutedRun host) rfl rfl ?_
          rw [told, result]
          exact kept

theorem load_aloud (host : Host) (quiet : options.verbose = false)
    (source? : Option (List Char)) (input : List UInt8)
    (plain : ∀ diagnostic ∈ diagnostics, diagnostic = .sourceExpected) :
    (load host options.aloud source? input diagnostics).Legible ∧
      load host options source? input diagnostics =
        (load host options.aloud source? input diagnostics).muted := by
  have kept : diagnostics.filter (fun diagnostic => !diagnostic.isTrace) =
      diagnostics := by
    apply Array.filter_eq_self.2
    intro diagnostic member
    rw [plain diagnostic member]
    rfl
  have legible : ∀ diagnostic ∈ diagnostics, diagnostic.Legible := by
    intro diagnostic member
    rw [plain diagnostic member]
    exact Diagnostic.legible_sourceExpected
  have sameMachine : options.aloud.machine = options.machine := rfl
  have sameLimit : options.aloud.limit = options.limit := rfl
  simp only [load, sameMachine, sameLimit]
  cases source? with
  | none => exact ⟨legible, by rw [muted, kept]⟩
  | some source =>
      simp only
      split
      · exact ⟨legible, by rw [muted, kept]⟩
      · refine ⟨legible, ?_⟩
        rw [muted, Session.muted, kept, quiet]

theorem ofOptions_aloud (host : Host) (quiet : options.verbose = false) :
    (ofOptions host options.aloud).Legible ∧
      ofOptions host options = (ofOptions host options.aloud).muted := by
  have sameProgram : options.aloud.program = options.program := rfl
  have sameEncoding : options.aloud.encoding = options.encoding := rfl
  simp only [ofOptions, sameProgram, sameEncoding]
  cases options.program with
  | none =>
      apply load_aloud host quiet
      intro diagnostic member
      exact Array.mem_singleton.1 member
  | some path =>
      simp only [openProgram]
      split
      · exact ⟨nofun, rfl⟩
      · cases host.openFile path with
        | error obstacle => exact ⟨nofun, rfl⟩
        | ok bytes => exact load_aloud host quiet _ _ nofun

theorem traces_verbose {words : List String} (host : Host)
    (accepted : Options.parse words = .ok options)
    (quiet : options.verbose = false) (fuel : Nat) :
    Traces host fuel (ofCommandLine host ("-v" :: words))
      (ofCommandLine host words) := by
  obtain ⟨legible, same⟩ := ofOptions_aloud host quiet
  have asked : Options.parse ("-v" :: words) = .ok options.aloud := by
    rw [Options.parse_verbose, accepted]
    rfl
  simp only [ofCommandLine, accepted, asked]
  rw [same]
  exact traces_muted legible host fuel

theorem told_iff_of_isTrace {diagnostic : Diagnostic}
    (traces : diagnostic.isTrace = true) :
    (∃ text, diagnostic.text? = some text ∧ SingleLine text ∧
        Diagnostic.Begins text) ↔
      ∀ number ∈ diagnostic.numbers, Numeral.Short number := by
  rw [← Diagnostic.exists_text?_iff]
  constructor
  · rintro ⟨text, told, _⟩
    exact ⟨text, told⟩
  · rintro ⟨text, told⟩
    exact ⟨text, told, Diagnostic.legible_of_isTrace traces text told,
      Diagnostic.begins_of_isTrace traces told⟩

/-- Tracing is an observer: cycles go alike with and without a trace, and a launch
that is asked for one comes to the same. What it adds to what is shown as errors are
the lines of the trace, unless a number in a report is too long to be shown. -/
theorem tracing_observes (session : Session) (count : Nat) (host : Host)
    (words : List String) (fuel : Nat) :
    (∃ outcomes reached trace,
      Session.proceed count { session with traced := true } =
          (outcomes,
            ⟨reached, true, session.diagnostics ++ trace⟩) ∧
        Session.proceed count { session with traced := false } =
          (outcomes, ⟨reached, false, session.diagnostics⟩) ∧
        ∀ diagnostic ∈ trace, diagnostic.isTrace = true ∧
          ((∃ text, diagnostic.text? = some text ∧ SingleLine text ∧
              Diagnostic.Begins text) ↔
            ∀ number ∈ diagnostic.numbers, Numeral.Short number)) ∧
    ∀ options, Options.parse words = .ok options → options.verbose = false →
      Traces host fuel (ofCommandLine host ("-v" :: words))
        (ofCommandLine host words) := by
  constructor
  · obtain ⟨outcomes, reached, trace, traced, untraced, traces⟩ :=
      Session.proceed_alike session.machine session.diagnostics
        session.diagnostics count
    refine ⟨outcomes, reached, trace, traced, untraced, ?_⟩
    intro diagnostic member
    have isTrace := traces diagnostic member
    exact ⟨isTrace, told_iff_of_isTrace isTrace⟩
  · intro options accepted quiet
    exact traces_verbose host accepted quiet fuel

/-- A program that stores a value outside its playfield, with and without a
trace. -/
theorem tracing_observes_of_dropped_write :
    let host : Host := { openFile := fun _ => .ok [49, 57, 57, 112, 64] }
    let words := ["-w", "5", "program"]
    let options : Options := { program := some "program", width := .value 5 }
    let machine : Machine :=
      .ofSource .befunge ['1', '9', '9', 'p', '@'] 5 none
    (∃ reached trace,
      Session.proceed 4 { machine, traced := true } =
          ([.ok, .ok, .ok, .ok], ⟨reached, true, trace⟩) ∧
        Session.proceed 4 { machine } =
          ([.ok, .ok, .ok, .ok], ⟨reached, false, #[]⟩)) ∧
      Options.parse words = .ok options ∧ options.verbose = false ∧
      (ofCommandLine host words).report host 9 =
        some { exit := .ran .quit, output := "", errors := "" } ∧
      ((ofCommandLine host ("-v" :: words)).report host 9).map
          (fun told => withoutTrace told.errors) = some "" := by
  intro host words options machine
  obtain ⟨⟨outcomes, reached, trace, traced, untraced, _⟩, observes⟩ :=
    tracing_observes { machine } 4 host words 9
  have accepted : Options.parse words = .ok options := by decide +kernel
  have quiet : options.verbose = false := rfl
  have plain : (ofCommandLine host words).report host 9 =
      some { exit := .ran .quit, output := "", errors := "" } := by
    decide +kernel
  have succeeds : (Session.proceed 4 { machine }).1 = [.ok, .ok, .ok, .ok] := by
    decide +kernel
  have short : ∀ diagnostic ∈ (ofCommandLine host ("-v" :: words)).told 9,
      ∀ number ∈ diagnostic.numbers, Numeral.Short number := by
    decide +kernel
  rw [untraced] at succeeds
  obtain rfl : outcomes = [.ok, .ok, .ok, .ok] := succeeds
  refine ⟨⟨reached, _, traced, untraced⟩, accepted, quiet, plain, ?_⟩
  cases observes options accepted quiet with
  | going _ none => exact nomatch plain.symm.trans none
  | ended aloud same _ _ kept =>
      cases plain.symm.trans same
      rw [aloud, Option.map_some, kept.2 short]

end Launch

theorem Grid.Machine.fetched_mem_cycle {machine : Machine} {cell : Int}
    (stored : machine.field.cell? machine.pointer = some cell)
    (dialect : Dialect) :
    .fetched machine.pointer cell machine.heading machine.stack ∈
      (machine.cycle dialect).diagnostics := by
  rw [cycle, stored]
  exact List.mem_cons_self

/-- A cell that holds a number with too many digits is told of in no line. -/
theorem Session.untold_cell :
    ¬ ∀ (machine : Machine) (count : Nat), ∀ diagnostic ∈
      (proceed count { machine, traced := true }).2.diagnostics,
        ∃ text, diagnostic.text? = some text ∧ Diagnostic.Begins text := by
  intro meant
  let cell : Int := (10 ^ Numeral.mostDigits : Nat)
  let state : Grid.Machine :=
    { field := { rows := #[#[cell]], edge := .silent 32 } }
  have stored : state.field.cell? state.pointer = some cell := rfl
  have fetched := Grid.Machine.fetched_mem_cycle stored .befunge
  have member : .fetched { x := 0, y := 0 } cell .right [] ∈
      (proceed 1 { machine := .grid .befunge state, traced := true }).2.diagnostics := by
    simp only [proceed, cycle_eq, after]
    rw [recordAll_of_traced rfl]
    exact Array.mem_append.2 (.inr (List.mem_toArray.2 fetched))
  obtain ⟨text, told, _⟩ := meant _ _ _ member
  have short := Diagnostic.exists_text?_iff.1 ⟨text, told⟩
  exact Numeral.not_short_pow (short cell (by simp [Diagnostic.numbers]))

end Esoteric
