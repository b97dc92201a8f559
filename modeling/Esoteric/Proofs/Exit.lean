import Esoteric.Proofs.Ending
import Esoteric.Proofs.Source

/-! Everything that a launch may come to. -/

namespace Esoteric

namespace Machine

theorem guided_ofSource {language : Language} {source : List Char} {width : Int}
    {edge : Option Edge} {input : Input} {chance : Chance}
    (steady : ∀ turn, chance.draws turn ≠ none) :
    Guided (((ofSource language source width edge).withInput input).withChance
      chance) := by
  cases language with
  | argh | befunge => exact steady
  | brainfuck => exact Int.le_refl 0

theorem language_ofSource {language : Language} {source : List Char}
    {width : Int} {edge : Option Edge} {input : Input} {chance : Chance} :
    (((ofSource language source width edge).withInput input).withChance
      chance).language = language := by
  cases language <;> rfl

theorem finished_ofSource {language : Language} {source : List Char}
    {width : Int} {edge : Option Edge} :
    (ofSource language source width edge).finished = true ↔
      language = .brainfuck ∧ source = [] := by
  cases language with
  | argh | befunge => exact ⟨nofun, fun both => nomatch both.1⟩
  | brainfuck =>
      cases source with
      | nil => exact ⟨fun _ => ⟨rfl, rfl⟩, fun _ => rfl⟩
      | cons c source =>
          simp [ofSource, finished, Brainfuck.Machine.finished]

end Machine

namespace Options

variable {options : Options} {room : List Nat → Bool} {source : List Char}
  {exit : Exit} {machine : Machine} {language : Language}

/-- There are no rows, or there is room for them. -/
def Fits (options : Options) (room : List Nat → Bool) (source : List Char) :
    Prop :=
  source = [] ∨ ∃ width, options.width = .value width ∧
    Playfield.Fits room width (Lines.split source)

/-- What keeps the text of a program from being run, and what it leads to. -/
inductive Precludes (options : Options) (room : List Nat → Bool)
    (source : List Char) : Exit → Prop
  | language (void : options.language = .void) :
      Precludes options room source (.voidSetting .language)
  | width {language : Language} (known : options.language = .value language)
      (laid : language ≠ .brainfuck) (filled : source ≠ [])
      (void : options.width = .void) :
      Precludes options room source (.voidSetting .width)
  | excess {language : Language} {width : Int} {cause : Excess}
      (known : options.language = .value language)
      (laid : language ≠ .brainfuck) (wide : options.width = .value width)
      (exceeds : Playfield.Exceeds room width (Lines.split source) cause) :
      Precludes options room source (.excess cause)
  | limit {language : Language} (known : options.language = .value language)
      (fits : language ≠ .brainfuck → options.Fits room source)
      (unfinished : language = .brainfuck → source ≠ [])
      (void : options.maxCycles = some .void) :
      Precludes options room source (.voidSetting .maxCycles)

theorem machine_of_rows {width : Int} (laid : language ≠ .brainfuck)
    (known : options.language = .value language)
    (wide : options.width = .value width)
    (fits : Playfield.Fits room width (Lines.split source)) :
    options.machine room source =
      .ok (.ofSource language source width options.edge) := by
  cases language with
  | brainfuck => contradiction
  | argh | befunge =>
      simp only [machine, known, wide, Machine.loadRows_of_fits fits]
      rfl

theorem machine_of_exceeds {width : Int} {cause : Excess}
    (laid : language ≠ .brainfuck) (known : options.language = .value language)
    (wide : options.width = .value width)
    (exceeds : Playfield.Exceeds room width (Lines.split source) cause) :
    options.machine room source = .error (.excess cause) := by
  cases language with
  | brainfuck => contradiction
  | argh | befunge =>
      simp only [machine, known, wide, Machine.loadRows_of_exceeds exceeds]
      rfl

theorem machine_of_void (laid : language ≠ .brainfuck)
    (known : options.language = .value language) (void : options.width = .void) :
    options.machine room source =
      if source.isEmpty then
        .ok (.ofSource language source 0 options.edge)
      else
        .error (.voidSetting .width) := by
  cases language with
  | brainfuck => contradiction
  | argh | befunge => simp only [machine, known, void]

theorem machine_cases (options : Options) (room : List Nat → Bool)
    (source : List Char) :
    (∃ exit, options.machine room source = .error exit ∧
      options.Precludes room source exit) ∨
    ∃ language width,
      options.machine room source =
        .ok (.ofSource language source width options.edge) ∧
      options.language = .value language ∧
      (language ≠ .brainfuck → options.Fits room source) := by
  cases known : options.language with
  | void => exact .inl ⟨_, by rw [Options.machine, known], .language known⟩
  | value language =>
      by_cases linear : language = .brainfuck
      · refine .inr ⟨language, 0, ?_, rfl, fun laid => absurd linear laid⟩
        rw [Options.machine, known, linear]
      cases wide : options.width with
      | value width =>
          obtain fits | ⟨cause, exceeds⟩ :=
            Playfield.fits_or_exceeds room width (Lines.split source)
          · have fills : options.Fits room source := .inr ⟨width, wide, fits⟩
            exact .inr ⟨language, width, machine_of_rows linear known wide fits,
              rfl, fun _ => fills⟩
          · exact .inl ⟨_, machine_of_exceeds linear known wide exceeds,
              .excess known linear wide exceeds⟩
      | void =>
          have built : options.machine room source = _ :=
            machine_of_void linear known wide
          by_cases empty : source = []
          · rw [if_pos (List.isEmpty_iff.2 empty)] at built
            have fills : options.Fits room source := .inl empty
            exact .inr ⟨language, 0, built, rfl, fun _ => fills⟩
          · rw [if_neg (mt List.isEmpty_iff.1 empty)] at built
            exact .inl ⟨_, built, .width known linear empty wide⟩

theorem machine_of_fits (known : options.language = .value language)
    (fits : language ≠ .brainfuck → options.Fits room source) :
    ∃ width, options.machine room source =
      .ok (.ofSource language source width options.edge) := by
  by_cases linear : language = .brainfuck
  · exact ⟨0, by rw [Options.machine, known, linear]⟩
  obtain rfl | ⟨width, wide, fits⟩ := fits linear
  · cases wide : options.width with
    | value width => exact ⟨width, machine_of_rows linear known wide .nil⟩
    | void => exact ⟨0, machine_of_void linear known wide⟩
  · exact ⟨width, machine_of_rows linear known wide fits⟩

theorem limit_eq_error_iff : options.limit machine = .error exit ↔
    options.maxCycles = some .void ∧ machine.finished = false ∧
      exit = .voidSetting .maxCycles := by
  rw [limit]
  split
  · rename_i unlimited
    simp [unlimited]
  · rename_i limited
    simp [limited]
  · rename_i void
    split
    · rename_i finished
      simp [finished]
    · rename_i going
      rw [Bool.not_eq_true] at going
      simp [void, going, eq_comm]

def plan (options : Options) (room : List Nat → Bool) (source : List Char) :
    Except Exit (Machine × Option Int) := do
  let machine ← options.machine room source
  return (machine, ← options.limit machine)

theorem plan_of_machine_error
    (fails : options.machine room source = .error exit) :
    options.plan room source = .error exit := by
  rw [plan, fails]
  rfl

theorem plan_of_machine (builds : options.machine room source = .ok machine) :
    options.plan room source =
      (options.limit machine).map fun limit => (machine, limit) := by
  rw [plan, builds]
  change (options.limit machine >>= fun limit => pure (machine, limit)) = _
  rw [bind_pure_comp]
  rfl

theorem plan_cases (options : Options) (room : List Nat → Bool)
    (source : List Char) :
    (∃ exit, options.plan room source = .error exit ∧
      options.Precludes room source exit) ∨
    ∃ language width limit,
      options.plan room source =
        .ok (.ofSource language source width options.edge, limit) ∧
      options.language = .value language := by
  obtain ⟨exit, fails, precludes⟩ | ⟨language, width, builds, known, fits⟩ :=
    options.machine_cases room source
  · exact .inl ⟨exit, plan_of_machine_error fails, precludes⟩
  · have plans := plan_of_machine builds
    cases limited :
        options.limit (.ofSource language source width options.edge) with
    | ok limit =>
        rw [limited] at plans
        exact .inr ⟨language, width, limit, plans, known⟩
    | error exit =>
        obtain ⟨void, unfinished, rfl⟩ := limit_eq_error_iff.1 limited
        rw [limited] at plans
        refine .inl ⟨_, plans, .limit known fits ?_ void⟩
        intro linear empty
        rw [Machine.finished_ofSource.2 ⟨linear, empty⟩] at unfinished
        contradiction

theorem plan_of_precludes (precludes : options.Precludes room source exit) :
    options.plan room source = .error exit := by
  cases precludes with
  | language void =>
      apply plan_of_machine_error
      rw [Options.machine, void]
  | width known laid filled void =>
      apply plan_of_machine_error
      rw [machine_of_void laid known void, if_neg (mt List.isEmpty_iff.1 filled)]
  | excess known laid wide exceeds =>
      exact plan_of_machine_error (machine_of_exceeds laid known wide exceeds)
  | @limit language known fits unfinished void =>
      obtain ⟨width, built⟩ := machine_of_fits known fits
      have going : (Machine.ofSource language source width
          options.edge).finished = false := by
        rw [← Bool.not_eq_true, Machine.finished_ofSource]
        rintro ⟨linear, empty⟩
        exact unfinished linear empty
      rw [plan_of_machine built, limit_eq_error_iff.2 ⟨void, going, rfl⟩]
      rfl

end Options

/-- Where a launch finds the program that it has been told of. -/
inductive Host.Supplies (host : Host) : Option String → List UInt8 → Prop
  | file {path : String} {bytes : List UInt8}
      (offers : host.Offers path bytes) : host.Supplies (some path) bytes
  | standardInput : host.Supplies none host.standardInput

theorem Encoding.decodeSource_eq_none_iff {encoding : Encoding}
    {bytes : List UInt8} : encoding.decodeSource bytes = none ↔
      encoding = .utf8 ∧ ¬ bytes.toByteArray.IsValidUTF8 := by
  rw [decodeSource, Option.map_eq_none_iff]
  cases encoding with
  | utf8 => simp [decode, String.fromUTF8?]
  | latin1 => simp [decode]

theorem Options.encoding_eq_utf8_iff {options : Options} :
    options.encoding = .utf8 ↔ options.language ≠ .value .brainfuck := by
  rw [encoding]
  split
  · rename_i language known
    rw [known]
    cases language <;> simp [Language.encoding]
  · rename_i void
    simp [void]

namespace Launch

variable {host : Host} {options : Options} {exit : Exit} {bytes : List UInt8}
  {session : Session} {limit : Option Int} {words : List String} {fuel : Nat}
  {report : Report} {chance : Chance}

/-- What keeps a program from being run, and what it leads to. -/
inductive Precludes (host : Host) (options : Options) : Exit → Prop
  | nul {path : String} (names : options.program = some path)
      (holds : '\x00' ∈ path.toList) : Precludes host options .nulInPath
  | unreadable {path : String} {obstacle : Obstacle}
      (names : options.program = some path) (proper : '\x00' ∉ path.toList)
      (fails : host.openFile path = .error obstacle) :
      Precludes host options (.unreadable path obstacle)
  | undecodable {bytes : List UInt8}
      (supplies : host.Supplies options.program bytes)
      (text : options.language ≠ .value .brainfuck)
      (malformed : ¬ bytes.toByteArray.IsValidUTF8) :
      Precludes host options .undecodable
  | program {bytes : List UInt8} {source : List Char} {exit : Exit}
      (supplies : host.Supplies options.program bytes)
      (decodes : options.encoding.decodeSource bytes = some source)
      (precludes : options.Precludes host.room source exit) :
      Precludes host options exit

theorem exists_supplies_or (host : Host) (options : Options) :
    (∃ bytes, host.Supplies options.program bytes) ∨
      ∃ exit, Precludes host options exit ∧
        ofOptions host options = ended exit #[] := by
  cases names : options.program with
  | none => exact .inl ⟨_, .standardInput⟩
  | some path =>
      by_cases holds : '\x00' ∈ path.toList
      · refine .inr ⟨.nulInPath, .nul names holds, ?_⟩
        simp only [ofOptions, names, openProgram, if_pos holds]
      · cases opened : host.openFile path with
        | ok bytes => exact .inl ⟨bytes, .file ⟨holds, opened⟩⟩
        | error obstacle =>
            refine .inr ⟨_, .unreadable names holds opened, ?_⟩
            simp only [ofOptions, names, openProgram, if_neg holds, opened]

theorem ofOptions_of_supplies
    (supplies : host.Supplies options.program bytes) :
    ∃ input diagnostics,
      (∀ diagnostic ∈ diagnostics, diagnostic = .sourceExpected) ∧
      ofOptions host options =
        load host options (options.encoding.decodeSource bytes) input
          diagnostics := by
  generalize names : options.program = program at supplies
  cases supplies with
  | file offers =>
      refine ⟨host.standardInput, #[], nofun, ?_⟩
      simp only [ofOptions, names, openProgram_of_offers offers,
        readText_eq_decodeSource]
  | standardInput =>
      refine ⟨[], #[.sourceExpected], ?_, ?_⟩
      · intro diagnostic member
        exact Array.mem_singleton.1 member
      · simp only [ofOptions, names]

theorem load_of_error {source : List Char}
    (fails : options.plan host.room source = .error exit)
    (input : List UInt8) (diagnostics : Array Diagnostic) :
    load host options (some source) input diagnostics =
      ended exit diagnostics := by
  rw [Options.plan] at fails
  simp only [load, fails]

theorem load_of_ok {source : List Char} {machine : Machine}
    (plans : options.plan host.room source = .ok (machine, limit))
    (input : List UInt8) (diagnostics : Array Diagnostic) :
    load host options (some source) input diagnostics =
      ready
        { machine :=
            (machine.withInput (.ofBytes input)).withChance host.chance
          traced := options.verbose
          diagnostics }
        limit := by
  rw [Options.plan] at plans
  simp only [load, plans]

theorem ended_of_precludes (precludes : Precludes host options exit) :
    ∃ diagnostics, ofOptions host options = ended exit diagnostics := by
  cases precludes with
  | nul names holds =>
      exact ⟨#[], by simp only [ofOptions, names, openProgram, if_pos holds]⟩
  | unreadable names proper fails =>
      exact ⟨#[], by
        simp only [ofOptions, names, openProgram, if_neg proper, fails]⟩
  | undecodable supplies text malformed =>
      obtain ⟨input, diagnostics, _, loads⟩ := ofOptions_of_supplies supplies
      have refused := Encoding.decodeSource_eq_none_iff.2
        ⟨Options.encoding_eq_utf8_iff.2 text, malformed⟩
      rw [refused] at loads
      exact ⟨diagnostics, loads⟩
  | program supplies decodes precludes =>
      obtain ⟨input, diagnostics, _, loads⟩ := ofOptions_of_supplies supplies
      rw [decodes, load_of_error (Options.plan_of_precludes precludes)] at loads
      exact ⟨diagnostics, loads⟩

theorem sound_ofSource {language : Language} {source : List Char} {width : Int}
    {edge : Option Edge} {input : Input} {traced : Bool}
    {diagnostics : Array Diagnostic} (steady : ∀ turn, chance.draws turn ≠ none)
    (shown : ∀ diagnostic ∈ diagnostics, diagnostic = .sourceExpected) :
    Session.Sound language
      { machine := ((Machine.ofSource language source width edge).withInput
          input).withChance chance
        traced, diagnostics } where
  runs := Machine.language_ofSource
  guided := Machine.guided_ofSource steady
  quiet diagnostic member := by
    rw [shown diagnostic member]
    rfl

theorem launch_cases (host : Host) (options : Options)
    (steady : ∀ turn, host.chance.draws turn ≠ none) :
    (∃ exit diagnostics, Precludes host options exit ∧
      ofOptions host options = ended exit diagnostics) ∨
    ∃ session limit language, ofOptions host options = ready session limit ∧
      options.language = .value language ∧ session.Sound language ∧
      session.Legible := by
  obtain ⟨bytes, supplies⟩ | ⟨exit, precludes, ends⟩ :=
    exists_supplies_or host options
  · obtain ⟨input, diagnostics, shown, loads⟩ := ofOptions_of_supplies supplies
    cases decoded : options.encoding.decodeSource bytes with
    | none =>
        obtain ⟨text, malformed⟩ := Encoding.decodeSource_eq_none_iff.1 decoded
        rw [Options.encoding_eq_utf8_iff] at text
        rw [decoded] at loads
        exact .inl ⟨_, _, .undecodable supplies text malformed, loads⟩
    | some source =>
        rw [decoded] at loads
        obtain ⟨exit, fails, precludes⟩ |
          ⟨language, width, limit, plans, known⟩ :=
          options.plan_cases host.room source
        · rw [load_of_error fails] at loads
          exact .inl ⟨_, _, .program supplies decoded precludes, loads⟩
        · rw [load_of_ok plans] at loads
          refine .inr ⟨_, _, language, loads, known,
            sound_ofSource steady shown, ?_⟩
          intro diagnostic member
          rw [shown diagnostic member]
          exact Diagnostic.legible_sourceExpected
  · exact .inl ⟨exit, _, precludes, ends⟩

theorem report_of_ended {diagnostics : Array Diagnostic}
    (ends : (ended exit diagnostics).report host fuel = some report) :
    report.exit = exit := by
  cases ends
  rfl

theorem report_of_ready {language : Language} (reliable : host.Reliable)
    (sound : session.Sound language) (legible : session.Legible)
    (ends : (ready session limit).report host fuel = some report) :
    ∃ ending, report.exit = .ran ending ∧
      ending.Shown language (Lines.whole report.errors.toList) := by
  rw [Launch.report, Option.map_eq_some_iff] at ends
  obtain ⟨⟨ending, reached⟩, result, rfl⟩ := ends
  exact ⟨ending, rfl,
    shown_of_recorded reliable (legible.run result) (sound.run result)⟩

theorem Precludes.ne_ran (precludes : Precludes host options exit)
    (ending : Ending) : exit ≠ .ran ending := by
  cases precludes with
  | nul _ _ | unreadable _ _ _ | undecodable _ _ _ => exact nofun
  | program _ _ precludes => cases precludes <;> exact nofun

theorem Precludes.status (precludes : Precludes host options exit) :
    exit.status = 1 := by
  cases precludes with
  | nul _ _ | unreadable _ _ _ | undecodable _ _ _ => rfl
  | program _ _ precludes => cases precludes <;> rfl

theorem exit_of_precludes (accepted : Options.parse words = .ok options)
    (ends : (ofCommandLine host words).report host fuel = some report)
    (precludes : Precludes host options exit) : report.exit = exit := by
  obtain ⟨diagnostics, launched⟩ := ended_of_precludes precludes
  simp only [ofCommandLine, accepted, launched] at ends
  exact report_of_ended ends

theorem report_cases (reliable : host.Reliable)
    (accepted : Options.parse words = .ok options)
    (ends : (ofCommandLine host words).report host fuel = some report) :
    Precludes host options report.exit ∨ ∃ language ending,
      report.exit = .ran ending ∧ options.language = .value language ∧
      ending.Shown language (Lines.whole report.errors.toList) := by
  obtain ⟨exit, diagnostics, precludes, launched⟩ |
    ⟨session, limit, language, launched, known, sound, legible⟩ :=
    launch_cases host options reliable.steady
  · left
    rwa [exit_of_precludes accepted ends precludes]
  · right
    simp only [ofCommandLine, accepted, launched] at ends
    obtain ⟨ending, same, shown⟩ := report_of_ready reliable sound legible ends
    exact ⟨language, ending, same, known, shown⟩

/-- A launch whose command line is accepted ends before its first cycle for the
stated reasons only. Otherwise its program finishes, asks for its end or fails, and
what is shown as errors tells of a failure in its last line and nowhere else. Only a
failure that has too long a number is not told. -/
theorem report_exit {host : Host} (reliable : host.Reliable)
    (accepted : Options.parse words = .ok options)
    (ends : (ofCommandLine host words).report host fuel = some report) :
    (∀ exit, (∀ ending, exit ≠ .ran ending) →
      (report.exit = exit ↔ Precludes host options exit)) ∧
    (∀ path obstacle, report.exit = .unreadable path obstacle →
      ∃ rest, report.exit.notice? =
        some ("The file specified is invalid: " ++ rest)) ∧
    (∀ ending, report.exit = .ran ending → ∃ language,
      options.language = .value language ∧
        ending.Shown language (Lines.whole report.errors.toList)) ∧
    report.exit.status =
      if report.exit = .ran .finished ∨ report.exit = .ran .quit then 0
      else 1 := by
  have ways := report_cases reliable accepted ends
  refine ⟨?_, ?_, ?_, ?_⟩
  · intro exit early
    constructor
    · rintro rfl
      obtain precludes | ⟨_, ending, same, _⟩ := ways
      · exact precludes
      · exact absurd same (early ending)
    · exact exit_of_precludes accepted ends
  · intro path obstacle same
    rw [same]
    exact ⟨obstacle.describe ++ (": " ++ Quoted.encode path.toList), by
      rw [← String.append_assoc, ← String.append_assoc]; rfl⟩
  · intro ending same
    obtain precludes | ⟨language, other, ran, known, shown⟩ := ways
    · exact absurd same (precludes.ne_ran ending)
    · cases ran.symm.trans same
      exact ⟨language, known, shown⟩
  · obtain precludes | ⟨language, ending, ran, known, shown⟩ := ways
    · rw [precludes.status, if_neg]
      rintro (same | same)
      · exact precludes.ne_ran _ same
      · exact precludes.ne_ran _ same
    · rw [ran]
      cases shown <;> rfl

theorem report_exit_of_division :
    let host : Host := { openFile := fun _ => .ok [49, 48, 47] }
    let words := ["-v", "program"]
    let options : Options := { program := some "program", verbose := true }
    let report : Report :=
      { exit := .ran (.failed .divisionByZero)
        output := ""
        errors :=
          "DEBUG grid_vm: (0, 0) '1' dir=RIGHT stack=[]\n" ++
          "DEBUG grid_vm: (1, 0) '0' dir=RIGHT stack=[1]\n" ++
          "DEBUG grid_vm: (2, 0) '/' dir=RIGHT stack=[1, 0]\n" ++
          "DEBUG grid_vm: fatal at (2, 0) after 2 cycles\n" ++
          "ERR: division by zero\n" }
    host.Reliable ∧ Options.parse words = .ok options ∧
      (ofCommandLine host words).report host 9 = some report ∧
      ∃ language, options.language = .value language ∧
        Ending.Shown language (Lines.whole report.errors.toList)
          (.failed .divisionByZero) := by
  intro host words options report
  have reliable : host.Reliable := ⟨fun _ => nofun, fun _ => nofun⟩
  have accepted : Options.parse words = .ok options := by decide +kernel
  have ends : (ofCommandLine host words).report host 9 = some report := by
    decide +kernel
  obtain ⟨_, _, ran, _⟩ := report_exit reliable accepted ends
  exact ⟨reliable, accepted, ends, ran _ rfl⟩

/-- Two hyphens that stand for the limit of a run are accepted, but lead to none of
the exits that a launch is meant to have. -/
theorem exit_of_void_limit :
    ¬ ∀ (host : Host) (words : List String) (options : Options) (fuel : Nat)
      (report : Report), host.Reliable →
      Options.parse words = .ok options →
      (ofCommandLine host words).report host fuel = some report →
        report.exit = .nulInPath ∨
        (∃ path obstacle, report.exit = .unreadable path obstacle) ∨
        report.exit = .undecodable ∨ ∃ ending, report.exit = .ran ending := by
  intro meant
  have exits := meant { openFile := fun _ => .ok [64] }
    ["--max-cycles=--", "program"]
    { program := some "program", maxCycles := some .void } 0
    { exit := .voidSetting .maxCycles, output := "", errors := "" }
    ⟨fun _ => nofun, fun _ => nofun⟩ (by decide +kernel) (by decide +kernel)
  obtain same | ⟨_, _, same⟩ | same | ⟨_, same⟩ := exits
  all_goals contradiction

end Launch

end Esoteric
