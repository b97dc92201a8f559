import Esoteric.Proofs.CommandLine.Operand
import Esoteric.Proofs.Playfield.Room
import Esoteric.Proofs.Retelling
import Esoteric.Proofs.Text.Deletion
import Esoteric.Proofs.Text.LineEnd

/-! A program is the same one, whichever way it is read. -/

namespace Esoteric

/-- A regular file with its contents. No name of a file holds a NUL. -/
structure Host.Offers (host : Host) (path : String) (bytes : List UInt8) :
    Prop where
  named : '\x00' ∉ path.toList
  opens : host.openFile path = .ok bytes

namespace Launch

def precededBy (earlier : Array Diagnostic) : Launch → Launch
  | ended exit diagnostics => ended exit (earlier ++ diagnostics)
  | ready session limit => ready (session.precededBy earlier) limit

theorem render_append (host : Host) (earlier later : Array Diagnostic) :
    render host (earlier ++ later) =
      render host earlier ++ render host later := by
  rw [← String.toList_inj, String.toList_append, toList_render, toList_render,
    toList_render, Array.toList_append, List.flatMap_append]

end Launch

def Report.precededBy (text : String) (report : Report) : Report :=
  { report with errors := text ++ report.errors }

namespace Launch

variable {host : Host} {language : Language} {words : List String}
  {options : Options} {path : String} {bytes : List UInt8}

theorem report_precededBy (host : Host) (earlier : Array Diagnostic)
    (launch : Launch) (fuel : Nat) :
    (launch.precededBy earlier).report host fuel =
      (launch.report host fuel).map
        (Report.precededBy (render host earlier)) := by
  cases launch with
  | ended exit diagnostics =>
      rw [precededBy, report, render_append]
      rfl
  | ready session limit =>
      rw [precededBy, report, report, (Session.retells_precededBy earlier).run]
      cases session.run limit fuel with
      | none => rfl
      | some last =>
          obtain ⟨ending, reached⟩ := last
          simp only [Option.map_some, Report.precededBy, Session.precededBy,
            render_append]

theorem load_precededBy (host : Host) (options : Options)
    (source? : Option (List Char)) (input : List UInt8)
    (earlier : Array Diagnostic) :
    load host options source? input earlier =
      (load host options source? input #[]).precededBy earlier := by
  unfold load
  cases source? with
  | none => rw [precededBy, Array.append_empty]
  | some source =>
      simp only
      split
      · rw [precededBy, Array.append_empty]
      · rw [precededBy, Session.precededBy, Array.append_empty]

theorem openProgram_of_offers (offers : host.Offers path bytes)
    (problem : Obstacle → Exit) (start : List UInt8 → Launch) :
    openProgram host path problem start = start bytes := by
  rw [openProgram, if_neg offers.named, offers.opens]

theorem ofCommandLine_of_offers (offers : host.Offers path bytes)
    (accepted : Options.parse words = .ok options)
    (names : options.program = some path) :
    ofCommandLine host words =
      load host options (options.encoding.readText bytes)
        host.standardInput #[] := by
  simp only [ofCommandLine, accepted, ofOptions, names,
    openProgram_of_offers offers]

theorem readText_eq_decodeSource (encoding : Encoding) (bytes : List UInt8) :
    encoding.readText bytes = encoding.decodeSource bytes := by
  rw [Encoding.readText, Encoding.decodeSource,
    funext Newline.translate_eq_unify]

theorem load_congr {host other : Host} (sameRoom : other.room = host.room)
    (sameChance : other.chance = host.chance) :
    load other = load host := by
  unfold load
  rw [sameRoom, sameChance]

/-- A program comes to the same from standard input as from a file, if nothing
else stands on standard input, but for the line that asks for it. -/
theorem report_of_standardInput (host : Host)
    (accepted : Options.parse words = .ok options)
    (unnamed : options.program = none)
    (plain : path.toList.head? ≠ some '-') (offers : host.Offers path bytes)
    (fuel : Nat) :
    (ofCommandLine { host with standardInput := bytes } words).report host fuel =
      ((ofCommandLine { host with standardInput := [] }
        (words ++ [path])).report host fuel).map
          (Report.precededBy "Expect the source code on stdin\n") := by
  have named := Options.parse_append_plain accepted unnamed plain
  have shown : render host #[.sourceExpected] =
      "Expect the source code on stdin\n" := rfl
  have opens : Host.Offers { host with standardInput := [] } path bytes :=
    ⟨offers.named, offers.opens⟩
  have sameLoad : load { host with standardInput := bytes } =
      load { host with standardInput := [] } := load_congr rfl rfl
  rw [ofCommandLine_of_offers opens named rfl, ← shown, ← report_precededBy,
    ← load_precededBy, readText_eq_decodeSource]
  simp only [ofCommandLine, accepted, ofOptions, unnamed, sameLoad]
  rfl

theorem report_of_standardInput_of_mixed_ends :
    let bytes : List UInt8 := [118, 13, 10, 118, 13, 62, 126, 46, 64, 10]
    let host : Host := { openFile := fun _ => .ok bytes }
    let words := ["-w", "5", "--"]
    let options : Options := { width := .value 5 }
    Options.parse words = .ok options ∧ options.program = none ∧
      "program".toList.head? ≠ some '-' ∧ host.Offers "program" bytes ∧
      (ofCommandLine { host with standardInput := [] }
        (words ++ ["program"])).report host 9 =
          some { exit := .ran .quit, output := "0 ", errors := "" } ∧
      (ofCommandLine { host with standardInput := bytes } words).report host 9 =
        ((ofCommandLine { host with standardInput := [] }
          (words ++ ["program"])).report host 9).map
            (Report.precededBy "Expect the source code on stdin\n") := by
  intro bytes host words options
  have accepted : Options.parse words = .ok options := by decide +kernel
  have plain : "program".toList.head? ≠ some '-' := by decide
  have offers : host.Offers "program" bytes := ⟨by decide, rfl⟩
  exact ⟨accepted, rfl, plain, offers, by decide +kernel,
    report_of_standardInput host accepted rfl plain offers 9⟩

/-- There is room for the lines of a file as they are read if there is for those of
its text, and they are laid out alike. -/
theorem loadRows_ofFile (room : List Nat → Bool) (dialect : Grid.Dialect)
    (text : List Char) (width : Int) (edge : Option Edge) :
    Machine.loadRows room dialect (Lines.ofFile text) width edge =
      Machine.loadRows room dialect (Lines.split (Newline.translate text)) width
        edge := by
  have same := Lines.map_trimEnd_ofFile text
  simp only [Machine.loadRows, Playfield.load, Playfield.ofLines_congr same,
    Playfield.excess?_congr same]

theorem scriptMachine_eq (room : List Nat → Bool) (language : Language)
    (bytes : List UInt8) :
    scriptMachine room language bytes =
      match language.encoding.readText bytes with
      | none => .error .undecodable
      | some source =>
          Options.machine { language := .value language } room source := by
  cases language with
  | befunge | argh =>
      simp only [scriptMachine, scriptMachine.rows, Encoding.readLines,
        Encoding.readText]
      cases Encoding.decode _ bytes with
      | none => rfl
      | some text =>
          simp only [Option.map_some, loadRows_ofFile]
          rfl
  | brainfuck => rfl

theorem ofScript_of_offers (language : Language)
    (offers : host.Offers path bytes) :
    ofScript host language [path] =
      load host { language := .value language }
        (language.encoding.readText bytes) host.standardInput #[] := by
  rw [ofScript, openProgram_of_offers offers, scriptMachine_eq]
  cases language.encoding.readText bytes with
  | none => rfl
  | some source =>
      simp only [load]
      cases Options.machine { language := .value language } host.room source with
      | error exit => rfl
      | ok machine => rfl

theorem parse_language (language : Language) :
    Options.parse ["-l", language.name] =
      .ok { language := .value language } := by
  cases language <;> rfl

/-- A script comes to the same as a launch that is asked for its language and for
nothing else. -/
theorem report_of_script (host : Host) (language : Language)
    (plain : path.toList.head? ≠ some '-') (offers : host.Offers path bytes)
    (fuel : Nat) :
    (ofScript host language [path]).report host fuel =
      (ofCommandLine host ["-l", language.name, path]).report host fuel := by
  have named := Options.parse_append_plain (parse_language language) rfl plain
  have launched := ofCommandLine_of_offers offers named rfl
  rw [ofScript_of_offers language offers]
  exact congrArg (report host fuel) launched.symm

/-- A form feed is no line end, and the last line has none. -/
theorem report_of_script_of_form_feed :
    let bytes : List UInt8 := [118, 12, 13, 10, 55, 13, 62, 46, 64]
    let host : Host := { openFile := fun _ => .ok bytes }
    "program".toList.head? ≠ some '-' ∧ host.Offers "program" bytes ∧
      (ofScript host .befunge ["program"]).report host 9 =
        some { exit := .ran .quit, output := "7 ", errors := "" } ∧
      (ofScript host .befunge ["program"]).report host 9 =
        (ofCommandLine host ["-l", Language.befunge.name, "program"]).report
          host 9 := by
  intro bytes host
  have plain : "program".toList.head? ≠ some '-' := by decide
  have offers : host.Offers "program" bytes := ⟨by decide, rfl⟩
  exact ⟨plain, offers, by decide +kernel,
    report_of_script host .befunge plain offers 9⟩

end Launch

end Esoteric
