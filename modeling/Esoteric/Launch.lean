import Esoteric.CommandLine.Options
import Esoteric.Session

namespace Esoteric

inductive Obstacle where
  | missing
  | denied
  | notDirectory
  | isDirectory
  | nameTooLong
deriving DecidableEq, Repr

def Obstacle.describe : Obstacle → String
  | .missing => "[Errno 2] No such file or directory"
  | .denied => "[Errno 13] Permission denied"
  | .notDirectory => "[Errno 20] Not a directory"
  | .isDirectory => "[Errno 21] Is a directory"
  | .nameTooLong => "[Errno 36] File name too long"

/-- What a launch finds around it: files, input and draws, whether there is room for
rows of some lengths, and the lines that follow on a report that cannot be told. -/
structure Host where
  openFile : String → Except Obstacle (List UInt8)
  standardInput : List UInt8 := []
  chance : Chance := default
  room : List Nat → Bool := fun _ => true
  traceback : Diagnostic → List String := fun _ => []

def Host.lines (host : Host) (diagnostic : Diagnostic) : List String :=
  match diagnostic.text? with
  | some text => [text]
  | none => "--- Logging error ---" :: host.traceback diagnostic

inductive Exit where
  | ran (ending : Ending)
  | refused (cause : Refusal)
  | noProgram
  | nulInPath
  | unreadable (path : String) (obstacle : Obstacle)
  | notOpened (obstacle : Obstacle)
  | undecodable
  | voidSetting (switch : Switch)
  | excess (cause : Excess)
deriving DecidableEq, Repr

/-- A launch that has ended before its first cycle, or a session to be run. -/
inductive Launch where
  | ended (exit : Exit) (diagnostics : Array Diagnostic)
  | ready (session : Session) (limit : Option Int)

structure Report where
  exit : Exit
  output : String
  errors : String
deriving DecidableEq, Repr

namespace Exit

def status : Exit → Nat
  | ran .finished => 0
  | ran .quit => 0
  | refused cause => cause.status
  | _ => 1

def notice? : Exit → Option String
  | refused cause => some cause.message
  | noProgram => some "no program is named"
  | nulInPath => some "the name of the program holds a NUL"
  | unreadable path obstacle =>
      some ("The file specified is invalid: " ++ obstacle.describe ++ ": " ++
        Quoted.encode path.toList)
  | notOpened obstacle => some obstacle.describe
  | undecodable => some "the program is not in its encoding"
  | voidSetting switch => some (switch.spelling ++ " has no value")
  | excess _ => some "the rows of the program are too long"
  | ran (.failed cause) =>
      if cause.raised = .overlong then
        some "a number has too many digits to be shown"
      else
        none
  | ran _ => none

end Exit

namespace Options

/-- A program of no known language is read as text. -/
def encoding (options : Options) : Encoding :=
  match options.language with
  | .value language => language.encoding
  | .void => .utf8

/-- The machine for a program; a width matters only where there are rows. -/
def machine (options : Options) (room : List Nat → Bool) (source : List Char) :
    Except Exit Machine :=
  match options.language, options.width with
  | .void, _ => .error (.voidSetting .language)
  | .value .brainfuck, _ => .ok (.ofSource .brainfuck source 0 options.edge)
  | .value .befunge, .value width =>
      (Machine.loadRows room .befunge (Lines.split source) width
        options.edge).mapError .excess
  | .value .argh, .value width =>
      (Machine.loadRows room .argh (Lines.split source) width
        options.edge).mapError .excess
  | .value language, .void =>
      if source.isEmpty then
        .ok (.ofSource language source 0 options.edge)
      else
        .error (.voidSetting .width)

/-- The limit of a run; a void one is not missed where there is nothing to run. -/
def limit (options : Options) (machine : Machine) : Except Exit (Option Int) :=
  match options.maxCycles with
  | none => .ok none
  | some (.value limit) => .ok (some limit)
  | some .void =>
      if machine.finished then .ok none else .error (.voidSetting .maxCycles)

end Options

namespace Launch

def load (host : Host) (options : Options) (source? : Option (List Char))
    (input : List UInt8) (diagnostics : Array Diagnostic) : Launch :=
  match source? with
  | none => ended .undecodable diagnostics
  | some source =>
      let plan := do
        let machine ← options.machine host.room source
        return (machine, ← options.limit machine)
      match plan with
      | .error exit => ended exit diagnostics
      | .ok (machine, limit) =>
          ready
            { machine :=
                (machine.withInput (.ofBytes input)).withChance host.chance
              traced := options.verbose
              diagnostics }
            limit

/-- Opens a program and goes on with its bytes; no path holds a NUL. -/
def openProgram (host : Host) (path : String) (problem : Obstacle → Exit)
    (start : List UInt8 → Launch) : Launch :=
  if '\x00' ∈ path.toList then
    ended .nulInPath #[]
  else
    match host.openFile path with
    | .error obstacle => ended (problem obstacle) #[]
    | .ok bytes => start bytes

/-- A program that is read from standard input leaves no input to itself. -/
def ofOptions (host : Host) (options : Options) : Launch :=
  match options.program with
  | some path =>
      openProgram host path (.unreadable path) fun bytes =>
        load host options (options.encoding.readText bytes)
          host.standardInput #[]
  | none =>
      load host options (options.encoding.decodeSource host.standardInput) []
        #[.sourceExpected]

def ofCommandLine (host : Host) (words : List String) : Launch :=
  match Options.parse words with
  | .ok options => ofOptions host options
  | .error cause => ended (.refused cause) #[]

/-- The machine that a script makes of a program, which it reads line by line where
there are rows. -/
def scriptMachine (room : List Nat → Bool) (language : Language)
    (bytes : List UInt8) : Except Exit Machine :=
  match language with
  | .befunge => rows .befunge
  | .argh => rows .argh
  | .brainfuck =>
      match language.encoding.readText bytes with
      | none => .error .undecodable
      | some source => .ok (.tape { program := source.toArray })
where
  rows (dialect : Grid.Dialect) : Except Exit Machine :=
    match language.encoding.readLines bytes with
    | none => .error .undecodable
    | some lines =>
        (Machine.loadRows room dialect lines Playfield.standardWidth
          none).mapError .excess

def ofScript (host : Host) (language : Language) (words : List String) :
    Launch :=
  match words with
  | path :: _ =>
      openProgram host path .notOpened fun bytes =>
        match scriptMachine host.room language bytes with
        | .error exit => ended exit #[]
        | .ok machine =>
            ready
              { machine := (machine.withInput
                  (.ofBytes host.standardInput)).withChance host.chance }
              none
  | [] => ended .noProgram #[]

def render (host : Host) (diagnostics : Array Diagnostic) : String :=
  diagnostics.foldl (fun text diagnostic =>
    (host.lines diagnostic).foldl (fun text line => text ++ line ++ "\n") text) ""

def report (host : Host) (fuel : Nat) : Launch → Option Report
  | ended exit diagnostics =>
      some { exit, output := "", errors := render host diagnostics }
  | ready session limit =>
      (session.run limit fuel).map fun (ending, reached) =>
        { exit := .ran ending
          output := reached.machine.output
          errors := render host reached.diagnostics }

end Launch

end Esoteric
