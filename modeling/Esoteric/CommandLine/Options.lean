import Esoteric.CommandLine.Token
import Esoteric.Language
import Esoteric.Playfield.Load

namespace Esoteric

/-- A setting is void when two hyphens stand for its value. -/
inductive Setting (α : Type) where
  | value (value : α)
  | void
deriving DecidableEq, Repr, Inhabited

structure Options where
  program : Option String := none
  language : Setting Language := .value .befunge
  edge : Option Edge := none
  width : Setting Int := .value Playfield.standardWidth
  maxCycles : Option (Setting Int) := none
  verbose : Bool := false
deriving DecidableEq, Repr, Inhabited

namespace Options

def withEdge (options : Options) (edge : Edge) : Except Refusal Options :=
  if options.edge = none ∨ options.edge = some edge then
    .ok { options with edge := some edge }
  else
    .error .strictAndSilent

def enable (options : Options) : Switch → Except Refusal Options
  | .help => .error .helpAsked
  | .strict => options.withEdge .strict
  | .silent => options.withEdge (.silent 32)
  | .verbose => .ok { options with verbose := true }
  | switch => .error (.valueMissing switch)

def setting (switch : Switch) (read : List Char → Option α) (text : List Char) :
    Except Refusal (Setting α) :=
  if text = ['-', '-'] then
    .ok .void
  else
    match read text with
    | some value => .ok (.value value)
    | none => .error (.valueRefused switch text)

def assign (options : Options) (switch : Switch) (text : List Char) :
    Except Refusal Options :=
  match switch with
  | .language => do
      let read text := Language.ofName? (String.ofList text)
      return { options with language := ← setting switch read text }
  | .width => do
      return { options with width := ← setting switch Numeral.integer? text }
  | .maxCycles => do
      let limit ← setting switch Numeral.integer? text
      return { options with maxCycles := some limit }
  | _ => .error (.valueUnwanted switch)

/-- Later tokens override earlier ones. The program may have two hyphens beside
it, but no hyphens stand apart from it. -/
def follow (options : Options) : List Token → Except Refusal Options
  | [] => .ok options
  | .operand word :: .terminator :: tokens =>
      if options.program.isSome then
        .error (.surplus word)
      else
        follow { options with program := some (String.ofList word) } tokens
  | .operand word :: tokens =>
      if options.program.isSome then
        .error (.surplus word)
      else
        follow { options with program := some (String.ofList word) } tokens
  | .terminator :: tokens =>
      if options.program.isSome then
        .error (.surplus ['-', '-'])
      else
        follow options tokens
  | .option switch (some value) :: tokens => do
      follow (← options.assign switch value) tokens
  | .option switch none :: .operand value :: tokens => do
      if switch.takesValue then
        follow (← options.assign switch value) tokens
      else
        follow (← options.enable switch) (.operand value :: tokens)
  | .option switch none :: tokens => do
      follow (← options.enable switch) tokens

def parse (words : List String) : Except Refusal Options := do
  follow {} (← Token.ofWords (words.map String.toList))

end Options

end Esoteric
