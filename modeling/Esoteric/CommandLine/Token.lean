import Esoteric.CommandLine.Switch
import Esoteric.Text.Numeral

namespace Esoteric

inductive Refusal where
  | helpAsked
  | ambiguous (word : List Char)
  | unknown (word : List Char)
  | surplus (word : List Char)
  | valueMissing (switch : Switch)
  | valueUnwanted (switch : Switch)
  | valueRefused (switch : Switch) (value : List Char)
  | strictAndSilent
deriving DecidableEq, Repr

namespace Refusal

/-- Only a question for help is no mistake. -/
def status : Refusal → Nat
  | helpAsked => 0
  | _ => 2

def usage : String :=
  "usage: [-h] [-l LANGUAGE] [--strict | --silent] [-w WIDTH]\n" ++
    "       [--max-cycles N] [-v] [program]"

def message : Refusal → String
  | helpAsked => usage
  | ambiguous word =>
      usage ++ "\nambiguous option: " ++ String.ofList word
  | unknown word => usage ++ "\nunknown option: " ++ String.ofList word
  | surplus word => usage ++ "\nsurplus word: " ++ String.ofList word
  | valueMissing switch =>
      usage ++ "\n" ++ switch.spelling ++ " needs a value"
  | valueUnwanted switch =>
      usage ++ "\n" ++ switch.spelling ++ " takes no value"
  | valueRefused switch value =>
      usage ++ "\n" ++ switch.spelling ++ " refuses " ++ String.ofList value
  | strictAndSilent => usage ++ "\n--strict and --silent exclude each other"

end Refusal

inductive Token where
  | operand (word : List Char)
  | terminator
  | option (switch : Switch) (value : Option (List Char))
deriving DecidableEq, Repr

namespace Token

def isDigit (c : Char) : Bool :=
  (Numeral.digit? c).isSome

def isDecimal (text : List Char) : Bool :=
  match text.dropWhile isDigit with
  | [] => !text.isEmpty
  | '.' :: fraction => !fraction.isEmpty && fraction.all isDigit
  | _ => false

/-- A negative number is no option; a line feed may follow it. -/
def isNegative (word : List Char) : Bool :=
  match word with
  | '-' :: text =>
      isDecimal (if text.getLast? = some '\n' then text.dropLast else text)
  | _ => false

def assignment (word : List Char) : List Char × Option (List Char) :=
  match word.dropWhile (· ≠ '=') with
  | [] => (word, none)
  | _ :: value => (word.takeWhile (· ≠ '='), some value)

def assigned (switch : Switch) (value : List Char) :
    Except Refusal (List Token) :=
  if switch.takesValue then
    .ok [.option switch (some value)]
  else
    .error (.valueUnwanted switch)

/-- What stands behind a letter is its value or gives further letters. -/
def ofLetters (switch : Switch) : List Char → Except Refusal (List Token)
  | [] => .ok [.option switch none]
  | c :: rest =>
      if switch.takesValue then
        assigned switch (c :: rest)
      else
        match Switch.ofLetter? c with
        | some following =>
            (ofLetters following rest).map (.option switch none :: ·)
        | none => .error (.unknown (c :: rest))

/-- One equals sign may stand behind the first letter of a word. -/
def ofFirstLetter (switch : Switch) : List Char → Except Refusal (List Token)
  | ['='] => assigned switch []
  | '=' :: rest => ofLetters switch rest
  | rest => ofLetters switch rest

/-- A word like an option that is none may still be a number or have a space. -/
def ofUnmatched (word : List Char) : Except Refusal (List Token) :=
  if isNegative word || ' ' ∈ word then
    .ok [.operand word]
  else
    .error (.unknown word)

/-- A full spelling may be cut short as long as one option alone starts so. -/
def ofLong (word : List Char) : Except Refusal (List Token) :=
  let (start, value) := assignment word
  match Switch.startingWith start, value with
  | [], _ => ofUnmatched word
  | [switch], none => .ok [.option switch none]
  | [switch], some value => assigned switch value
  | _, _ => .error (.ambiguous word)

def ofWord (word : List Char) : Except Refusal (List Token) :=
  match word with
  | '-' :: '-' :: _ => ofLong word
  | '-' :: c :: rest =>
      match Switch.ofLetter? c with
      | some switch => ofFirstLetter switch rest
      | none => ofUnmatched word
  | _ => .ok [.operand word]

def ofWords : List (List Char) → Except Refusal (List Token)
  | [] => .ok []
  | word :: words =>
      if word = ['-', '-'] then
        .ok (.terminator :: words.map .operand)
      else do
        let tokens ← ofWord word
        let later ← ofWords words
        return tokens ++ later

end Token

end Esoteric
