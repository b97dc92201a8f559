namespace Esoteric

inductive Switch where
  | help
  | language
  | strict
  | silent
  | width
  | maxCycles
  | verbose
deriving DecidableEq, Repr

namespace Switch

def all : List Switch :=
  [help, language, strict, silent, width, maxCycles, verbose]

def spelling : Switch → String
  | help => "--help"
  | language => "--lang"
  | strict => "--strict"
  | silent => "--silent"
  | width => "--width"
  | maxCycles => "--max-cycles"
  | verbose => "--verbose"

def letter? : Switch → Option Char
  | help => some 'h'
  | language => some 'l'
  | width => some 'w'
  | verbose => some 'v'
  | _ => none

def takesValue : Switch → Bool
  | language => true
  | width => true
  | maxCycles => true
  | _ => false

def ofLetter? (letter : Char) : Option Switch :=
  all.find? fun switch => switch.letter? = some letter

def startingWith (start : List Char) : List Switch :=
  all.filter fun switch => start.isPrefixOf switch.spelling.toList

end Switch

end Esoteric
