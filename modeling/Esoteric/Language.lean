import Esoteric.Text.Encoding

namespace Esoteric

inductive Language where
  | argh
  | befunge
  | brainfuck
deriving DecidableEq, Repr, Inhabited

namespace Language

def all : List Language :=
  [argh, befunge, brainfuck]

def name : Language → String
  | argh => "argh"
  | befunge => "befunge"
  | brainfuck => "bf"

def ofName? (name : String) : Option Language :=
  all.find? fun language => language.name = name

/-- Brainfuck programs are byte streams, playfields are text. -/
def encoding : Language → Encoding
  | argh => .utf8
  | befunge => .utf8
  | brainfuck => .latin1

theorem ofName?_name (language : Language) :
    ofName? language.name = some language := by
  cases language <;> decide

end Language

end Esoteric
