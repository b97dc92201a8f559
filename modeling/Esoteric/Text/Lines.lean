namespace Esoteric

namespace Lines

/-- Cuts a text at each line feed; a final line feed starts no further line. -/
def split : List Char → List (List Char)
  | [] => []
  | '\n' :: text => [] :: split text
  | c :: text =>
      match split text with
      | [] => [[c]]
      | line :: lines => (c :: line) :: lines

/-- Carriage returns count as line ends only at the end of a line. -/
def endsLine (c : Char) : Bool :=
  c = '\r' || c = '\n'

/-- The lines of an open file, one after another. Each ends in a line feed, whatever
ends it in the file, and only the last may lack it. -/
def ofFile : List Char → List (List Char)
  | [] => []
  | '\r' :: '\n' :: text => ['\n'] :: ofFile text
  | c :: text =>
      if endsLine c then
        ['\n'] :: ofFile text
      else
        match ofFile text with
        | [] => [[c]]
        | line :: lines => (c :: line) :: lines

def trimEnd (line : List Char) : List Char :=
  (line.reverse.dropWhile endsLine).reverse

@[simp] theorem split_nil : split [] = [] := rfl

@[simp] theorem split_lineFeed (text : List Char) :
    split ('\n' :: text) = [] :: split text := rfl

end Lines

end Esoteric
