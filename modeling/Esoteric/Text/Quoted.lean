import Esoteric.Text.Printable

namespace Esoteric

namespace Quoted

/-- Double quotes serve only a text with an apostrophe and no double quote. -/
def mark (text : List Char) : Char :=
  if '\'' ∈ text ∧ '"' ∉ text then '"' else '\''

def hexadecimal : (digits : Nat) → (number : Nat) → List Char
  | 0, _ => []
  | digits + 1, number =>
      hexadecimal digits (number / 16) ++ [Nat.digitChar (number % 16)]

def escape (mark c : Char) : List Char :=
  if c = mark ∨ c = '\\' then ['\\', c]
  else if c = '\n' then ['\\', 'n']
  else if c = '\r' then ['\\', 'r']
  else if c = '\t' then ['\\', 't']
  else if Printable.isPrintable c then [c]
  else if c.toNat < 0x100 then '\\' :: 'x' :: hexadecimal 2 c.toNat
  else if c.toNat < 0x10000 then '\\' :: 'u' :: hexadecimal 4 c.toNat
  else '\\' :: 'U' :: hexadecimal 8 c.toNat

/-- A text between quotes, with only printable characters as they are. -/
def encode (text : List Char) : String :=
  String.ofList (mark text :: text.flatMap (escape (mark text)) ++ [mark text])

end Quoted

end Esoteric
