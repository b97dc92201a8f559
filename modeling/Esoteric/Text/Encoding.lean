import Esoteric.Text.Lines
import Esoteric.Text.Newline

namespace Esoteric

inductive Encoding where
  | utf8
  | latin1
deriving DecidableEq, Repr, Inhabited

namespace Encoding

/-- Latin-1 takes each byte for a code point; UTF-8 refuses what no text encodes. -/
def decode : Encoding → List UInt8 → Option (List Char)
  | utf8, bytes => (String.fromUTF8? bytes.toByteArray).map String.toList
  | latin1, bytes => some (bytes.map fun byte => Char.ofNat byte.toNat)

def decodeSource (encoding : Encoding) (bytes : List UInt8) :
    Option (List Char) :=
  (encoding.decode bytes).map Newline.unify

def readText (encoding : Encoding) (bytes : List UInt8) :
    Option (List Char) :=
  (encoding.decode bytes).map Newline.translate

def readLines (encoding : Encoding) (bytes : List UInt8) :
    Option (List (List Char)) :=
  (encoding.decode bytes).map Lines.ofFile

theorem decode_latin1 (bytes : List UInt8) :
    latin1.decode bytes = some (bytes.map fun byte => Char.ofNat byte.toNat) := rfl

end Encoding

end Esoteric
