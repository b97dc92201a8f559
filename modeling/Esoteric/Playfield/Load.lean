import Esoteric.Playfield.Basic
import Esoteric.Text.Lines

namespace Esoteric

inductive Excess where
  | uncountable
  | unstorable
deriving DecidableEq, Repr

namespace Playfield

def standardWidth : Int := 80

/-- The start of a line; a negative width counts the characters to drop. -/
def cut (width : Int) (line : List Char) : List Char :=
  match width with
  | .ofNat width => line.take width
  | .negSucc excess => line.take (line.length - (excess + 1))

def layRow (width : Int) (filler : Char) (line : List Char) : List Int :=
  let kept := (cut width (Lines.trimEnd line)).map fun c => (c.toNat : Int)
  kept ++ List.replicate (width - kept.length).toNat (filler.toNat : Int)

def ofLines (lines : List (List Char)) (width : Int) (filler : Char)
    (edge : Edge) : Playfield :=
  ⟨(lines.map fun line => (layRow width filler line).toArray).toArray, edge⟩

def ofText (text : List Char) (width : Int) (filler : Char) (edge : Edge) :
    Playfield :=
  ofLines (Lines.split text) width filler edge

/-- What the host has no means for when it lays out lines behind rows of the given
lengths, the last one first. Numbers of cells are counted in signed 64-bit words. -/
def excess? (room : List Nat → Bool) (width : Int) :
    (stored : List Nat) → (lines : List (List Char)) → Option Excess
  | _, [] => none
  | stored, line :: lines =>
      let kept := (cut width (Lines.trimEnd line)).length
      let missing := width - kept
      let stored := (kept + missing.toNat) :: stored
      if missing < -0x8000000000000000 ∨ 0x8000000000000000 ≤ missing then
        some .uncountable
      else if room stored then
        excess? room width stored lines
      else
        some .unstorable

def load (room : List Nat → Bool) (lines : List (List Char)) (width : Int)
    (filler : Char) (edge : Edge) : Except Excess Playfield :=
  match excess? room width [] lines with
  | some cause => .error cause
  | none => .ok (ofLines lines width filler edge)

theorem length_layRow {width : Int} (wide : 0 ≤ width) (filler : Char)
    (line : List Char) : ((layRow width filler line).length : Int) = width := by
  obtain ⟨columns, rfl⟩ := Int.eq_ofNat_of_zero_le wide
  simp only [layRow, cut, List.length_append, List.length_replicate,
    List.length_map, List.length_take]
  omega

end Playfield

end Esoteric
