namespace Esoteric

structure Tape where
  cells : Array Int
deriving DecidableEq, Repr, Inhabited

namespace Tape

def blank : Tape := ⟨#[]⟩

/-- Indexes from zero up take the even slots, negative ones the odd slots. -/
def slot (index : Int) : Nat :=
  if 0 ≤ index then (2 * index).toNat else (-2 * index - 1).toNat

def index (slot : Int) : Int :=
  if slot % 2 = 0 then slot / 2 else -(slot + 1) / 2

def read (tape : Tape) (index : Int) : Int :=
  tape.cells[slot index]?.getD 0

/-- Only a write extends the cells, by zeros up to the slot it needs. -/
def write (tape : Tape) (index value : Int) : Tape :=
  let missing := slot index + 1 - tape.cells.size
  ⟨(tape.cells ++ Array.replicate missing 0).setIfInBounds (slot index) value⟩

@[simp] theorem read_blank (index : Int) : blank.read index = 0 := by
  simp [read, blank]

theorem index_slot (position : Int) : index (slot position) = position := by
  unfold index slot
  split <;> split <;> omega

theorem slot_injective {first second : Int} (same : slot first = slot second) :
    first = second := by
  rw [← index_slot first, same, index_slot]

end Tape

end Esoteric
