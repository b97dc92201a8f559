namespace Esoteric

namespace Newline

def joinPairs : List Char → List Char
  | [] => []
  | '\r' :: '\n' :: text => '\n' :: joinPairs text
  | c :: text => c :: joinPairs text

def replaceReturn (c : Char) : Char :=
  if c = '\r' then '\n' else c

def unify (text : List Char) : List Char :=
  (joinPairs text).map replaceReturn

/-- Reads a text as it comes: a carriage return is a line end, and takes the line
feed behind it along. -/
def translate : List Char → List Char
  | [] => []
  | '\r' :: '\n' :: text => '\n' :: translate text
  | '\r' :: text => '\n' :: translate text
  | c :: text => c :: translate text

theorem replaceReturn_ne (c : Char) : replaceReturn c ≠ '\r' := by
  unfold replaceReturn
  split
  · decide
  · assumption

theorem return_not_mem_unify (text : List Char) : '\r' ∉ unify text := by
  intro member
  obtain ⟨c, _, same⟩ := List.mem_map.1 member
  exact replaceReturn_ne c same

end Newline

end Esoteric
