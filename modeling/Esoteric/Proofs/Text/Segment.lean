import Esoteric.Proofs.Text.LineEnd

/-! The lines of a text, told by its line feeds. -/

namespace Esoteric.Lines

variable {line text remainder : List Char} {segments : List (List Char)}
  {c : Char}

/-- A text consists of segments that end in line feeds, and of what is left behind
the last of them. -/
structure Segmented (text : List Char) (segments : List (List Char))
    (remainder : List Char) : Prop where
  whole : text = segments.flatMap (· ++ ['\n']) ++ remainder
  unbroken : ∀ segment ∈ segments, '\n' ∉ segment
  last : '\n' ∉ remainder

/-- What is left behind the last line feed is a line, unless it is empty. -/
def unended (remainder : List Char) : List (List Char) :=
  if remainder = [] then [] else [remainder]

def withReturns (text : List Char) : List Char :=
  text.flatMap fun c => if c = '\n' then ['\r', '\n'] else [c]

theorem exists_segmented (text : List Char) :
    ∃ segments remainder, Segmented text segments remainder := by
  induction text with
  | nil => exact ⟨[], [], rfl, nofun, List.not_mem_nil⟩
  | cons c text induction =>
      obtain ⟨segments, remainder, rfl, unbroken, last⟩ := induction
      by_cases ends : c = '\n'
      · subst ends
        refine ⟨[] :: segments, remainder, rfl, ?_, last⟩
        exact List.forall_mem_cons.2 ⟨List.not_mem_nil, unbroken⟩
      · cases segments with
        | nil =>
            exact ⟨[], c :: remainder, rfl, nofun,
              List.not_mem_cons_of_ne_of_not_mem (Ne.symm ends) last⟩
        | cons segment segments =>
            obtain ⟨first, rest⟩ := List.forall_mem_cons.1 unbroken
            refine ⟨(c :: segment) :: segments, remainder, rfl, ?_, last⟩
            exact List.forall_mem_cons.2
              ⟨List.not_mem_cons_of_ne_of_not_mem (Ne.symm ends) first, rest⟩

theorem split_line (single : '\n' ∉ line) (text : List Char) :
    split (line ++ '\n' :: text) = line :: split text := by
  induction line with
  | nil => rfl
  | cons c line induction =>
      have ordinary := List.ne_of_not_mem_cons single
      have remaining := List.not_mem_of_not_mem_cons single
      rw [List.cons_append, split_cons (Ne.symm ordinary), induction remaining]

theorem split_segments (unbroken : ∀ segment ∈ segments, '\n' ∉ segment)
    (text : List Char) :
    split (segments.flatMap (· ++ ['\n']) ++ text) = segments ++ split text := by
  induction segments with
  | nil => rfl
  | cons segment segments induction =>
      obtain ⟨first, rest⟩ := List.forall_mem_cons.1 unbroken
      rw [List.flatMap_cons, List.append_assoc, List.append_assoc,
        List.singleton_append, split_line first, induction rest]
      rfl

theorem split_of_unended (last : '\n' ∉ remainder) :
    split remainder = unended remainder := by
  rw [unended]
  split
  · rename_i empty
    rw [empty, split_nil]
  · rename_i filled
    exact split_of_newline_not_mem filled last

theorem Segmented.split (segmented : Segmented text segments remainder) :
    split text = segments ++ unended remainder := by
  rw [segmented.whole, split_segments segmented.unbroken,
    split_of_unended segmented.last]

theorem split_append_lineFeed (text later : List Char) :
    Lines.split (text ++ '\n' :: later) =
      Lines.split (text ++ ['\n']) ++ Lines.split later := by
  obtain ⟨segments, remainder, rfl, unbroken, last⟩ := exists_segmented text
  have parted (later : List Char) :
      segments.flatMap (· ++ ['\n']) ++ remainder ++ '\n' :: later =
        (segments ++ [remainder]).flatMap (· ++ ['\n']) ++ later := by
    simp only [List.flatMap_append, List.flatMap_singleton, List.append_assoc,
      List.singleton_append]
  have ended : ∀ segment ∈ segments ++ [remainder], '\n' ∉ segment :=
    List.forall_mem_append.2 ⟨unbroken, List.forall_mem_singleton.2 last⟩
  rw [parted, parted [], split_segments ended, split_segments ended, split_nil,
    List.append_nil]

theorem withReturns_append (first second : List Char) :
    withReturns (first ++ second) = withReturns first ++ withReturns second :=
  List.flatMap_append

theorem withReturns_of_unbroken (single : '\n' ∉ line) :
    withReturns line = line := by
  induction line with
  | nil => rfl
  | cons c line induction =>
      have ordinary := List.ne_of_not_mem_cons single
      have remaining := List.not_mem_of_not_mem_cons single
      rw [withReturns, List.flatMap_cons, if_neg (Ne.symm ordinary)]
      exact congrArg (c :: ·) (induction remaining)

theorem Segmented.withReturns (segmented : Segmented text segments remainder) :
    Segmented (withReturns text) (segments.map (· ++ ['\r'])) remainder := by
  obtain ⟨rfl, unbroken, last⟩ := segmented
  refine ⟨?_, ?_, last⟩
  · induction segments with
    | nil => exact withReturns_of_unbroken last
    | cons segment segments induction =>
        obtain ⟨first, rest⟩ := List.forall_mem_cons.1 unbroken
        have ended : Lines.withReturns (segment ++ ['\n']) =
            segment ++ ['\r'] ++ ['\n'] := by
          rw [withReturns_append, withReturns_of_unbroken first,
            List.append_assoc]
          rfl
        rw [List.flatMap_cons, List.append_assoc, withReturns_append, ended,
          induction rest, List.map_cons, List.flatMap_cons]
        exact (List.append_assoc ..).symm
  · intro segment member
    obtain ⟨shorter, among, rfl⟩ := List.mem_map.1 member
    rw [List.mem_append, not_or]
    exact ⟨unbroken shorter among, by decide⟩

theorem trimEnd_append_of_ends (line : List Char) (ends : endsLine c = true) :
    trimEnd (line ++ [c]) = trimEnd line :=
  List.rdropWhile_concat_pos endsLine line c ends

end Esoteric.Lines
