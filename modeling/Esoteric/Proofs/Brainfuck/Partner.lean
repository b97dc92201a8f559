import Mathlib.Order.Bounds.Basic
import Esoteric.Proofs.Brainfuck.Matching

namespace Esoteric.Brainfuck

variable {enter leave c : Char} {depth later length place other : Nat}
  {text : List Char}

/-- The lengths after which the next character of a text leaves one loop more
than the depth. -/
def departures (enter leave : Char) (depth : Nat) (text : List Char) :
    Set Nat :=
  {length | length < text.length ∧
    (text.take (length + 1)).count leave =
      (text.take (length + 1)).count enter + depth + 1}

theorem succ_mem_departures
    (shift : [c].count leave + later = [c].count enter + depth) :
    length + 1 ∈ departures enter leave depth (c :: text) ↔
      length ∈ departures enter leave later text := by
  have count_cons (symbol : Char) :
      (c :: text.take (length + 1)).count symbol =
        [c].count symbol + (text.take (length + 1)).count symbol :=
    (List.count_append : ([c] ++ _).count symbol = _)
  simp only [departures, Set.mem_ofPred_eq, List.length_cons,
    List.take_succ_cons, count_cons]
  omega

theorem isLeast_departures_cons
    (shift : [c].count leave + later = [c].count enter + depth) :
    IsLeast (departures enter leave depth (c :: text)) length ↔
      ∃ rest, IsLeast (departures enter leave later text) rest ∧
        rest + 1 = length := by
  have notFirst : 0 ∉ departures enter leave depth (c :: text) := by
    simp only [departures, Set.mem_ofPred_eq,
      List.take_succ_cons, List.take_zero]
    omega
  constructor
  · rintro ⟨departs, least⟩
    cases length with
    | zero => exact absurd departs notFirst
    | succ rest =>
        refine ⟨rest, ⟨(succ_mem_departures shift).1 departs, ?_⟩, rfl⟩
        intro other otherDeparts
        exact Nat.le_of_succ_le_succ
          (least ((succ_mem_departures shift).2 otherDeparts))
  · rintro ⟨rest, ⟨departs, least⟩, rfl⟩
    refine ⟨(succ_mem_departures shift).2 departs, ?_⟩
    intro other otherDeparts
    cases other with
    | zero => exact absurd otherDeparts notFirst
    | succ other =>
        exact Nat.succ_le_succ
          (least ((succ_mem_departures shift).1 otherDeparts))

theorem unwinding?_eq_some_iff (distinct : enter ≠ leave) :
    unwinding? enter leave depth text = some length ↔
      IsLeast (departures enter leave depth text) length := by
  induction text generalizing depth length with
  | nil =>
      constructor
      · intro found
        contradiction
      · rintro ⟨⟨within, _⟩, _⟩
        exact absurd within (Nat.not_lt_zero length)
  | cons c text induction =>
      have further (later : Nat)
          (shift : [c].count leave + later = [c].count enter + depth) :
          (unwinding? enter leave later text).map (· + 1) = some length ↔
            IsLeast (departures enter leave depth (c :: text)) length := by
        simp only [isLeast_departures_cons shift, Option.map_eq_some_iff,
          induction]
      by_cases leaves : c = leave
      · subst leaves
        cases depth with
        | zero =>
            have first : IsLeast (departures enter c 0 (c :: text)) 0 := by
              refine ⟨⟨Nat.succ_pos _, ?_⟩, fun _ _ => Nat.zero_le _⟩
              simp [distinct.symm]
            simp only [unwinding?, if_true, Option.some.injEq,
              first.isLeast_iff_eq]
        | succ depth =>
            simp only [unwinding?, if_true]
            apply further
            simp [distinct.symm, Nat.add_comm]
      · by_cases enters : c = enter
        · subst enters
          simp only [unwinding?, if_neg leaves, if_true]
          apply further
          simp [leaves, Nat.add_comm]
        · simp only [unwinding?, if_neg leaves, if_neg enters]
          apply further
          simp [leaves, enters]

namespace Program

variable {program : Program} {opening closing : Nat}

/-- From one place to another, both included, as many loops end as begin. -/
def HasEvenBrackets (program : Program) (first last : Nat) : Prop :=
  (program.extract first (last + 1)).count ']' =
    (program.extract first (last + 1)).count '['

/-- Forward from an opening bracket, the place where the numbers of brackets are
even for the first time. -/
def Closes (program : Program) (opening closing : Nat) : Prop :=
  IsLeast {place | opening < place ∧ place < program.size ∧
    program.HasEvenBrackets opening place} closing

/-- Backward from a closing bracket, the place where the numbers of brackets are
even for the first time. -/
def Opens (program : Program) (closing opening : Nat) : Prop :=
  IsGreatest {place | place < closing ∧ program.HasEvenBrackets place closing} opening

/-- The part from an opening bracket on is even where what follows the bracket
has ended one loop more. -/
theorem even_after_iff (bracket : program[opening]? = some '[')
    (length : Nat) :
    (opening + 1 + length < program.size ∧
        program.HasEvenBrackets opening (opening + 1 + length)) ↔
      length ∈ departures '[' ']' 0 (program.toList.drop (opening + 1)) := by
  obtain ⟨within, atOpening⟩ := Array.getElem?_eq_some_iff.1 bracket
  have part : (program.extract opening (opening + 1 + length + 1)).toList =
      '[' :: (program.toList.drop (opening + 1)).take (length + 1) := by
    have bound : opening < program.toList.length := within
    have shift : opening + 1 + length + 1 - opening = length + 1 + 1 := by
      omega
    rw [Array.toList_extract, List.extract_eq_take_drop, shift,
      List.drop_eq_getElem_cons bound, Array.getElem_toList, atOpening,
      List.take_succ_cons]
  have count_part (c : Char) :
      (program.extract opening (opening + 1 + length + 1)).count c =
        ('[' :: (program.toList.drop (opening + 1)).take (length + 1)).count c := by
    rw [← part, Array.count_toList]
  simp only [HasEvenBrackets, count_part, departures, Set.mem_ofPred_eq,
    List.length_drop, Array.length_toList, List.count_cons_self,
    List.count_cons_of_ne (show '[' ≠ ']' by decide)]
  omega

theorem even_before_iff (bracket : program[closing]? = some ']')
    (length : Nat) :
    (length < closing ∧ program.HasEvenBrackets (closing - 1 - length) closing) ↔
      length ∈ departures ']' '[' 0 (program.toList.take closing).reverse := by
  obtain ⟨within, atClosing⟩ := Array.getElem?_eq_some_iff.1 bracket
  have bound : closing < program.toList.length := within
  have size : (program.toList.take closing).length = closing := by
    rw [List.length_take]
    omega
  simp only [departures, Set.mem_ofPred_eq, List.length_reverse, size]
  apply and_congr_right
  intro behind
  have start : closing - (length + 1) = closing - 1 - length := by omega
  have part : (program.extract (closing - 1 - length) (closing + 1)).toList =
      (program.toList.take closing).drop (closing - 1 - length) ++ [']'] := by
    rw [Array.toList_extract, List.extract_eq_take_drop, ← List.drop_take,
      List.take_succ_eq_append_getElem bound, Array.getElem_toList, atClosing,
      List.drop_append_of_le_length (by omega)]
  have count_part (c : Char) :
      (program.extract (closing - 1 - length) (closing + 1)).count c =
        ((program.toList.take closing).reverse.take (length + 1)).count c +
          [']'].count c := by
    rw [List.take_reverse, size, start, List.count_reverse,
      ← List.count_append, ← part, Array.count_toList]
  simp only [HasEvenBrackets, count_part, List.count_singleton_self,
    List.count_cons_of_ne (show ']' ≠ '[' by decide), List.count_nil]
  omega

theorem closing?_eq_some_iff (bracket : program[opening]? = some '[') :
    program.closing? 0 (opening + 1 : Nat) = some (place : Int) ↔
      program.Closes opening place := by
  have distance (place : Nat) (beyond : opening < place) :
      ∃ length, place = opening + 1 + length :=
    ⟨place - (opening + 1), by omega⟩
  simp only [closing?_eq, Option.map_eq_some_iff, Int.natCast_inj,
    unwinding?_eq_some_iff (show '[' ≠ ']' by decide)]
  constructor
  · rintro ⟨length, ⟨departs, least⟩, rfl⟩
    have even := (even_after_iff bracket length).2 departs
    refine ⟨⟨by omega, even⟩, ?_⟩
    rintro other ⟨beyond, otherEven⟩
    obtain ⟨longer, rfl⟩ := distance other beyond
    have further := least ((even_after_iff bracket longer).1 otherEven)
    omega
  · rintro ⟨⟨beyond, even⟩, least⟩
    obtain ⟨length, rfl⟩ := distance place beyond
    refine ⟨length, ⟨(even_after_iff bracket length).1 even, ?_⟩, rfl⟩
    intro longer departs
    have otherEven := (even_after_iff bracket longer).2 departs
    have further := least ⟨by omega, otherEven⟩
    omega

theorem opening?_eq_some_iff (bracket : program[closing]? = some ']') :
    program.opening? 0 closing = some place ↔
      program.Opens closing place := by
  obtain ⟨within, _⟩ := Array.getElem?_eq_some_iff.1 bracket
  have distance (place : Nat) (behind : place < closing) :
      ∃ length < closing, place = closing - 1 - length :=
    ⟨closing - 1 - place, by omega⟩
  simp only [opening?_eq program 0 (Nat.le_of_lt within),
    Option.map_eq_some_iff, unwinding?_eq_some_iff (show ']' ≠ '[' by decide)]
  constructor
  · rintro ⟨length, ⟨departs, least⟩, rfl⟩
    obtain ⟨bound, even⟩ := (even_before_iff bracket length).2 departs
    refine ⟨⟨by omega, even⟩, ?_⟩
    rintro other ⟨behind, otherEven⟩
    obtain ⟨longer, longerBound, rfl⟩ := distance other behind
    have further :=
      least ((even_before_iff bracket longer).1 ⟨longerBound, otherEven⟩)
    omega
  · rintro ⟨⟨behind, even⟩, greatest⟩
    obtain ⟨length, bound, rfl⟩ := distance place behind
    refine ⟨length, ⟨(even_before_iff bracket length).1 ⟨bound, even⟩, ?_⟩, rfl⟩
    intro longer departs
    obtain ⟨longerBound, otherEven⟩ := (even_before_iff bracket longer).2 departs
    have further := greatest ⟨by omega, otherEven⟩
    omega

end Program

end Esoteric.Brainfuck
