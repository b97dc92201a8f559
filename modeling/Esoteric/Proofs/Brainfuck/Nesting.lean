import Esoteric.Brainfuck.Machine
import Esoteric.Proofs.Brainfuck.Matching

/-! Loops that are passed over and loops that are repeated are the same ones, and no
two of them overlap unless one is inside the other. -/

namespace Esoteric.Brainfuck

variable {enter leave : Char} {length opening closing place : Nat}
  {text : List Char} {program : Program}

theorem unwinding?_zero_iff (distinct : enter ≠ leave) :
    unwinding? enter leave 0 text = some length ↔
      ∃ body rest, text = body ++ leave :: rest ∧
        Unwinds enter leave 0 body ∧ body.length = length := by
  constructor
  · intro found
    obtain ⟨body, rest, rfl, unwinds⟩ :=
      exists_unwinds_of_unwinding? distinct found
    rw [unwinding?_append distinct unwinds] at found
    exact ⟨body, rest, rfl, unwinds, Option.some.inj found⟩
  · rintro ⟨body, rest, rfl, unwinds, rfl⟩
    exact unwinding?_append distinct unwinds rest

namespace Program

/-- The brackets at two places belong together, as what is between them is
balanced. Outside them the program need not be. -/
def Pairs (program : Program) (opening closing : Nat) : Prop :=
  ∃ before body rest, program.toList = before ++ '[' :: body ++ ']' :: rest ∧
    Balanced body ∧ before.length = opening ∧
      before.length + 1 + body.length = closing

/-- How many more loops have begun than ended before a place. -/
def height (program : Program) (place : Nat) : Int :=
  (program.toList.take place).count '[' - (program.toList.take place).count ']'

theorem closing?_eq_some_iff_pairs (bracket : program[opening]? = some '[') :
    program.closing? 0 (opening + 1 : Nat) = some (closing : Int) ↔
      program.Pairs opening closing := by
  constructor
  · intro found
    obtain ⟨within, atOpening⟩ := Array.getElem?_eq_some_iff.1 bracket
    rw [closing?_eq] at found
    obtain ⟨length, scan, reached⟩ := Option.map_eq_some_iff.1 found
    obtain ⟨body, rest, ahead, unwinds, rfl⟩ :=
      (unwinding?_zero_iff (by decide)).1 scan
    have size : (program.toList.take opening).length = opening :=
      List.length_take_of_le (Nat.le_of_lt within)
    refine ⟨program.toList.take opening, body, rest, ?_,
      balanced_iff_unwinds.2 unwinds, size, ?_⟩
    · have bound : opening < program.toList.length := within
      rw [List.append_assoc, List.cons_append, ← ahead, ← atOpening,
        ← Array.getElem_toList, ← List.drop_eq_getElem_cons bound,
        List.take_append_drop]
    · rw [size]
      exact Int.natCast_inj.1 reached
  · rintro ⟨before, body, rest, layout, balanced, rfl, rfl⟩
    exact closing?_of_layout layout balanced

theorem opening?_eq_some_iff_pairs (bracket : program[closing]? = some ']') :
    program.opening? 0 closing = some opening ↔
      program.Pairs opening closing := by
  constructor
  · intro found
    obtain ⟨within, atClosing⟩ := Array.getElem?_eq_some_iff.1 bracket
    have bound : closing < program.toList.length := within
    rw [opening?_eq program 0 (Nat.le_of_lt within)] at found
    obtain ⟨length, scan, reached⟩ := Option.map_eq_some_iff.1 found
    obtain ⟨body, rest, behind, unwinds, rfl⟩ :=
      (unwinding?_zero_iff (by decide)).1 scan
    have start : program.toList.take closing =
        rest.reverse ++ '[' :: body.reverse := by
      rw [← List.reverse_reverse (program.toList.take closing), behind]
      simp
    have size : closing = rest.length + 1 + body.length := by
      rw [← List.length_take_of_le (Nat.le_of_lt bound), start]
      simp only [List.length_append, List.length_cons, List.length_reverse]
      omega
    refine ⟨rest.reverse, body.reverse, program.toList.drop (closing + 1), ?_, ?_,
      ?_, ?_⟩
    · rw [← start, ← atClosing, ← Array.getElem_toList,
        ← List.drop_eq_getElem_cons bound, List.take_append_drop]
    · rw [balanced_iff_unwinds_reverse, List.reverse_reverse]
      exact unwinds
    · rw [List.length_reverse]
      omega
    · rw [List.length_reverse, List.length_reverse]
      exact size.symm
  · rintro ⟨before, body, rest, layout, balanced, rfl, rfl⟩
    exact opening?_of_layout layout balanced

namespace Pairs

theorem getElem?_opening (pairs : program.Pairs opening closing) :
    program[opening]? = some '[' := by
  obtain ⟨before, body, rest, layout, -, rfl, -⟩ := pairs
  rw [← Array.getElem?_toList, layout, List.append_assoc]
  simp

theorem getElem?_closing (pairs : program.Pairs opening closing) :
    program[closing]? = some ']' := by
  obtain ⟨before, body, rest, layout, -, -, rfl⟩ := pairs
  have length : before.length + 1 + body.length = (before ++ '[' :: body).length := by
    simp only [List.length_append, List.length_cons]
    omega
  rw [← Array.getElem?_toList, layout, length,
    List.getElem?_append_right (Nat.le_refl _), Nat.sub_self]
  rfl

theorem height_lt (pairs : program.Pairs opening closing) (after : opening < place)
    (within : place ≤ closing) : program.height opening < program.height place := by
  obtain ⟨before, body, rest, layout, balanced, rfl, rfl⟩ := pairs
  obtain ⟨inner, rfl⟩ : ∃ inner, place = before.length + (inner + 1) :=
    ⟨place - before.length - 1, by omega⟩
  have start : program.toList.take (before.length + (inner + 1)) =
      before ++ '[' :: body.take inner := by
    rw [layout, List.append_assoc, List.take_length_add_append, List.cons_append,
      List.take_succ_cons, List.take_append_of_le_length (by omega)]
  have begun : program.toList.take before.length = before := by
    rw [layout, List.append_assoc, List.take_left]
  have inside := balanced.bounded (body.take inner) (List.take_prefix inner body)
  simp only [height, start, begun, List.count_append, List.count_cons_self,
    List.count_cons_of_ne (show '[' ≠ ']' by decide)]
  omega

theorem height_succ (pairs : program.Pairs opening closing) :
    program.height (closing + 1) = program.height opening := by
  obtain ⟨before, body, rest, layout, balanced, rfl, rfl⟩ := pairs
  have whole : program.toList.take (before.length + 1 + body.length + 1) =
      before ++ '[' :: body ++ [']'] := by
    rw [layout, List.append_cons (before ++ '[' :: body)]
    apply List.take_left'
    simp only [List.length_append, List.length_cons, List.length_nil]
    omega
  have begun : program.toList.take before.length = before := by
    rw [layout, List.append_assoc, List.take_left]
  have even := balanced.even
  simp only [height, whole, begun, List.count_append, List.count_cons_self,
    List.count_cons_of_ne (show '[' ≠ ']' by decide),
    List.count_cons_of_ne (show ']' ≠ '[' by decide), List.count_nil]
  omega

theorem closing_unique {other : Nat} (pairs : program.Pairs opening closing)
    (otherPairs : program.Pairs opening other) : closing = other := by
  have found := (closing?_eq_some_iff_pairs pairs.getElem?_opening).2 pairs
  rw [(closing?_eq_some_iff_pairs pairs.getElem?_opening).2 otherPairs] at found
  exact (Int.natCast_inj.1 (Option.some.inj found)).symm

theorem closing_lt {inner innerClosing : Nat}
    (pairs : program.Pairs opening closing)
    (innerPairs : program.Pairs inner innerClosing) (after : opening < inner)
    (before : inner ≤ closing) : innerClosing < closing := by
  refine Nat.lt_of_not_le fun beyond => ?_
  have begins := pairs.height_lt after before
  have ends := pairs.height_succ
  by_cases same : innerClosing = closing
  · subst same
    have innerEnds := innerPairs.height_succ
    omega
  · have reached : inner < closing + 1 := by omega
    have later : closing + 1 ≤ innerClosing := by omega
    have stays := innerPairs.height_lt reached later
    omega

end Pairs

end Program

namespace Machine

variable {machine : Machine}

structure Skips (machine : Machine) (opening closing : Nat) : Prop where
  stands : machine.pointer = opening
  bracket : machine.program[opening]? = some '['
  zero : machine.cell = 0
  lands : machine.enterLoop = .ok { machine with pointer := closing + 1 }

structure Returns (machine : Machine) (closing opening : Nat) : Prop where
  stands : machine.pointer = closing
  bracket : machine.program[closing]? = some ']'
  nonzero : machine.cell ≠ 0
  lands : machine.repeatLoop = .ok { machine with pointer := opening }

theorem skips_iff_pairs (stands : machine.pointer = opening)
    (zero : machine.cell = 0) :
    machine.Skips opening closing ↔ machine.program.Pairs opening closing := by
  constructor
  · rintro ⟨-, bracket, -, lands⟩
    rw [← Program.closing?_eq_some_iff_pairs bracket]
    rw [enterLoop, if_pos zero, stands, ← Int.natCast_succ] at lands
    split at lands
    · rename_i place found
      have pointer : place + 1 = closing + 1 :=
        congrArg (fun step => step.state.pointer) lands
      rw [found]
      exact congrArg some (by omega)
    · have outcome := congrArg Step.outcome lands
      contradiction
  · intro pairs
    have bracket := pairs.getElem?_opening
    have found := (Program.closing?_eq_some_iff_pairs bracket).2 pairs
    refine ⟨stands, bracket, zero, ?_⟩
    rw [enterLoop, if_pos zero, stands, ← Int.natCast_succ, found]

theorem returns_iff_pairs (stands : machine.pointer = closing)
    (nonzero : machine.cell ≠ 0) :
    machine.Returns closing opening ↔ machine.program.Pairs opening closing := by
  constructor
  · rintro ⟨-, bracket, -, lands⟩
    rw [← Program.opening?_eq_some_iff_pairs bracket]
    rw [repeatLoop, if_neg nonzero, stands, Int.toNat_natCast] at lands
    split at lands
    · rename_i place found
      have pointer : (place : Int) = opening :=
        congrArg (fun step => step.state.pointer) lands
      rw [found, Int.natCast_inj.1 pointer]
    · have outcome := congrArg Step.outcome lands
      contradiction
  · intro pairs
    have bracket := pairs.getElem?_closing
    have found := (Program.opening?_eq_some_iff_pairs bracket).2 pairs
    refine ⟨stands, bracket, nonzero, ?_⟩
    rw [repeatLoop, if_neg nonzero, stands, Int.toNat_natCast, found]

end Machine

namespace Program

/-- One of the two scans finds the ends of a part of the program. -/
def Spans (program : Program) (opening closing : Nat) : Prop :=
  ∃ machine : Machine, machine.program = program ∧
    (machine.Skips opening closing ∨ machine.Returns closing opening)

theorem Spans.pairs (spans : program.Spans opening closing) :
    program.Pairs opening closing := by
  obtain ⟨machine, rfl, skips | returns⟩ := spans
  · exact (Machine.skips_iff_pairs skips.stands skips.zero).1 skips
  · exact (Machine.returns_iff_pairs returns.stands returns.nonzero).1 returns

/-- Machines that scan a program forward and backward pair the same brackets, however
unbalanced it is, and of two parts that they find one is inside the other, or they are
apart. -/
theorem scans_inverse_and_nested (program : Program) :
    (∀ (opening closing : Nat) (forward backward : Machine),
      forward.program = program → forward.pointer = opening →
      forward.cell = 0 → backward.program = program →
      backward.pointer = closing → backward.cell ≠ 0 →
      (forward.Skips opening closing ↔ backward.Returns closing opening)) ∧
    ∀ opening closing other otherClosing : Nat,
      program.Spans opening closing → program.Spans other otherClosing →
      (opening ≠ other ∨ closing ≠ otherClosing) →
      (closing < other ∨ otherClosing < opening) ∨
        (opening < other ∧ otherClosing < closing) ∨
          (other < opening ∧ closing < otherClosing) := by
  constructor
  · rintro opening closing forward backward rfl ahead zero same behind nonzero
    rw [Machine.skips_iff_pairs ahead zero, Machine.returns_iff_pairs behind nonzero,
      same]
  · intro opening closing other otherClosing spans otherSpans different
    have pairs := spans.pairs
    have otherPairs := otherSpans.pairs
    rcases Nat.lt_trichotomy opening other with before | rfl | after
    · rcases Nat.lt_or_ge closing other with apart | overlap
      · exact .inl (.inl apart)
      · exact .inr (.inl ⟨before, pairs.closing_lt otherPairs before overlap⟩)
    · rcases different with absent | absent
      · contradiction
      · exact absurd (pairs.closing_unique otherPairs) absent
    · rcases Nat.lt_or_ge otherClosing opening with apart | overlap
      · exact .inl (.inr apart)
      · exact .inr (.inr ⟨after, otherPairs.closing_lt pairs after overlap⟩)

theorem scans_inverse_and_nested_of_surplus :
    let program : Program := "][+[-]>][".toList.toArray
    let tape := Tape.blank.write 0 1
    let forward : Machine := { program, pointer := 1 }
    let backward : Machine := { program, pointer := 7, tape }
    let inside : Machine := { program, pointer := 5, tape }
    forward.cell = 0 ∧ backward.cell ≠ 0 ∧ backward.Returns 7 1 ∧
      inside.Returns 5 3 ∧ forward.Skips 1 7 ∧
      ((7 < 3 ∨ 5 < 1) ∨ (1 < 3 ∧ 5 < 7) ∨ (3 < 1 ∧ 7 < 5)) := by
  intro program tape forward backward inside
  have nonzero : backward.cell ≠ 0 := by decide
  have returns : backward.Returns 7 1 := ⟨rfl, rfl, nonzero, rfl⟩
  have returnsInside : inside.Returns 5 3 := ⟨rfl, rfl, nonzero, rfl⟩
  have skips := ((scans_inverse_and_nested program).1 1 7 forward backward rfl rfl
    (by decide) rfl rfl nonzero).2 returns
  exact ⟨by decide, nonzero, returns, returnsInside, skips,
    (scans_inverse_and_nested program).2 1 7 3 5 ⟨forward, rfl, .inl skips⟩
      ⟨inside, rfl, .inr returnsInside⟩ (.inl (by decide))⟩

end Program

end Esoteric.Brainfuck
