import Esoteric.Brainfuck.Program

namespace Esoteric.Brainfuck

variable {enter leave c : Char} {depth : Nat} {text body rest before after : List Char}

/-- No prefix ends more loops than it begins, and all loops are ended. -/
structure Balanced (text : List Char) : Prop where
  bounded : ∀ start, start <+: text → start.count ']' ≤ start.count '['
  even : text.count '[' = text.count ']'

/-- From inside a number of loops a text leaves them all, and no more. Read
backwards, a text enters loops at their closing brackets. -/
structure Unwinds (enter leave : Char) (depth : Nat) (text : List Char) :
    Prop where
  bounded : ∀ start, start <+: text →
    start.count leave ≤ start.count enter + depth
  even : text.count leave = text.count enter + depth

namespace Unwinds

@[simp] theorem nil_iff : Unwinds enter leave depth [] ↔ depth = 0 := by
  constructor
  · intro unwinds
    simpa using unwinds.even.symm
  · rintro rfl
    refine ⟨?_, rfl⟩
    intro start isStart
    rw [List.prefix_nil.1 isStart]
    exact Nat.le_refl 0

theorem cons_iff : Unwinds enter leave depth (c :: text) ↔
    ∃ later, [c].count leave + later = [c].count enter + depth ∧
      Unwinds enter leave later text := by
  have count_cons (symbol : Char) (text : List Char) :
      (c :: text).count symbol = [c].count symbol + text.count symbol :=
    (List.count_append : ([c] ++ text).count symbol = _)
  constructor
  · intro unwinds
    have first := unwinds.bounded [c] (by simp)
    refine ⟨[c].count enter + depth - [c].count leave, by omega, ?_, ?_⟩
    · intro start isStart
      have whole := unwinds.bounded (c :: start)
        (List.cons_prefix_cons.2 ⟨rfl, isStart⟩)
      rw [count_cons leave start, count_cons enter start] at whole
      omega
    · have whole := unwinds.even
      rw [count_cons leave text, count_cons enter text] at whole
      omega
  · rintro ⟨later, shift, unwinds⟩
    refine ⟨?_, ?_⟩
    · intro start isStart
      cases start with
      | nil => exact Nat.zero_le _
      | cons head start =>
          obtain ⟨rfl, isRest⟩ := List.cons_prefix_cons.1 isStart
          have remaining := unwinds.bounded start isRest
          rw [count_cons leave start, count_cons enter start]
          omega
    · have remaining := unwinds.even
      rw [count_cons leave text, count_cons enter text]
      omega

theorem cons_enter_iff (distinct : enter ≠ leave) :
    Unwinds enter leave depth (enter :: text) ↔
      Unwinds enter leave (depth + 1) text := by
  simp [cons_iff, distinct, Nat.add_comm]

theorem cons_leave_iff (distinct : enter ≠ leave) :
    Unwinds enter leave depth (leave :: text) ↔
      ∃ later, later + 1 = depth ∧ Unwinds enter leave later text := by
  simp [cons_iff, distinct.symm, Nat.add_comm]

theorem cons_other_iff (notEnter : c ≠ enter) (notLeave : c ≠ leave) :
    Unwinds enter leave depth (c :: text) ↔ Unwinds enter leave depth text := by
  simp [cons_iff, notEnter, notLeave]

theorem append {first second : Nat} (unwinds : Unwinds enter leave first text)
    (follows : Unwinds enter leave second rest) :
    Unwinds enter leave (first + second) (text ++ rest) := by
  induction text generalizing first with
  | nil =>
      rw [nil_iff.1 unwinds, Nat.zero_add]
      exact follows
  | cons c text induction =>
      obtain ⟨later, shift, remaining⟩ := cons_iff.1 unwinds
      exact cons_iff.2 ⟨later + second, by omega, induction remaining⟩

end Unwinds

theorem balanced_iff_unwinds :
    Balanced text ↔ Unwinds '[' ']' 0 text :=
  ⟨fun balanced => ⟨balanced.bounded, balanced.even.symm⟩,
    fun unwinds => ⟨unwinds.bounded, unwinds.even.symm⟩⟩

/-- What a prefix leaves open is what the rest of a balanced text closes. -/
theorem balanced_iff_unwinds_reverse :
    Balanced text ↔ Unwinds ']' '[' 0 text.reverse := by
  constructor
  · intro balanced
    refine ⟨?_, by simpa using balanced.even⟩
    intro start isStart
    obtain ⟨remaining, equality⟩ := List.reverse_suffix.2 isStart
    rw [List.reverse_reverse] at equality
    have earlier := balanced.bounded remaining ⟨_, equality⟩
    have whole := balanced.even
    simp only [← equality, List.count_append, List.count_reverse] at whole
    omega
  · intro unwinds
    have whole := unwinds.even
    refine ⟨?_, by simpa using whole⟩
    rintro start ⟨remaining, rfl⟩
    have later := unwinds.bounded remaining.reverse (by simp)
    simp only [List.count_reverse, List.count_append] at whole later
    omega

/-- The number of characters before the bracket that leaves one loop more than
the depth. -/
def unwinding? (enter leave : Char) : (depth : Nat) → List Char → Option Nat
  | _, [] => none
  | depth, c :: text =>
      if c = leave then
        match depth with
        | 0 => some 0
        | depth + 1 => (unwinding? enter leave depth text).map (· + 1)
      else if c = enter then
        (unwinding? enter leave (depth + 1) text).map (· + 1)
      else
        (unwinding? enter leave depth text).map (· + 1)

theorem unwinding?_append (distinct : enter ≠ leave)
    (unwinds : Unwinds enter leave depth body) (rest : List Char) :
    unwinding? enter leave depth (body ++ leave :: rest) =
      some body.length := by
  induction body generalizing depth with
  | nil => simp [Unwinds.nil_iff.1 unwinds, unwinding?]
  | cons c body induction =>
      by_cases leaves : c = leave
      · subst leaves
        obtain ⟨later, rfl, remaining⟩ :=
          (Unwinds.cons_leave_iff distinct).1 unwinds
        simp [unwinding?, induction remaining]
      · by_cases enters : c = enter
        · subst enters
          have remaining := (Unwinds.cons_enter_iff distinct).1 unwinds
          simp [unwinding?, leaves, induction remaining]
        · have remaining := (Unwinds.cons_other_iff enters leaves).1 unwinds
          simp [unwinding?, leaves, enters, induction remaining]

theorem exists_unwinds_of_count_lt (distinct : enter ≠ leave)
    (surplus : text.count enter + depth < text.count leave) :
    ∃ body rest, text = body ++ leave :: rest ∧
      Unwinds enter leave depth body := by
  induction text generalizing depth with
  | nil => exact absurd surplus (Nat.not_lt_zero _)
  | cons c text induction =>
      by_cases leaves : c = leave
      · subst leaves
        cases depth with
        | zero => exact ⟨[], text, rfl, Unwinds.nil_iff.2 rfl⟩
        | succ depth =>
            rw [List.count_cons_self,
              List.count_cons_of_ne distinct.symm] at surplus
            have remaining : text.count enter + depth < text.count c := by
              omega
            obtain ⟨body, rest, rfl, unwinds⟩ := induction remaining
            exact ⟨c :: body, rest, rfl,
              (Unwinds.cons_leave_iff distinct).2 ⟨depth, rfl, unwinds⟩⟩
      · rw [List.count_cons_of_ne leaves] at surplus
        by_cases enters : c = enter
        · subst enters
          rw [List.count_cons_self] at surplus
          have remaining : text.count c + (depth + 1) < text.count leave := by
            omega
          obtain ⟨body, rest, rfl, unwinds⟩ := induction remaining
          exact ⟨c :: body, rest, rfl,
            (Unwinds.cons_enter_iff distinct).2 unwinds⟩
        · rw [List.count_cons_of_ne enters] at surplus
          obtain ⟨body, rest, rfl, unwinds⟩ := induction surplus
          exact ⟨c :: body, rest, rfl,
            (Unwinds.cons_other_iff enters leaves).2 unwinds⟩

theorem exists_unwinds_of_unwinding? {length : Nat} (distinct : enter ≠ leave)
    (found : unwinding? enter leave depth text = some length) :
    ∃ body rest, text = body ++ leave :: rest ∧
      Unwinds enter leave depth body := by
  induction text generalizing depth length with
  | nil => contradiction
  | cons c text induction =>
      unfold unwinding? at found
      split at found
      · rename_i isLeave
        subst isLeave
        split at found
        · exact ⟨[], text, rfl, Unwinds.nil_iff.2 rfl⟩
        · rename_i depth
          obtain ⟨_, later, _⟩ := Option.map_eq_some_iff.1 found
          obtain ⟨body, rest, rfl, unwinds⟩ := induction later
          exact ⟨c :: body, rest, rfl,
            (Unwinds.cons_leave_iff distinct).2 ⟨depth, rfl, unwinds⟩⟩
      · rename_i notLeave
        split at found
        · rename_i isEnter
          subst isEnter
          obtain ⟨_, later, _⟩ := Option.map_eq_some_iff.1 found
          obtain ⟨body, rest, rfl, unwinds⟩ := induction later
          exact ⟨c :: body, rest, rfl,
            (Unwinds.cons_enter_iff distinct).2 unwinds⟩
        · rename_i notEnter
          obtain ⟨_, later, _⟩ := Option.map_eq_some_iff.1 found
          obtain ⟨body, rest, rfl, unwinds⟩ := induction later
          exact ⟨c :: body, rest, rfl,
            (Unwinds.cons_other_iff notEnter notLeave).2 unwinds⟩

namespace Program

theorem character?_eq (program : Program) (place : Nat) :
    program.character? place = program.toList[place]? := by
  rw [Array.getElem?_toList]
  rfl

theorem closing?_eq (program : Program) (depth place : Nat) :
    program.closing? depth place =
      (unwinding? '[' ']' depth (program.toList.drop place)).map
        fun length => ((place + length : Nat) : Int) := by
  generalize remaining : program.toList.drop place = text
  induction text generalizing depth place with
  | nil =>
      have outside : program.character? place = none := by
        rw [character?_eq]
        exact List.getElem?_eq_none (List.drop_eq_nil_iff.1 remaining)
      rw [closing?.eq_def]
      split <;> simp_all [unwinding?]
  | cons c text induction =>
      have found : program.character? place = some c := by
        rw [character?_eq, ← List.head?_drop, remaining]
        rfl
      have later : program.toList.drop (place + 1) = text := by
        rw [← List.drop_drop, remaining]
        rfl
      have next (depth : Nat) :
          program.closing? depth ((place : Int) + 1) =
            ((unwinding? '[' ']' depth text).map (· + 1)).map
              fun length => ((place + length : Nat) : Int) := by
        rw [← Int.natCast_succ, induction depth (place + 1) later,
          Option.map_map]
        congr 1
        funext length
        simp only [Function.comp]
        omega
      rw [closing?.eq_def]
      split
      · simp_all
      · rename_i found' equality
        obtain rfl : c = found' := by simpa [found] using equality
        simp only [unwinding?, next]
        split
        · cases depth <;> simp
        · split <;> rfl

theorem opening?_eq (program : Program) (depth : Nat) {place : Nat}
    (within : place ≤ program.size) :
    program.opening? depth place =
      (unwinding? ']' '[' depth (program.toList.take place).reverse).map
        fun length => place - 1 - length := by
  induction place generalizing depth with
  | zero => rfl
  | succ place induction =>
      have backwards : (program.toList.take (place + 1)).reverse =
          program[place] :: (program.toList.take place).reverse := by
        have bound : place < program.toList.length := within
        rw [List.take_succ_eq_append_getElem bound, List.reverse_append]
        rfl
      have next (depth : Nat) :
          program.opening? depth place =
            ((unwinding? ']' '[' depth
              (program.toList.take place).reverse).map (· + 1)).map
                fun length => place + 1 - 1 - length := by
        rw [induction depth (Nat.le_of_succ_le within), Option.map_map]
        congr 1
        funext length
        simp only [Function.comp]
        omega
      rw [backwards, opening?.eq_def]
      simp only [Array.getElem?_eq_getElem (show place < program.size from within)]
      simp only [unwinding?, Option.some.injEq, next]
      split
      · cases depth <;> simp
      · split <;> rfl

theorem closing?_of_layout {program : Program}
    (layout : program.toList = before ++ '[' :: body ++ ']' :: rest)
    (balanced : Balanced body) :
    program.closing? 0 (before.length + 1 : Nat) =
      some ((before.length + 1 + body.length : Nat) : Int) := by
  have ahead : program.toList.drop (before.length + 1) = body ++ ']' :: rest := by
    simp [layout]
  rw [closing?_eq, ahead, unwinding?_append (by decide)
    (balanced_iff_unwinds.1 balanced)]
  rfl

theorem opening?_of_layout {program : Program}
    (layout : program.toList = before ++ '[' :: body ++ ']' :: rest)
    (balanced : Balanced body) :
    program.opening? 0 (before.length + 1 + body.length) =
      some before.length := by
  have length : program.size =
      before.length + 1 + body.length + 1 + rest.length := by
    rw [← Array.length_toList, layout]
    simp only [List.length_append, List.length_cons]
    omega
  have behind : (program.toList.take
      (before.length + 1 + body.length)).reverse =
        body.reverse ++ '[' :: before.reverse := by
    have split : program.toList = (before ++ '[' :: body) ++ ']' :: rest := layout
    rw [split, List.take_left' (by simp; omega)]
    simp
  rw [opening?_eq program 0 (by omega), behind, unwinding?_append (by decide)
    (balanced_iff_unwinds_reverse.1 balanced)]
  simp only [Option.map_some, List.length_reverse, Option.some.injEq]
  omega

end Program

namespace Balanced

theorem exists_closing (balanced : Balanced (before ++ '[' :: after)) :
    ∃ body rest, after = body ++ ']' :: rest ∧ Balanced body := by
  have earlier := balanced.bounded before (List.prefix_append ..)
  have whole := balanced.even
  simp only [List.count_append, List.count_cons_self,
    List.count_cons_of_ne (show '[' ≠ ']' by decide)] at whole
  have surplus : after.count '[' + 0 < after.count ']' := by omega
  obtain ⟨body, rest, layout, unwinds⟩ :=
    exists_unwinds_of_count_lt (by decide) surplus
  exact ⟨body, rest, layout, balanced_iff_unwinds.2 unwinds⟩

theorem exists_opening (balanced : Balanced (before ++ ']' :: after)) :
    ∃ start body, before = start ++ '[' :: body ∧ Balanced body := by
  have earlier := balanced.bounded (before ++ [']']) (by simp)
  simp only [List.count_append, List.count_cons_self, List.count_nil,
    List.count_cons_of_ne (show ']' ≠ '[' by decide)] at earlier
  have surplus : before.reverse.count ']' + 0 < before.reverse.count '[' := by
    rw [List.count_reverse, List.count_reverse]
    omega
  obtain ⟨body, rest, layout, unwinds⟩ :=
    exists_unwinds_of_count_lt (by decide) surplus
  refine ⟨rest.reverse, body.reverse, ?_, ?_⟩
  · rw [← List.reverse_reverse before, layout]
    simp
  · rw [balanced_iff_unwinds_reverse, List.reverse_reverse]
    exact unwinds

end Balanced

end Esoteric.Brainfuck
