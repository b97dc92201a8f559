import Esoteric.Proofs.CommandLine.Verbose

/-! A word that is no option names the program, wherever it stands. -/

namespace Esoteric

theorem Refusal.exists_of_bind_eq_ok {α β : Type} {first : Except Refusal α}
    {next : α → Except Refusal β} {result : β}
    (read : (first >>= next) = .ok result) :
    ∃ value, first = .ok value ∧ next value = .ok result := by
  cases first with
  | ok value => exact ⟨value, rfl, read⟩
  | error cause => contradiction

namespace Token

variable {word : List Char} {words : List (List Char)} {tokens : List Token}

theorem ofWord_of_plain (plain : word.head? ≠ some '-') :
    ofWord word = .ok [.operand word] := by
  unfold ofWord
  split
  · exact absurd rfl plain
  · exact absurd rfl plain
  · rfl

theorem ofWords_append_plain (plain : word.head? ≠ some '-')
    (read : ofWords words = .ok tokens) :
    ofWords (words ++ [word]) = .ok (tokens ++ [.operand word]) := by
  induction words generalizing tokens with
  | nil =>
      cases read
      have other : word ≠ ['-', '-'] := by
        rintro rfl
        exact plain rfl
      rw [List.nil_append, ofWords, if_neg other, ofWord_of_plain plain]
      rfl
  | cons first words induction =>
      rw [ofWords] at read
      rw [List.cons_append, ofWords]
      split at read
      · rename_i terminates
        cases read
        rw [if_pos terminates, List.map_append]
        rfl
      · rename_i other
        obtain ⟨early, readFirst, rest⟩ := Refusal.exists_of_bind_eq_ok read
        obtain ⟨late, readRest, whole⟩ := Refusal.exists_of_bind_eq_ok rest
        cases whole
        rw [if_neg other, readFirst, induction readRest, List.append_assoc]
        rfl

end Token

namespace Options

variable {options reached : Options} {switch : Switch} {tokens : List Token}
  {word text : List Char}

theorem program_of_enable (enabled : options.enable switch = .ok reached) :
    reached.program = options.program := by
  cases switch with
  | strict | silent =>
      rw [enable, withEdge] at enabled
      split at enabled
      · cases enabled
        rfl
      · contradiction
  | verbose =>
      cases enabled
      rfl
  | _ => contradiction

theorem program_of_assign (assigned : options.assign switch text = .ok reached) :
    reached.program = options.program := by
  cases switch with
  | language | width | maxCycles =>
      obtain ⟨value, _, rest⟩ := Refusal.exists_of_bind_eq_ok assigned
      cases rest
      rfl
  | _ => contradiction

theorem not_takesValue_of_enable
    (enabled : options.enable switch = .ok reached) :
    ¬ switch.takesValue = true := by
  cases switch with
  | language | width | maxCycles => contradiction
  | _ => exact Bool.false_ne_true

theorem program_of_follow (read : follow options tokens = .ok reached)
    (taken : options.program.isSome = true) :
    reached.program = options.program := by
  fun_induction follow options tokens with
  | case1 options =>
      cases read
      rfl
  | case2 | case4 | case6 => contradiction
  | case3 options word tokens free _ | case5 options word tokens _ free _
  | case7 options tokens free _ => exact absurd taken free
  | case8 options switch value tokens induction
  | case9 options switch value tokens valued induction =>
      obtain ⟨next, assigned, rest⟩ := Refusal.exists_of_bind_eq_ok read
      have kept := program_of_assign assigned
      rw [← kept] at taken ⊢
      exact induction next rest taken
  | case10 options switch value tokens bare induction
  | case11 options switch tokens last induction =>
      obtain ⟨next, enabled, rest⟩ := Refusal.exists_of_bind_eq_ok read
      have kept := program_of_enable enabled
      rw [← kept] at taken ⊢
      exact induction next rest taken

theorem follow_append_operand (read : follow options tokens = .ok reached)
    (unnamed : reached.program = none) (word : List Char) :
    follow options (tokens ++ [.operand word]) =
      .ok { reached with program := some (String.ofList word) } := by
  fun_induction follow options tokens with
  | case1 options =>
      cases read
      rw [List.nil_append, follow, unnamed]
      · rfl
      · intro later same
        contradiction
  | case2 | case4 | case6 => contradiction
  | case3 options earlier tokens _ _ | case5 options earlier tokens _ _ _ =>
      have named := program_of_follow read rfl
      rw [unnamed] at named
      contradiction
  | case7 options tokens free induction =>
      rw [List.cons_append, follow, if_neg free]
      exact induction read
  | case8 options switch value tokens induction =>
      obtain ⟨next, assigned, rest⟩ := Refusal.exists_of_bind_eq_ok read
      rw [List.cons_append, follow, assigned]
      exact induction next rest
  | case9 options switch value tokens valued induction =>
      obtain ⟨next, assigned, rest⟩ := Refusal.exists_of_bind_eq_ok read
      rw [List.cons_append, List.cons_append, follow, if_pos valued, assigned]
      exact induction next rest
  | case10 options switch value tokens bare induction =>
      obtain ⟨next, enabled, rest⟩ := Refusal.exists_of_bind_eq_ok read
      rw [List.cons_append, List.cons_append, follow, if_neg bare, enabled]
      exact induction next rest
  | case11 options switch tokens last induction =>
      obtain ⟨next, enabled, rest⟩ := Refusal.exists_of_bind_eq_ok read
      cases tokens with
      | nil =>
          rw [List.singleton_append, follow,
            if_neg (not_takesValue_of_enable enabled), enabled]
          exact induction next rest
      | cons token tokens =>
          rw [List.cons_append, follow, enabled]
          · exact induction next rest
          · rintro value later same
            obtain ⟨rfl, _⟩ := List.cons.inj same
            exact last value tokens rfl

theorem parse_append_plain {words : List String} {path : String}
    (accepted : parse words = .ok options) (unnamed : options.program = none)
    (plain : path.toList.head? ≠ some '-') :
    parse (words ++ [path]) = .ok { options with program := some path } := by
  obtain ⟨tokens, read, followed⟩ := Refusal.exists_of_bind_eq_ok accepted
  have whole := follow_append_operand followed unnamed path.toList
  rw [String.ofList_toList] at whole
  rw [parse, List.map_append, List.map_singleton,
    Token.ofWords_append_plain plain read]
  exact whole

end Options

end Esoteric
