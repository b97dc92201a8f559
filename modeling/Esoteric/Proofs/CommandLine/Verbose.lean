import Esoteric.CommandLine.Options

/-! A question for a trace, put before all other words, changes nothing else that
they ask for. -/

namespace Esoteric.Options

def aloud (options : Options) : Options :=
  { options with verbose := true }

theorem withEdge_aloud (options : Options) (edge : Edge) :
    options.aloud.withEdge edge = (options.withEdge edge).map aloud := by
  have sameEdge : options.aloud.edge = options.edge := rfl
  rw [withEdge, withEdge, sameEdge]
  split <;> rfl

theorem enable_aloud (options : Options) (switch : Switch) :
    options.aloud.enable switch = (options.enable switch).map aloud := by
  cases switch with
  | strict | silent => exact options.withEdge_aloud _
  | _ => rfl

theorem assign_aloud (options : Options) (switch : Switch) (text : List Char) :
    options.aloud.assign switch text =
      (options.assign switch text).map aloud := by
  cases switch with
  | language =>
      simp only [assign]
      cases setting Switch.language
          (fun text => Language.ofName? (String.ofList text)) text with
      | ok value => rfl
      | error cause => rfl
  | width | maxCycles =>
      simp only [assign]
      cases setting _ Numeral.integer? text with
      | ok value => rfl
      | error cause => rfl
  | _ => rfl

theorem bind_aloud {first other : Except Refusal Options}
    {next : Options → Except Refusal Options}
    (same : other = first.map aloud)
    (continues : ∀ options, next options.aloud = (next options).map aloud) :
    (other >>= next) = (first >>= next).map aloud := by
  subst same
  cases first with
  | ok options => exact continues options
  | error cause => rfl

theorem follow_aloud (options : Options) (tokens : List Token) :
    follow options.aloud tokens = (follow options tokens).map aloud := by
  have sameProgram (options : Options) :
      options.aloud.program = options.program := rfl
  fun_induction follow options tokens with
  | case1 options => rfl
  | case2 options word tokens taken =>
      simp only [follow, sameProgram, if_pos taken]
      rfl
  | case3 options word tokens free induction =>
      simp only [follow, sameProgram, if_neg free]
      exact induction
  | case4 options word tokens alone taken =>
      rw [follow, sameProgram, if_pos taken]
      · rfl
      · exact alone
  | case5 options word tokens alone free induction =>
      rw [follow, sameProgram, if_neg free]
      · exact induction
      · exact alone
  | case6 options tokens taken =>
      rw [follow, sameProgram, if_pos taken]
      rfl
  | case7 options tokens free induction =>
      rw [follow, sameProgram, if_neg free]
      exact induction
  | case8 options switch value tokens induction =>
      rw [follow]
      exact bind_aloud (options.assign_aloud switch value) induction
  | case9 options switch value tokens valued induction =>
      rw [follow, if_pos valued]
      exact bind_aloud (options.assign_aloud switch value) induction
  | case10 options switch value tokens bare induction =>
      rw [follow, if_neg bare]
      exact bind_aloud (options.enable_aloud switch) induction
  | case11 options switch tokens last induction =>
      rw [follow]
      · exact bind_aloud (options.enable_aloud switch) induction
      · exact last

theorem follow_bare {options : Options} {later : List Token} (switch : Switch)
    (bare : ¬ switch.takesValue = true) :
    follow options (.option switch none :: later) =
      options.enable switch >>= fun reached => follow reached later := by
  cases later with
  | nil => rfl
  | cons token later =>
      cases token with
      | operand value => rw [follow, if_neg bare]
      | terminator | option _ _ => rfl

theorem parse_verbose (words : List String) :
    parse ("-v" :: words) = (parse words).map aloud := by
  have first : Token.ofWord "-v".toList = .ok [.option .verbose none] := rfl
  have other : "-v".toList ≠ ['-', '-'] := by decide
  rw [parse, List.map_cons, Token.ofWords, if_neg other, first, parse]
  cases Token.ofWords (words.map String.toList) with
  | ok tokens => exact (follow_bare .verbose (by decide)).trans (follow_aloud {} tokens)
  | error cause => rfl

end Esoteric.Options
