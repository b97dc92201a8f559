import Esoteric.Proofs.Brainfuck.Matching

namespace Esoteric.Brainfuck

variable {c : Char} {text : List Char}

@[simp] theorem Command.ofChar?_eq_opening :
    Command.ofChar? c = some .opening ↔ c = '[' := by
  unfold Command.ofChar?
  split <;> simp_all

@[simp] theorem Command.ofChar?_eq_closing :
    Command.ofChar? c = some .closing ↔ c = ']' := by
  unfold Command.ofChar?
  split <;> simp_all

inductive Action where
  | right
  | left
  | increment
  | decrement
  | output
  | input
deriving DecidableEq, Repr

def Action.command : Action → Command
  | right => .right
  | left => .left
  | increment => .increment
  | decrement => .decrement
  | output => .output
  | input => .input

theorem Command.eq_bracket_or_action (command : Command) :
    command = .opening ∨ command = .closing ∨
      ∃ action : Action, command = action.command := by
  cases command with
  | opening => exact .inl rfl
  | closing => exact .inr (.inl rfl)
  | right => exact .inr (.inr ⟨.right, rfl⟩)
  | left => exact .inr (.inr ⟨.left, rfl⟩)
  | increment => exact .inr (.inr ⟨.increment, rfl⟩)
  | decrement => exact .inr (.inr ⟨.decrement, rfl⟩)
  | output => exact .inr (.inr ⟨.output, rfl⟩)
  | input => exact .inr (.inr ⟨.input, rfl⟩)

theorem Command.ne_bracket_of_comment (isComment : Command.ofChar? c = none) :
    c ≠ '[' ∧ c ≠ ']' := by
  constructor <;> rintro rfl <;> contradiction

theorem Command.ne_bracket_of_action {action : Action}
    (isAction : Command.ofChar? c = some action.command) : c ≠ '[' ∧ c ≠ ']' := by
  constructor <;> rintro rfl <;> cases action <;> contradiction

inductive Block where
  | done
  | act (action : Action) (rest : Block)
  | loop (body rest : Block)
deriving DecidableEq, Repr

namespace Block

def commands : Block → List Command
  | done => []
  | act action rest => action.command :: rest.commands
  | loop body rest => .opening :: body.commands ++ .closing :: rest.commands

/-- A text spells a block when it consists of its commands and of comments. -/
def SpelledBy (block : Block) (text : List Char) : Prop :=
  text.filterMap Command.ofChar? = block.commands

/-- Puts a command before a block, which is followed by the rests of the loops
that end in it, the innermost first. -/
def prepend (command : Command) (block : Block) (outer : List Block) :
    Option (Block × List Block) :=
  match command with
  | .opening =>
      match outer with
      | [] => none
      | rest :: outer => some (loop block rest, outer)
  | .closing => some (done, block :: outer)
  | .right => some (act .right block, outer)
  | .left => some (act .left block, outer)
  | .increment => some (act .increment block, outer)
  | .decrement => some (act .decrement block, outer)
  | .output => some (act .output block, outer)
  | .input => some (act .input block, outer)

@[simp] theorem prepend_action (action : Action) (block : Block)
    (outer : List Block) :
    prepend action.command block outer = some (act action block, outer) := by
  cases action <;> rfl

def scan : List Command → Option (Block × List Block)
  | [] => some (done, [])
  | command :: commands =>
      match scan commands with
      | none => none
      | some (block, outer) => prepend command block outer

def parse (text : List Char) : Option Block :=
  match scan (text.filterMap Command.ofChar?) with
  | some (block, []) => some block
  | _ => none

theorem commands_of_scan {commands : List Command} {block : Block}
    {outer : List Block} (result : scan commands = some (block, outer)) :
    commands = block.commands ++
      outer.flatMap fun rest => .closing :: rest.commands := by
  induction commands generalizing block outer with
  | nil =>
      cases result
      rfl
  | cons command commands induction =>
      rw [scan] at result
      split at result
      · contradiction
      · rename_i inner outside equality
        have remaining := induction equality
        subst remaining
        obtain rfl | rfl | ⟨action, rfl⟩ := command.eq_bracket_or_action
        · cases outside with
          | nil => contradiction
          | cons rest outside =>
              cases result
              simp [Block.commands]
        · cases result
          simp [Block.commands]
        · rw [prepend_action] at result
          cases result
          simp [Block.commands]

theorem spelledBy_of_parse {block : Block}
    (result : parse text = some block) : block.SpelledBy text := by
  rw [parse] at result
  split at result
  · rename_i parsed equality
    cases result
    simpa [SpelledBy] using commands_of_scan equality
  · contradiction

/-- Brackets match from the last to the first when no suffix begins more loops
than it ends. -/
theorem exists_scan
    (bounded : ∀ suffix, suffix <:+ text →
      suffix.count '[' ≤ suffix.count ']') :
    ∃ block outer, scan (text.filterMap Command.ofChar?) = some (block, outer) ∧
      outer.length + text.count '[' = text.count ']' := by
  induction text with
  | nil => exact ⟨done, [], rfl, rfl⟩
  | cons c text induction =>
      obtain ⟨block, outer, scanned, surplus⟩ := induction
        fun suffix isSuffix => bounded suffix (isSuffix.trans (List.suffix_cons ..))
      have whole := bounded (c :: text) (List.suffix_refl _)
      cases decoded : Command.ofChar? c with
      | none =>
          have notBracket := Command.ne_bracket_of_comment decoded
          refine ⟨block, outer, ?_, ?_⟩
          · rw [List.filterMap_cons_none decoded]
            exact scanned
          · rw [List.count_cons_of_ne notBracket.1,
              List.count_cons_of_ne notBracket.2]
            exact surplus
      | some command =>
          rw [List.filterMap_cons_some decoded, scan, scanned]
          obtain rfl | rfl | ⟨action, rfl⟩ := command.eq_bracket_or_action
          · rw [Command.ofChar?_eq_opening] at decoded
            subst decoded
            rw [List.count_cons_self, List.count_cons_of_ne (by decide)] at whole
            cases outer with
            | nil =>
                rw [List.length_nil] at surplus
                omega
            | cons rest outer =>
                refine ⟨loop block rest, outer, rfl, ?_⟩
                rw [List.count_cons_self, List.count_cons_of_ne (by decide)]
                rw [List.length_cons] at surplus
                omega
          · rw [Command.ofChar?_eq_closing] at decoded
            subst decoded
            refine ⟨done, block :: outer, rfl, ?_⟩
            rw [List.count_cons_self, List.count_cons_of_ne (by decide),
              List.length_cons]
            omega
          · have notBracket := Command.ne_bracket_of_action decoded
            refine ⟨act action block, outer, prepend_action .., ?_⟩
            rw [List.count_cons_of_ne notBracket.1,
              List.count_cons_of_ne notBracket.2]
            exact surplus

theorem exists_parse (balanced : Balanced text) :
    ∃ block, parse text = some block := by
  have bounded : ∀ suffix, suffix <:+ text →
      suffix.count '[' ≤ suffix.count ']' := by
    rintro suffix ⟨start, rfl⟩
    have earlier := balanced.bounded start (List.prefix_append ..)
    have whole := balanced.even
    rw [List.count_append, List.count_append] at whole
    omega
  obtain ⟨block, outer, scanned, surplus⟩ := exists_scan bounded
  have empty : outer = [] := by
    have whole := balanced.even
    exact List.eq_nil_of_length_eq_zero (by omega)
  subst empty
  exact ⟨block, by rw [parse, scanned]⟩

namespace SpelledBy

theorem act_layout {action : Action} {rest : Block}
    (spelled : (act action rest).SpelledBy text) :
    ∃ comments c later, text = comments ++ c :: later ∧
      (∀ c ∈ comments, Command.ofChar? c = none) ∧
      Command.ofChar? c = some action.command ∧ rest.SpelledBy later := by
  obtain ⟨comments, c, later, layout, areComments, decoded, remaining⟩ :=
    List.filterMap_eq_cons_iff.1 spelled
  exact ⟨comments, c, later, layout, areComments, decoded, remaining⟩

theorem loop_layout {body rest : Block}
    (spelled : (loop body rest).SpelledBy text) :
    ∃ comments inner later, text = comments ++ '[' :: inner ++ ']' :: later ∧
      (∀ c ∈ comments, Command.ofChar? c = none) ∧
      body.SpelledBy inner ∧ rest.SpelledBy later := by
  obtain ⟨comments, c, tail, rfl, areComments, decoded, remaining⟩ :=
    List.filterMap_eq_cons_iff.1 spelled
  obtain rfl := Command.ofChar?_eq_opening.1 decoded
  obtain ⟨inner, closed, rfl, innerSpelled, closedSpelled⟩ :=
    List.filterMap_eq_append_iff.1 remaining
  obtain ⟨trailing, c, later, rfl, areTrailing, decoded, laterSpelled⟩ :=
    List.filterMap_eq_cons_iff.1 closedSpelled
  obtain rfl := Command.ofChar?_eq_closing.1 decoded
  refine ⟨comments, inner ++ trailing, later, by simp, areComments, ?_,
    laterSpelled⟩
  rw [SpelledBy, List.filterMap_append, List.filterMap_eq_nil_iff.2 areTrailing,
    List.append_nil]
  exact innerSpelled

theorem unwinds {block : Block} (spelled : block.SpelledBy text) :
    Unwinds '[' ']' 0 text := by
  have comments_unwind {comments : List Char}
      (areComments : ∀ c ∈ comments, Command.ofChar? c = none) :
      Unwinds '[' ']' 0 comments := by
    induction comments with
    | nil => exact Unwinds.nil_iff.2 rfl
    | cons c comments induction =>
        have notBracket := Command.ne_bracket_of_comment (areComments c (by simp))
        exact (Unwinds.cons_other_iff notBracket.1 notBracket.2).2
          (induction fun c member => areComments c (List.mem_cons_of_mem _ member))
  have distinct : '[' ≠ ']' := by decide
  induction block generalizing text with
  | done => exact comments_unwind (List.filterMap_eq_nil_iff.1 spelled)
  | act action rest induction =>
      obtain ⟨comments, c, later, rfl, areComments, decoded, remaining⟩ :=
        spelled.act_layout
      have notBracket := Command.ne_bracket_of_action decoded
      exact (comments_unwind areComments).append
        ((Unwinds.cons_other_iff notBracket.1 notBracket.2).2
          (induction remaining))
  | loop body rest bodyInduction restInduction =>
      obtain ⟨comments, inner, later, rfl, areComments, innerSpelled,
        laterSpelled⟩ := spelled.loop_layout
      have closed : Unwinds '[' ']' 1 (']' :: later) :=
        (Unwinds.cons_leave_iff distinct).2
          ⟨0, rfl, restInduction laterSpelled⟩
      have opened : Unwinds '[' ']' 0 ('[' :: (inner ++ ']' :: later)) :=
        (Unwinds.cons_enter_iff distinct).2
          ((bodyInduction innerSpelled).append closed)
      rw [List.append_assoc]
      exact (comments_unwind areComments).append opened

theorem balanced {block : Block} (spelled : block.SpelledBy text) :
    Balanced text :=
  balanced_iff_unwinds.2 spelled.unwinds

end SpelledBy

theorem parse_isSome_iff_balanced : (parse text).isSome ↔ Balanced text := by
  constructor
  · intro parsed
    obtain ⟨block, result⟩ := Option.isSome_iff_exists.1 parsed
    exact (spelledBy_of_parse result).balanced
  · intro balanced
    exact Option.isSome_iff_exists.2 (exists_parse balanced)

instance : Decidable (Balanced text) :=
  decidable_of_iff _ parse_isSome_iff_balanced

end Block

end Esoteric.Brainfuck
