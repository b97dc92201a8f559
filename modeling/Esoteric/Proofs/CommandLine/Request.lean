import Mathlib.Data.List.TakeWhile
import Esoteric.CommandLine.Options
import Esoteric.Proofs.CommandLine.Operand
import Esoteric.Proofs.Text.Decimal

/-! Words that ask for one option, in all their spellings, and what is made of them. -/

namespace Esoteric

/-- How an option stands by its value. -/
inductive Manner where
  | letter
  | apart
  | joined
deriving DecidableEq, Repr

inductive Policy where
  | strict
  | silent
deriving DecidableEq, Repr

def Policy.edge : Policy → Edge
  | strict => .strict
  | silent => .silent 32

theorem Policy.edge_injective {first second : Policy}
    (same : first.edge = second.edge) : first = second := by
  cases first <;> cases second <;> first | rfl | contradiction

/-- What some words of a command line ask for, and how they are spelled. -/
inductive Request where
  | language (manner : Manner) (choice : Language)
  | edge (policy : Policy)
  | width (manner : Manner) (columns : Decimal)
  | maxCycles (joined : Bool) (limit : Decimal)
  | verbose (short : Bool)

namespace Request

def words : Request → List String
  | language .letter choice => ["-l", choice.name]
  | language .apart choice => ["--lang", choice.name]
  | language .joined choice => ["--lang=" ++ choice.name]
  | edge .strict => ["--strict"]
  | edge .silent => ["--silent"]
  | width .letter columns => ["-w", columns.word]
  | width .apart columns => ["--width", columns.word]
  | width .joined columns => ["--width=" ++ columns.word]
  | maxCycles false limit => ["--max-cycles", limit.word]
  | maxCycles true limit => ["--max-cycles=" ++ limit.word]
  | verbose true => ["-v"]
  | verbose false => ["--verbose"]

def switch : Request → Switch
  | language .. => .language
  | edge .strict => .strict
  | edge .silent => .silent
  | width .. => .width
  | maxCycles .. => .maxCycles
  | verbose _ => .verbose

end Request

namespace Token

variable {word : List Char} {words later : List (List Char)}
  {tokens laterTokens : List Token} {switch : Switch} {c : Char}

/-- Words that stand for tokens, whatever follows them. -/
def Reads (words : List (List Char)) (tokens : List Token) : Prop :=
  ∀ rest, ofWords (words ++ rest) = (ofWords rest).map (tokens ++ ·)

theorem Reads.nil : Reads [] [] := by
  intro rest
  rw [List.nil_append]
  cases ofWords rest <;> rfl

theorem Reads.append (reads : Reads words tokens)
    (readsLater : Reads later laterTokens) :
    Reads (words ++ later) (tokens ++ laterTokens) := by
  intro rest
  rw [List.append_assoc, reads, readsLater]
  cases ofWords rest with
  | ok found => simp only [Except.map, List.append_assoc]
  | error cause => rfl

theorem Reads.ofWords_eq (reads : Reads words tokens) :
    ofWords words = .ok tokens := by
  have whole := reads []
  rw [List.append_nil] at whole
  rw [whole, ofWords, Except.map, List.append_nil]

theorem reads_word (other : word ≠ ['-', '-'])
    (read : ofWord word = .ok tokens) : Reads [word] tokens := by
  intro rest
  rw [List.singleton_append, ofWords, if_neg other, read]
  cases ofWords rest <;> rfl

theorem reads_plain (plain : word.head? ≠ some '-') :
    Reads [word] [.operand word] := by
  apply reads_word ?_ (ofWord_of_plain plain)
  rintro rfl
  exact plain rfl

theorem reads_spelling (switch : Switch) :
    Reads [switch.spelling.toList] [.option switch none] := by
  apply reads_word
  · cases switch <;> decide
  · cases switch <;> rfl

theorem reads_letter (switch : Switch) (letter : switch.letter? = some c) :
    Reads [['-', c]] [.option switch none] := by
  cases switch <;> cases letter <;> exact reads_word (by decide) rfl

theorem assignment_joined {start : List Char} (apart : '=' ∉ start)
    (value : List Char) :
    assignment (start ++ '=' :: value) = (start, some value) := by
  have before : ∀ c ∈ start, decide (c ≠ '=') = true := by
    intro c member
    rw [decide_eq_true_eq]
    rintro rfl
    exact apart member
  have rest : (start ++ '=' :: value).dropWhile (· ≠ '=') = '=' :: value := by
    rw [List.dropWhile_append_of_pos before]
    rfl
  have first : (start ++ '=' :: value).takeWhile (· ≠ '=') = start := by
    rw [List.takeWhile_append_of_pos before]
    exact List.append_nil start
  simp only [assignment, rest, first]

theorem reads_joined (switch : Switch) (valued : switch.takesValue = true) (value : List Char) :
    Reads [switch.spelling.toList ++ '=' :: value]
      [.option switch (some value)] := by
  have spelled : ofLong (switch.spelling.toList ++ '=' :: value) =
      assigned switch value := by
    have apart : '=' ∉ switch.spelling.toList := by
      cases switch <;> decide
    have only : Switch.startingWith switch.spelling.toList = [switch] := by
      cases switch <;> rfl
    simp only [ofLong, assignment_joined apart, only]
  rw [assigned, if_pos valued] at spelled
  cases switch with
  | language | width | maxCycles => exact reads_word (by simp [Switch.spelling]) spelled
  | _ => contradiction

theorem isNegative_of_plain {digits : List Char} (filled : digits ≠ [])
    (plain : ∀ c ∈ digits, c.isDigit = true) :
    isNegative ('-' :: digits) = true := by
  have ended : digits.getLast? ≠ some '\n' := by
    intro last
    have digit := plain '\n' (List.mem_of_getLast? last)
    contradiction
  have all : digits.dropWhile isDigit = [] := by
    rw [List.dropWhile_eq_nil_iff]
    intro c member
    rw [isDigit, Numeral.digit?_of_isDigit (plain c member)]
    rfl
  rw [isNegative, if_neg ended, isDecimal, all, List.isEmpty_eq_false_iff.2 filled]
  rfl

theorem ofLetter?_of_isDigit (digit : c.isDigit = true) :
    Switch.ofLetter? c = none := by
  rw [Switch.ofLetter?, List.find?_eq_none]
  intro switch _ found
  have letter := of_decide_eq_true found
  cases switch <;> cases letter <;> contradiction

theorem reads_decimal (decimal : Decimal) :
    Reads [decimal.word.toList] [.operand decimal.text] := by
  rw [Decimal.toList_word]
  apply reads_word decimal.text_ne_hyphens
  rw [Decimal.text]
  cases decimal.negative with
  | false => exact ofWord_of_plain (decimal.head?_digits rfl)
  | true =>
      have number := isNegative_of_plain decimal.filled decimal.plain
      rw [if_pos rfl]
      cases shape : decimal.digits with
      | nil => exact absurd shape decimal.filled
      | cons first rest =>
          rw [shape] at number
          have digit := decimal.plain first (by simp [shape])
          rw [ofWord]
          · simp only [ofLetter?_of_isDigit digit, ofUnmatched, number, Bool.true_or,
              if_true]
          · rintro rfl
            contradiction

end Token

namespace Request

def tokens : Request → List Token
  | language .joined choice => [.option .language (some choice.name.toList)]
  | language _ choice => [.option .language none, .operand choice.name.toList]
  | width .joined columns => [.option .width (some columns.text)]
  | width _ columns => [.option .width none, .operand columns.text]
  | maxCycles true limit => [.option .maxCycles (some limit.text)]
  | maxCycles false limit => [.option .maxCycles none, .operand limit.text]
  | request => [.option request.switch none]

theorem reads_words (request : Request) :
    Token.Reads (request.words.map String.toList) request.tokens := by
  have plain (language : Language) : language.name.toList.head? ≠ some '-' := by
    cases language <;> decide
  cases request with
  | language manner choice =>
      have value := Token.reads_plain (plain choice)
      cases manner with
      | letter => exact .append (Token.reads_letter .language rfl) value
      | apart => exact .append (Token.reads_spelling .language) value
      | joined =>
          rw [words, List.map_singleton, String.toList_append]
          exact Token.reads_joined .language rfl _
  | edge policy =>
      cases policy with
      | strict => exact Token.reads_spelling .strict
      | silent => exact Token.reads_spelling .silent
  | width manner columns =>
      have value := Token.reads_decimal columns
      cases manner with
      | letter => exact .append (Token.reads_letter .width rfl) value
      | apart => exact .append (Token.reads_spelling .width) value
      | joined =>
          rw [words, List.map_singleton, String.toList_append, Decimal.toList_word]
          exact Token.reads_joined .width rfl _
  | maxCycles joined limit =>
      cases joined with
      | false =>
          exact .append (Token.reads_spelling .maxCycles) (Token.reads_decimal limit)
      | true =>
          rw [words, List.map_singleton, String.toList_append, Decimal.toList_word]
          exact Token.reads_joined .maxCycles rfl _
  | verbose short =>
      cases short with
      | false => exact Token.reads_spelling .verbose
      | true => exact Token.reads_letter .verbose rfl

end Request

end Esoteric
