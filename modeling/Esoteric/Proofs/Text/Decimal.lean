import Esoteric.Text.Numeral

/-! Integers in plain digits, which are read for what they are. -/

namespace Esoteric

/-- An integer written in the digits from 0 to 9, with a hyphen before them if it is
negative. Zeros may lead. -/
structure Decimal where
  negative : Bool
  digits : List Char
  filled : digits ≠ []
  plain : ∀ c ∈ digits, c.isDigit = true
  bounded : digits.length ≤ Numeral.mostDigits

namespace Decimal

def text (decimal : Decimal) : List Char :=
  if decimal.negative then '-' :: decimal.digits else decimal.digits

def word (decimal : Decimal) : String :=
  String.ofList decimal.text

@[simp] theorem toList_word (decimal : Decimal) :
    decimal.word.toList = decimal.text :=
  String.toList_ofList

def value (decimal : Decimal) : Int :=
  let number := Nat.ofDigitChars 10 decimal.digits 0
  if decimal.negative then -number else number

end Decimal

namespace Numeral

variable {c : Char} {text : List Char}

theorem code_of_isDigit (digit : c.isDigit = true) :
    48 ≤ c.toNat ∧ c.toNat ≤ 57 := by
  simpa [Char.isDigit, UInt32.le_iff_toNat_le] using digit

theorem digit?_of_isDigit (digit : c.isDigit = true) :
    digit? c = some (c.toNat - 48) := by
  have code := code_of_isDigit digit
  have found : zeros.find? (fun base => base ≤ c.toNat && c.toNat < base + 10) =
      some 0x30 := by
    have first : zeros = 0x30 :: zeros.tail := rfl
    rw [first]
    apply List.find?_cons_of_pos
    simp only [Bool.and_eq_true, decide_eq_true_eq]
    omega
  rw [digit?, found]
  rfl

theorem not_isBlank_of_isDigit (digit : c.isDigit = true) :
    isBlank c = false := by
  have code := code_of_isDigit digit
  have notSpace : c ≠ ' ' := by
    rintro rfl
    contradiction
  simp only [isBlank, Bool.or_eq_false_iff, Bool.and_eq_false_iff,
    decide_eq_false_iff_not, notSpace, not_false_eq_true, and_true]
  omega

theorem digits?_of_plain (filled : text ≠ [])
    (plain : ∀ c ∈ text, c.isDigit = true) :
    digits? text = some (text.map fun c => c.toNat - 48) := by
  induction text with
  | nil => contradiction
  | cons c text induction =>
      obtain ⟨first, rest⟩ := List.forall_mem_cons.1 plain
      cases text with
      | nil => rw [digits?, digit?_of_isDigit first]; rfl
      | cons next text =>
          have second := rest next List.mem_cons_self
          rw [digits?, digit?_of_isDigit first,
            induction (List.cons_ne_nil next text) rest]
          · rfl
          · exact List.cons_ne_nil next text
          · rintro later same
            obtain ⟨rfl, _⟩ := List.cons.inj same
            contradiction

theorem natural?_of_plain (filled : text ≠ [])
    (plain : ∀ c ∈ text, c.isDigit = true) (bounded : text.length ≤ mostDigits) :
    natural? text = some (Nat.ofDigitChars 10 text 0) := by
  rw [natural?, digits?_of_plain filled plain]
  simp only [Option.bind_eq_bind, Option.bind_some, List.length_map, if_pos bounded,
    List.foldl_map]
  rfl

theorem trim_of_visible (visible : ∀ c ∈ text, isBlank c = false) :
    trim text = text := by
  have kept {text : List Char} (visible : ∀ c ∈ text, isBlank c = false) :
      text.dropWhile isBlank = text := by
    cases text with
    | nil => rfl
    | cons c text =>
        have shown := visible c List.mem_cons_self
        rw [List.dropWhile_cons_of_neg (by simp [shown])]
  have backwards : ∀ c ∈ text.reverse, isBlank c = false := by
    intro c member
    exact visible c (List.mem_reverse.1 member)
  rw [trim, kept visible, kept backwards, List.reverse_reverse]

end Numeral

namespace Decimal

open Numeral

theorem visible (decimal : Decimal) : ∀ c ∈ decimal.text, isBlank c = false := by
  have digits : ∀ c ∈ decimal.digits, isBlank c = false := by
    intro c member
    exact not_isBlank_of_isDigit (decimal.plain c member)
  rw [text]
  split
  · exact List.forall_mem_cons.2 ⟨by decide, digits⟩
  · exact digits

theorem head?_digits (decimal : Decimal) {c : Char} (odd : c.isDigit = false) :
    decimal.digits.head? ≠ some c := by
  intro first
  have digit := decimal.plain c (List.mem_of_mem_head? first)
  rw [odd] at digit
  contradiction

theorem integer?_text (decimal : Decimal) :
    integer? decimal.text = some decimal.value := by
  have number :=
    natural?_of_plain decimal.filled decimal.plain decimal.bounded
  rw [integer?, trim_of_visible decimal.visible, text, value]
  cases decimal.negative with
  | true =>
      simp only [if_true, number]
      rfl
  | false =>
      simp only [Bool.false_eq_true, if_false]
      split
      · rename_i signed
        have first := decimal.head?_digits (c := '-') rfl
        rw [signed] at first
        contradiction
      · rename_i signed
        have first := decimal.head?_digits (c := '+') rfl
        rw [signed] at first
        contradiction
      · rw [number]
        rfl

theorem text_ne_hyphens (decimal : Decimal) : decimal.text ≠ ['-', '-'] := by
  intro same
  have number := decimal.integer?_text
  rw [same] at number
  contradiction

def ofInt (number : Int)
    (short : (Nat.toDigits 10 number.natAbs).length ≤ mostDigits) : Decimal where
  negative := number < 0
  digits := Nat.toDigits 10 number.natAbs
  filled := Nat.toDigits_ne_nil
  plain _ := Nat.isDigit_of_mem_toDigits (by decide) (by decide)
  bounded := short

variable {number : Int} (short : (Nat.toDigits 10 number.natAbs).length ≤ mostDigits)

theorem word_ofInt : (ofInt number short).word = toString number := by
  rw [← String.toList_inj, toList_word, Int.toString_eq_repr, Int.repr_eq_if, text]
  by_cases negative : number < 0
  · have signed : (ofInt number short).negative = true := decide_eq_true negative
    have magnitude : (-number).toNat = number.natAbs := by omega
    rw [if_pos signed, if_neg (by omega), magnitude, String.toList_append,
      Nat.toList_repr]
    rfl
  · have signed : (ofInt number short).negative = false := decide_eq_false negative
    have magnitude : number.toNat = number.natAbs := by omega
    rw [signed, if_neg Bool.false_ne_true, if_pos (by omega), magnitude,
      Nat.toList_repr]
    rfl

theorem value_ofInt : (ofInt number short).value = number := by
  rw [value]
  simp only [ofInt, Nat.ofDigitChars_ten_toDigits, decide_eq_true_eq]
  split <;> omega

end Decimal

end Esoteric
