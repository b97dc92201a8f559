import Mathlib.Data.Int.ModEq
import Esoteric.Arithmetic

namespace Esoteric

def IsWord (number : Int) : Prop :=
  -0x80000000 ≤ number ∧ number < 0x80000000

instance (number : Int) : Decidable (IsWord number) :=
  inferInstanceAs (Decidable (_ ∧ _))

variable {number word dividend divisor : Int}

theorem isWord_signedWord (number : Int) : IsWord (signedWord number) :=
  ⟨signedWord_lower number, signedWord_upper number⟩

theorem signedWord_eq_sub (number : Int) :
    signedWord number =
      (number + 0x80000000) % 0x100000000 - 0x80000000 := by
  rw [signedWord, Int.bmod_def]
  split <;> omega

theorem signedWord_of_isWord (isWord : IsWord number) :
    signedWord number = number :=
  Int.bmod_eq_of_le isWord.1 isWord.2

theorem signedWord_modEq (number : Int) :
    signedWord number ≡ number [ZMOD 0x100000000] :=
  Int.bmod_emod

theorem signedWord_congr (congruent : word ≡ number [ZMOD 0x100000000]) :
    signedWord word = signedWord number := by
  unfold signedWord
  rw [← Int.emod_bmod, ← Int.emod_bmod number]
  exact congrArg (Int.bmod · 0x100000000) congruent

theorem eq_signedWord_iff :
    word = signedWord number ↔
      IsWord word ∧ word ≡ number [ZMOD 0x100000000] := by
  constructor
  · rintro rfl
    exact ⟨isWord_signedWord number, signedWord_modEq number⟩
  · rintro ⟨isWord, congruent⟩
    rw [← signedWord_congr congruent, signedWord_of_isWord isWord]

theorem tdiv_eq_ite (dividend divisor : Int) :
    dividend.tdiv divisor =
      if divisor < 0 ↔ dividend < 0 then
        ↑(dividend.natAbs / divisor.natAbs)
      else -↑(dividend.natAbs / divisor.natAbs) := by
  have nonnegative (size : Nat) : ¬ Int.ofNat size < 0 :=
    Int.not_lt.2 (Int.natCast_nonneg size)
  have negative (size : Nat) : Int.negSucc size < 0 := Int.negSucc_lt_zero size
  cases dividend with
  | ofNat dividend =>
      cases divisor with
      | ofNat divisor =>
          rw [if_pos (iff_of_false (nonnegative _) (nonnegative _))]
          rfl
      | negSucc divisor =>
          rw [if_neg fun same => nonnegative _ (same.1 (negative _))]
          rfl
  | negSucc dividend =>
      cases divisor with
      | ofNat divisor =>
          rw [if_neg fun same => nonnegative _ (same.2 (negative _))]
          rfl
      | negSucc divisor =>
          rw [if_pos (iff_of_true (negative _) (negative _))]
          rfl

theorem exists_quotient_remainder (dividend : Int) (nonzero : divisor ≠ 0) :
    ∃ whole part, quotient dividend divisor = .ok whole ∧
      remainder dividend divisor = .ok part ∧
      (whole = if divisor < 0 ↔ dividend < 0 then
          ↑(dividend.natAbs / divisor.natAbs)
        else -↑(dividend.natAbs / divisor.natAbs)) ∧
      dividend = divisor * whole + part ∧
      part.natAbs < divisor.natAbs ∧
      (part = 0 ∨ part.sign = dividend.sign) := by
  refine ⟨dividend.tdiv divisor, dividend.tmod divisor, if_neg nonzero,
    if_neg nonzero, tdiv_eq_ite dividend divisor,
    (Int.mul_tdiv_add_tmod dividend divisor).symm, ?_, ?_⟩
  · rw [Int.natAbs_tmod]
    exact Nat.mod_lt _ (Int.natAbs_pos.2 nonzero)
  · by_cases divides : divisor ∣ dividend
    · exact .inl (Int.tmod_eq_zero_of_dvd divides)
    · right
      rw [Int.sign_tmod, if_neg divides]

inductive Formula where
  | literal (constant : Int)
  | add (left right : Formula)
  | subtract (left right : Formula)
  | multiply (left right : Formula)
deriving DecidableEq, Repr

namespace Formula

def value : Formula → Int
  | literal constant => constant
  | add left right => left.value + right.value
  | subtract left right => left.value - right.value
  | multiply left right => left.value * right.value

/-- The results of a formula, any part of which may be cut down to a word. -/
inductive Yields : Formula → Int → Prop
  | literal : (literal constant).Yields constant
  | add : left.Yields first → right.Yields second →
      (add left right).Yields (first + second)
  | subtract : left.Yields first → right.Yields second →
      (subtract left right).Yields (first - second)
  | multiply : left.Yields first → right.Yields second →
      (multiply left right).Yields (first * second)
  | cut : Yields formula result → Yields formula (signedWord result)

variable {formula : Formula} {result : Int}

theorem Yields.modEq (yields : formula.Yields result) :
    result ≡ formula.value [ZMOD 0x100000000] := by
  induction yields with
  | literal => rfl
  | add _ _ left right => exact left.add right
  | subtract _ _ left right => exact left.sub right
  | multiply _ _ left right => exact left.mul right
  | cut _ induction => exact (signedWord_modEq _).trans induction

end Formula

end Esoteric
