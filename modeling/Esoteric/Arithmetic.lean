import Esoteric.Fault

namespace Esoteric

def signedByte (number : Int) : Int :=
  number.bmod 0x100

def signedWord (number : Int) : Int :=
  number.bmod 0x100000000

def lowByte (number : Int) : Char :=
  Char.ofNat (number % 0x100).toNat

/-- Division rounds toward zero. -/
def quotient (dividend divisor : Int) : Except Fault Int :=
  if divisor = 0 then .error .divisionByZero else .ok (dividend.tdiv divisor)

/-- The remainder carries the sign of the dividend. -/
def remainder (dividend divisor : Int) : Except Fault Int :=
  if divisor = 0 then .error .moduloByZero else .ok (dividend.tmod divisor)

@[simp] theorem quotient_zero (dividend : Int) :
    quotient dividend 0 = .error .divisionByZero := rfl

@[simp] theorem remainder_zero (dividend : Int) :
    remainder dividend 0 = .error .moduloByZero := rfl

theorem signedByte_lower (number : Int) : -0x80 ≤ signedByte number := by
  unfold signedByte
  have bound : 0 < 0x100 := by decide
  simpa using Int.le_bmod (m := 0x100) bound

theorem signedByte_upper (number : Int) : signedByte number < 0x80 := by
  unfold signedByte
  have bound : 0 < 0x100 := by decide
  simpa using Int.bmod_lt (m := 0x100) bound

theorem signedWord_lower (number : Int) : -0x80000000 ≤ signedWord number := by
  unfold signedWord
  have bound : 0 < 0x100000000 := by decide
  simpa using Int.le_bmod (m := 0x100000000) bound

theorem signedWord_upper (number : Int) : signedWord number < 0x80000000 := by
  unfold signedWord
  have bound : 0 < 0x100000000 := by decide
  simpa using Int.bmod_lt (m := 0x100000000) bound

end Esoteric
