/-!
# Measured values

A measured value is a binary number of 53 significant bits. What does not fit is
rounded to the nearest value that does, and from half way to the one whose last bit
is zero.
-/

namespace ContactsIndex

/-- The integer nearest to `num / den`, and half way between two the even one. -/
def nearestEven (num den : Nat) : Nat :=
  if 2 * (num % den) < den ∨ (2 * (num % den) = den ∧ num / den % 2 = 0) then num / den else num / den + 1

structure Measure where
  mantissa : Nat
  exponent : Int
  deriving DecidableEq, Repr

namespace Measure

def precision : Nat := 53

def inUnits (num den : Nat) (exponent : Int) : Nat × Nat :=
  (num <<< (-exponent).toNat, den <<< exponent.toNat)

/-- The exponent that gives `num / den` a mantissa of full length. The lengths of
the two numbers tell it up to one. -/
def exponentOf (num den : Nat) : Int :=
  let guess : Int := num.log2 - den.log2 + 1 - precision
  let (n, d) := inUnits num den guess
  if (n / d).log2 + 1 < precision then guess - 1 else guess

def ofRatio (num den : Nat) : Measure :=
  if num = 0 then ⟨0, 0⟩
  else
    let exponent := exponentOf num den
    let (n, d) := inUnits num den exponent
    ⟨nearestEven n d, exponent⟩

def ofNat (n : Nat) : Measure :=
  ofRatio n 1

def numerator (m : Measure) : Nat :=
  m.mantissa <<< m.exponent.toNat

def denominator (m : Measure) : Nat :=
  1 <<< (-m.exponent).toNat

def mulNat (m : Measure) (n : Nat) : Measure :=
  ofRatio (m.numerator * n) m.denominator

def divNat (m : Measure) (n : Nat) : Measure :=
  ofRatio m.numerator (m.denominator * n)

/-- The nearest integer, and half way between two the greater one. -/
def round (m : Measure) : Nat :=
  (2 * m.numerator + m.denominator) / (2 * m.denominator)

def ofMillis (millis : Nat) : Measure :=
  (ofNat millis).divNat 1000

def inMillis (m : Measure) : Measure :=
  m.mulNat 1000

end Measure

end ContactsIndex
