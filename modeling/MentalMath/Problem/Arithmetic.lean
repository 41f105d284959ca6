import MentalMath.Problem
import MentalMath.Text.Numeral

/-! Problems of sums, differences, products and quotients of given numbers. -/

namespace MentalMath.Problem

def operationText (a : Nat) (operator : String) (b : Nat) : String :=
  toString a ++ " " ++ operator ++ " " ++ toString b

/-- A problem to be answered by typing. -/
def free (category : Category) (expression answer : String) (now : Instant) : Problem :=
  ⟨category, expression, answer, none, now⟩

def addition (category : Category) (a b : Nat) (now : Instant) : Checked Problem := do
  let sum ← Count.add a b
  return free category (operationText a "+" b) (toString sum) now

/-- The difference of two numbers. The second is at most taken to be the first, so the difference is
never negative. -/
def subtraction (category : Category) (a b : Nat) (now : Instant) : Problem :=
  free category (operationText a "-" (min b a)) (toString (a - min b a)) now

def multiplication (a b : Nat) (now : Instant) : Checked Problem := do
  let product ← Count.mul a b
  return free Skill.twoDigitMultiplication (operationText a "×" b) (toString product) now

/-- Brings a number into the five digits from 10000 to 99999: a smaller one is lifted, a larger one
starts over. -/
def foldDividend (raw : Nat) : Nat :=
  let lifted := if raw < 10000 then raw + 10000 else raw
  if 99999 < lifted then lifted % 90000 + 10000 else lifted

/-- A five-digit dividend near `divisor * seed + remainder`. -/
def dividend (divisor seed remainder : Nat) : Checked Nat := do
  return foldDividend (← Count.add (← Count.mul divisor seed) remainder)

/-- How many leading digits of the quotient a problem asks for. -/
def quotientDigits : Category → Nat
  | .skill .divisionLeadingDigit => 1
  | _ => 2

/-- The leading digits of a quotient, where a divisor of zero counts as one. -/
def division (category : Category) (dividend divisor : Nat) (now : Instant) : Problem :=
  let quotient := dividend / max divisor 1
  free category (operationText dividend "÷" divisor)
    (String.ofList ((Nat.toDigits 10 quotient).take (quotientDigits category))) now

theorem foldDividend_range (raw : Nat) :
    10000 ≤ foldDividend raw ∧ foldDividend raw ≤ 99999 := by
  simp only [foldDividend]
  split <;> split <;> omega

end MentalMath.Problem
