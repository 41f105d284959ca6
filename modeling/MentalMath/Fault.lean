/-! Calculations that have no result. Counts have 32 bits, instants and spans have the range of the
calendar, and a scripted source of words can run dry; a calculation that leaves its range stops
with a `Fault` and no state. -/

namespace MentalMath

/-- The reason why a calculation has no result. -/
inductive Fault where
  | countSum
  /-- A product of counts is above `maxCount`. -/
  | countProduct
  /-- An instant moved forward leaves the calendar. -/
  | instantSum
  /-- An instant moved back leaves the calendar. -/
  | instantDifference
  | spanSum
  | spanDifference
  | zeroPeriod
  /-- A draw was asked of a source of words that has none left. -/
  | wordsExhausted
  /-- A source kept yielding values that were already taken. -/
  | redrawsExhausted
  deriving DecidableEq, Repr

def Fault.message : Fault → String
  | .countSum => "attempt to add with overflow"
  | .countProduct => "attempt to multiply with overflow"
  | .instantSum => "`DateTime + TimeDelta` overflowed"
  | .instantDifference => "`DateTime - TimeDelta` overflowed"
  | .spanSum => "`TimeDelta + TimeDelta` overflowed"
  | .spanDifference => "`TimeDelta - TimeDelta` overflowed"
  | .zeroPeriod => "`period` must be non-zero."
  | .wordsExhausted => "rng exhausted"
  | .redrawsExhausted => "no fresh value was drawn"

/-- A calculation that may have no result. -/
abbrev Checked := Except Fault

/-- A calculation with a result has one at each of its steps. -/
theorem Checked.bind_eq_ok {α β : Type} {x : Checked α} {f : α → Checked β} {b : β} :
    (x >>= f) = .ok b ↔ ∃ a, x = .ok a ∧ f a = .ok b := by
  cases x <;> simp [bind, Except.bind]

def maxCount : Nat := 4294967295

namespace Count

def add (a b : Nat) : Checked Nat :=
  if a + b ≤ maxCount then .ok (a + b) else .error .countSum

def mul (a b : Nat) : Checked Nat :=
  if a * b ≤ maxCount then .ok (a * b) else .error .countProduct

theorem add_eq_ok {a b : Nat} (h : a + b ≤ maxCount) : add a b = .ok (a + b) := by
  simp [add, h]

theorem add_eq_ok_iff {a b n : Nat} : add a b = .ok n ↔ a + b ≤ maxCount ∧ n = a + b := by
  by_cases h : a + b ≤ maxCount <;> simp [add, h, eq_comm]

theorem mul_eq_ok {a b : Nat} (h : a * b ≤ maxCount) : mul a b = .ok (a * b) := by
  simp [mul, h]

theorem mul_eq_ok_iff {a b n : Nat} : mul a b = .ok n ↔ a * b ≤ maxCount ∧ n = a * b := by
  by_cases h : a * b ≤ maxCount <;> simp [mul, h, eq_comm]

/-- One more than a count, which stays at `maxCount` once it is there. -/
def next (n : Nat) : Nat :=
  min (n + 1) maxCount

end Count

end MentalMath
