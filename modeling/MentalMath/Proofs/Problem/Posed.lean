import Mathlib.Algebra.Group.Nat.Defs
import MentalMath.Problem.Choices

/-! What a problem of a skill is: operands in the range of the skill, their operation as the text of
the problem, and the answer to it. The answers are described by the numbers that they are, apart from
how a problem makes them. -/

namespace MentalMath

/-- A text is the first `n` digits of a number that has as many: what is left of it when some digits are
cut off its end. -/
def LeadingDigits (n q : Nat) (text : String) : Prop :=
  ∃ k, 10 ^ (n - 1) ≤ q / 10 ^ k ∧ q / 10 ^ k < 10 ^ n ∧ text = toString (q / 10 ^ k)

/-- A text is a quotient in hundredths, with two digits after its point. The hundredths are the nearest
ones to the quotient, the larger ones of two. -/
def Hundredths (a b : Nat) (text : String) : Prop :=
  ∃ cents, cents * (2 * b) ≤ 200 * a + b ∧ 200 * a + b < (cents + 1) * (2 * b) ∧
    text = toString (cents / 100) ++ "." ++ (toString (cents / 10 % 10) ++ toString (cents % 10))

namespace Skill

/-- The sign of the operation of a skill. -/
def sign : Skill → String
  | .twoDigitAddition | .threeDigitAddition => "+"
  | .twoDigitSubtraction | .threeDigitSubtraction => "-"
  | .twoDigitMultiplication => "×"
  | .divisionLeadingDigit | .divisionTwoDigits | .fourDigitDivision => "÷"

/-- The operands of the problems of a skill. -/
def Operands : Skill → Nat → Nat → Prop
  | .twoDigitAddition, a, b => (10 ≤ a ∧ a ≤ 99) ∧ 10 ≤ b ∧ b ≤ 99
  | .twoDigitSubtraction, a, b => (10 ≤ a ∧ a ≤ 99) ∧ 10 ≤ b ∧ b ≤ a
  | .threeDigitAddition, a, b => (100 ≤ a ∧ a ≤ 999) ∧ 100 ≤ b ∧ b ≤ 999
  | .threeDigitSubtraction, a, b => (100 ≤ a ∧ a ≤ 999) ∧ 100 ≤ b ∧ b ≤ a
  | .twoDigitMultiplication, a, b => (10 ≤ a ∧ a ≤ 99) ∧ 2 ≤ b ∧ b ≤ 9
  | .divisionLeadingDigit, a, b => (10000 ≤ a ∧ a ≤ 99999) ∧ 10 ≤ b ∧ b ≤ 99
  | .divisionTwoDigits, a, b => (10000 ≤ a ∧ a ≤ 99999) ∧ 100 ≤ b ∧ b ≤ 999
  | .fourDigitDivision, a, b => (1000 ≤ a ∧ a ≤ 9999) ∧ 1000 ≤ b ∧ b ≤ 9999

/-- A text is the answer to the problem of a skill with some operands. -/
def Solves : Skill → Nat → Nat → String → Prop
  | .twoDigitAddition, a, b, text | .threeDigitAddition, a, b, text => text = toString (a + b)
  | .twoDigitSubtraction, a, b, text | .threeDigitSubtraction, a, b, text => text = toString (a - b)
  | .twoDigitMultiplication, a, b, text => text = toString (a * b)
  | .divisionLeadingDigit, a, b, text => LeadingDigits 1 (a / b) text
  | .divisionTwoDigits, a, b, text => LeadingDigits 2 (a / b) text
  | .fourDigitDivision, a, b, text => Hundredths a b text

end Skill

namespace Problem

/-- A problem of a skill, made at an instant. -/
structure Poses (p : Problem) (s : Skill) (now : Instant) : Prop where
  category : p.category = s
  createdAt : p.createdAt = now
  options : p.options.isSome = true ↔ s = .fourDigitDivision
  operation : ∃ a b, s.Operands a b ∧ p.expression = operationText a s.sign b ∧
    s.Solves a b p.answer

theorem le_length_toDigits {n q : Nat} (hq : 10 ^ (n - 1) ≤ q) :
    n ≤ (Nat.toDigits 10 q).length := by
  refine Nat.le_of_not_lt fun hlt => ?_
  have hpos : 0 < (Nat.toDigits 10 q).length := Nat.length_toDigits_pos
  have hshort : (Nat.toDigits 10 q).length ≤ n - 1 := by omega
  have hsmall := (Nat.length_toDigits_le_iff (by decide) (by omega)).mp hshort
  omega

/-- The first digits of a number are the digits of what is left of it when the others are cut off. -/
theorem leadingDigits_take {n q : Nat} (hn : 0 < n) (hq : 10 ^ (n - 1) ≤ q) :
    LeadingDigits n q (String.ofList ((Nat.toDigits 10 q).take n)) := by
  induction q using Nat.strongRecOn with
  | ind q ih =>
  by_cases hshort : q < 10 ^ n
  · have hlength := (Nat.length_toDigits_le_iff (b := 10) (by decide) hn).mpr hshort
    rw [List.take_of_length_le hlength]
    refine ⟨0, ?_, ?_, ?_⟩
    · simpa using hq
    · simpa using hshort
    · rw [Nat.pow_zero, Nat.div_one]
      rfl
  · -- The last digit of a longer number is not among the first ones.
    have hpow : 10 ^ n = 10 * 10 ^ (n - 1) := by
      rw [← Nat.pow_succ', Nat.succ_eq_add_one, Nat.sub_add_cancel hn]
    have hpos : 0 < 10 ^ (n - 1) := Nat.pow_pos (by decide)
    have hrest : 10 ^ (n - 1) ≤ q / 10 := by omega
    obtain ⟨k, hlow, hhigh, htext⟩ := ih (q / 10) (by omega) hrest
    have hdiv : q / 10 ^ (k + 1) = q / 10 / 10 ^ k := by
      rw [Nat.div_div_eq_div_mul, Nat.pow_succ']
    refine ⟨k + 1, ?_, ?_, ?_⟩
    · rw [hdiv]
      exact hlow
    · rw [hdiv]
      exact hhigh
    · rw [hdiv, ← htext, Nat.toDigits_of_base_le (by decide) (by omega),
        List.take_append_of_le_length (le_length_toDigits hrest)]

theorem zeroPadded_two : ∀ n < 100, Text.zeroPadded 2 n = toString (n / 10) ++ toString (n % 10) := by
  decide +kernel

theorem hundredths_centsText {a b : Nat} (hb : 0 < b) :
    Hundredths a b (centsText ((200 * a + b) / (2 * b))) := by
  have hpos : 0 < 2 * b := Nat.mul_pos (by decide) hb
  refine ⟨(200 * a + b) / (2 * b), Nat.div_mul_le_self _ _,
    (Nat.div_lt_iff_lt_mul hpos).mp (Nat.lt_succ_self _), ?_⟩
  rw [centsText, zeroPadded_two _ (Nat.mod_lt _ (by decide))]
  congr 3
  · omega
  · omega

/-! ### The problems that are made of operands -/

variable {a b : Nat} {s : Skill} {now : Instant}

/-- A problem to be answered by typing is one of its skill if its operands and its answer are. -/
theorem poses_free (h : s.Operands a b) {answer : String} (hs : s.Solves a b answer)
    (hf : s ≠ .fourDigitDivision) :
    (free s (operationText a s.sign b) answer now).Poses s now := by
  refine ⟨rfl, rfl, ⟨fun h => ?_, fun h => absurd h hf⟩, a, b, h, rfl, hs⟩
  cases h

theorem exists_addition (hs : s = .twoDigitAddition ∨ s = .threeDigitAddition)
    (h : s.Operands a b) (now : Instant) : ∃ p, addition s a b now = .ok p ∧ p.Poses s now := by
  have hsum : a + b ≤ maxCount := by
    rcases hs with rfl | rfl <;>
    · obtain ⟨⟨-, ha⟩, -, hb⟩ := h
      simp only [maxCount]
      omega
  refine ⟨free s (operationText a "+" b) (toString (a + b)) now, ?_, ?_⟩
  · rw [addition, Count.add_eq_ok hsum]
    rfl
  · rcases hs with rfl | rfl <;> exact poses_free h rfl (by decide)

theorem poses_subtraction (hs : s = .twoDigitSubtraction ∨ s = .threeDigitSubtraction)
    (h : s.Operands a b) (now : Instant) : (subtraction s a b now).Poses s now := by
  have hle : b ≤ a := by
    rcases hs with rfl | rfl <;> exact h.2.2
  rw [subtraction, Nat.min_eq_left hle]
  rcases hs with rfl | rfl <;> exact poses_free h rfl (by decide)

theorem exists_multiplication (h : Skill.twoDigitMultiplication.Operands a b) (now : Instant) :
    ∃ p, multiplication a b now = .ok p ∧ p.Poses .twoDigitMultiplication now := by
  have hle : a * b ≤ 99 * 9 := Nat.mul_le_mul h.1.2 h.2.2
  have hproduct : a * b ≤ maxCount := by
    simp only [maxCount]
    omega
  refine ⟨free Skill.twoDigitMultiplication (operationText a "×" b) (toString (a * b)) now, ?_, ?_⟩
  · rw [multiplication, Count.mul_eq_ok hproduct]
    rfl
  · exact poses_free h rfl (by decide)

/-- Five digits by two have a quotient of at least three digits, five by three one of at least two. -/
theorem poses_division (hs : s = .divisionLeadingDigit ∨ s = .divisionTwoDigits)
    (h : s.Operands a b) (now : Instant) : (division s a b now).Poses s now := by
  rcases hs with rfl | rfl
  all_goals
    obtain ⟨⟨ha, -⟩, hb, hb'⟩ := id h
    rw [division, Nat.max_eq_left (by omega)]
    refine poses_free h (leadingDigits_take (by decide) ?_) (by decide)
    rw [Nat.le_div_iff_mul_le (by omega)]
    omega

/-- A dividend made of a divisor and two numbers of its size has five digits. -/
theorem exists_dividend {divisor seed remainder : Nat} (hd : divisor ≤ 999) (hs : seed ≤ 99)
    (hr : remainder < divisor) :
    ∃ n, dividend divisor seed remainder = .ok n ∧ 10000 ≤ n ∧ n ≤ 99999 := by
  have hle : divisor * seed ≤ 999 * 99 := Nat.mul_le_mul hd hs
  have hproduct : divisor * seed ≤ maxCount := by
    simp only [maxCount]
    omega
  have hsum : divisor * seed + remainder ≤ maxCount := by
    simp only [maxCount]
    omega
  refine ⟨foldDividend (divisor * seed + remainder), ?_, foldDividend_range _⟩
  simp only [dividend, Count.mul_eq_ok hproduct, Count.add_eq_ok hsum, bind, Except.bind]
  rfl

theorem quotientCents_eq_ok (hb : 0 < b) (h : 200 * a + b ≤ maxCount) (h' : 2 * b ≤ maxCount) :
    quotientCents a b = .ok ((200 * a + b) / (2 * b)) := by
  have hmax : max b 1 = b := Nat.max_eq_left hb
  have hproduct : 200 * a ≤ maxCount := Nat.le_trans (Nat.le_add_right _ _) h
  simp only [quotientCents, hmax, Count.mul_eq_ok hproduct, Count.add_eq_ok h, Count.mul_eq_ok h',
    bind, Except.bind]
  rfl

/-- A quotient of four digits by four in hundredths, which leave room for the options. -/
theorem exists_quotientCents (h : Skill.fourDigitDivision.Operands a b) :
    ∃ cents, quotientCents a b = .ok cents ∧ cents + 250 ≤ maxCount ∧
      Hundredths a b (centsText cents) := by
  obtain ⟨⟨-, ha⟩, hb, hb'⟩ := h
  have hdivisor : 2 * b ≤ maxCount := by
    simp only [maxCount]
    omega
  have hnumerator : 200 * a + b ≤ maxCount := by
    simp only [maxCount]
    omega
  refine ⟨_, quotientCents_eq_ok (by omega) hnumerator hdivisor, ?_, hundredths_centsText (by omega)⟩
  have hle := Nat.div_le_self (200 * a + b) (2 * b)
  simp only [maxCount]
  omega

end Problem

end MentalMath
