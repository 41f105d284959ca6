import MentalMath.Text.Cut
import MentalMath.Time.Span

/-! The kinds of arithmetic practice: eight skills, and mixed practice, which draws a skill for each
problem. -/

namespace MentalMath

/-- A kind of arithmetic problem. -/
inductive Skill where
  | twoDigitAddition
  | twoDigitSubtraction
  | threeDigitAddition
  | threeDigitSubtraction
  | twoDigitMultiplication
  /-- The leading quotient digit of a five-digit number by a two-digit number. -/
  | divisionLeadingDigit
  /-- The first two quotient digits of a five-digit number by a three-digit number. -/
  | divisionTwoDigits
  /-- The quotient of two four-digit numbers, to be picked from four options. -/
  | fourDigitDivision
  deriving DecidableEq, Repr

/-- What a practice run or a problem is about. -/
inductive Category where
  | mixed
  | skill (s : Skill)
  deriving DecidableEq, Repr

instance : Coe Skill Category := ⟨Category.skill⟩

instance : Inhabited Category := ⟨.mixed⟩

namespace Skill

def all : List Skill :=
  [.twoDigitAddition, .twoDigitSubtraction, .threeDigitAddition, .threeDigitSubtraction,
    .twoDigitMultiplication, .divisionLeadingDigit, .divisionTwoDigits, .fourDigitDivision]

theorem mem_all (s : Skill) : s ∈ all := by
  cases s <;> decide

/-- The stable name of a skill. -/
def slug : Skill → String
  | .twoDigitAddition => "two_digit_addition"
  | .twoDigitSubtraction => "two_digit_subtraction"
  | .threeDigitAddition => "three_digit_addition"
  | .threeDigitSubtraction => "three_digit_subtraction"
  | .twoDigitMultiplication => "two_digit_multiplication"
  | .divisionLeadingDigit => "division_leading_digit"
  | .divisionTwoDigits => "division_two_digits"
  | .fourDigitDivision => "four_digit_division"

def title : Skill → String
  | .twoDigitAddition => "Two-digit addition"
  | .twoDigitSubtraction => "Two-digit subtraction"
  | .threeDigitAddition => "Three-digit addition"
  | .threeDigitSubtraction => "Three-digit subtraction"
  | .twoDigitMultiplication => "Two-digit multiplication"
  | .divisionLeadingDigit => "Division by a two-digit number"
  | .divisionTwoDigits => "Division by a three-digit number"
  | .fourDigitDivision => "Four-digit division"

def sample : Skill → String
  | .twoDigitAddition => "27 + 56"
  | .twoDigitSubtraction => "89 - 34"
  | .threeDigitAddition => "143 + 258"
  | .threeDigitSubtraction => "726 - 319"
  | .twoDigitMultiplication => "25 × 7"
  | .divisionLeadingDigit => "86313 ÷ 41"
  | .divisionTwoDigits => "86313 ÷ 411"
  | .fourDigitDivision => "8631 ÷ 4112"

/-- How the answer is meant to be worked out. -/
def hint : Skill → String
  | .divisionLeadingDigit =>
    "mental, leading quotient digit only, no rounding (86313 ÷ 41 gives 2)"
  | .divisionTwoDigits =>
    "on paper, first two quotient digits, no rounding (86313 ÷ 411 gives 21)"
  | .fourDigitDivision =>
    "exam style, truncate by the gap between options; 4 min excellent, 6 min pass"
  | _ => "mental arithmetic"

/-- The target time of a full set of problems. -/
def targetTime : Skill → Span
  | .twoDigitAddition | .twoDigitSubtraction => Span.ofSeconds 120 (by decide)
  | .threeDigitAddition | .threeDigitSubtraction => Span.ofSeconds 180 (by decide)
  | .twoDigitMultiplication => Span.ofSeconds 90 (by decide)
  | .divisionLeadingDigit => Span.ofSeconds 60 (by decide)
  | .divisionTwoDigits | .fourDigitDivision => Span.ofSeconds 240 (by decide)

end Skill

namespace Category

def concrete : List Category :=
  Skill.all.map .skill

def all : List Category :=
  .mixed :: concrete

theorem mem_all (c : Category) : c ∈ all := by
  rcases c with _ | s
  · simp [all]
  · simp [all, concrete, Skill.mem_all]

/-- The place of a category in the order of `all`. -/
def rank (c : Category) : Nat :=
  all.idxOf c

/-- The stable name of a category, used for storage and on the command line. -/
def slug : Category → String
  | .mixed => "mixed"
  | .skill s => s.slug

def title : Category → String
  | .mixed => "Mixed practice"
  | .skill s => s.title

def sample : Category → String
  | .mixed => "all operations"
  | .skill s => s.sample

def hint : Category → String
  | .mixed => "comprehensive practice"
  | .skill s => s.hint

/-- The number of problems of a full set. -/
def fullSet : Category → Nat
  | .skill .twoDigitMultiplication => 40
  | _ => 20

def targetTime : Category → Span
  | .mixed => Span.ofSeconds 180 (by decide)
  | .skill s => s.targetTime

def isMultipleChoice (c : Category) : Bool :=
  c == .skill .fourDigitDivision

def isConcrete : Category → Bool
  | .mixed => false
  | .skill _ => true

/-- The category whose slug is a text, letter for letter. -/
def ofSlug? (s : String) : Option Category :=
  all.find? fun c => c.slug == s

/-- The category that a text names. Blanks around the slug, capitals of ASCII and dashes in place of
underscores are allowed. -/
def ofText? (s : String) : Option Category :=
  ofSlug? ((Text.lower (Text.trim s)).map fun c => if c = '-' then '_' else c)

def unknownMessage (raw : String) : String :=
  "unknown problem category: " ++ raw

theorem slug_injective {a b : Category} (h : a.slug = b.slug) : a = b := by
  rcases a with _ | a <;> rcases b with _ | b
  · rfl
  · cases b <;> simp [slug, Skill.slug] at h
  · cases a <;> simp [slug, Skill.slug] at h
  · cases a <;> cases b <;> simp [slug, Skill.slug] at h <;> rfl

theorem ofSlug?_slug (c : Category) : ofSlug? c.slug = some c := by
  rcases c with _ | s
  · rfl
  · cases s <;> rfl

end Category

end MentalMath
