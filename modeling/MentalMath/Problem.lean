import MentalMath.Category
import MentalMath.Text.Numeral
import MentalMath.Time.Instant

/-! Arithmetic problems. A problem is answered by typing its answer letter for letter, or, if it
comes with options, also by the number of an option. -/

namespace MentalMath

structure Problem where
  category : Category
  expression : String
  answer : String
  options : Option (List String)
  createdAt : Instant
  deriving DecidableEq, Repr

namespace Problem

/-- Whether a text is the answer, letter for letter. -/
def isCorrect (p : Problem) (input : String) : Bool :=
  input == p.answer

def isMultipleChoice (p : Problem) : Bool :=
  p.options.isSome

/-- The option that a typed number picks, counted from one. -/
def option? (p : Problem) (input : String) : Option String := do
  let options ← p.options
  let n ← (Text.readNat Text.maxUnsigned64 input).toOption
  if n = 0 then none else options[n - 1]?

/-- The answer that a typed text stands for: the option that it picks, or else the text itself. -/
def resolve (p : Problem) (input : String) : String :=
  (p.option? input).getD input

theorem resolve_of_no_options {p : Problem} (h : p.options = none) (input : String) :
    p.resolve input = input := by
  simp [resolve, option?, h]

end Problem

end MentalMath
