import MentalMath.Problem

/-! Answers that were handed in. An answer keeps the text of its problem, so that it makes sense
after the problems of a run are gone. -/

namespace MentalMath

/-- An answer that was handed in. -/
structure Answer where
  expression : String
  correctAnswer : String
  userAnswer : String
  category : Category
  isCorrect : Bool
  /-- The active time spent on the problem. -/
  timeSpent : Span
  answeredAt : Instant
  deriving DecidableEq, Repr

namespace Answer

def grade (p : Problem) (input : String) (timeSpent : Span) (now : Instant) : Answer :=
  ⟨p.expression, p.answer, input, p.category, p.isCorrect input, timeSpent, now⟩

/-- An answer rebuilt from what was stored; whether it is right is worked out again. -/
def restore (expression correctAnswer userAnswer : String) (category : Category)
    (timeSpent : Span) (answeredAt : Instant) : Answer :=
  ⟨expression, correctAnswer, userAnswer, category, userAnswer == correctAnswer, timeSpent,
    answeredAt⟩

/-- Whether an answer counts as right exactly if its text is the right one. -/
def IsGraded (a : Answer) : Prop :=
  a.isCorrect = (a.userAnswer == a.correctAnswer)

theorem isGraded_grade (p : Problem) (input : String) (d : Span) (now : Instant) :
    (grade p input d now).IsGraded := rfl

theorem isGraded_restore (e c u : String) (k : Category) (d : Span) (t : Instant) :
    (restore e c u k d t).IsGraded := rfl

end Answer

end MentalMath
