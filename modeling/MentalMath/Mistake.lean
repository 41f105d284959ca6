import MentalMath.Answer
import MentalMath.Identifier

/-! Entries of the notebook of mistakes. An entry gathers the misses of one expression, told apart
letter for letter; it counts them, keeps the first and the last, and is marked once it is mastered.
-/

namespace MentalMath

/-- An entry of the notebook. -/
structure Mistake where
  id : Option MistakeId
  expression : String
  correctAnswer : String
  userAnswer : String
  category : Category
  /-- The number of misses. -/
  count : Nat
  firstAt : Instant
  lastAt : Instant
  /-- Whether the entry was marked as mastered. -/
  mastered : Bool
  deriving DecidableEq, Repr

/-- Which entries to show. -/
inductive MistakeFilter where
  | all
  | notMastered
  | mastered
  deriving DecidableEq, Repr

namespace Mistake

def first (a : Answer) : Mistake :=
  ⟨none, a.expression, a.correctAnswer, a.userAnswer, a.category, 1, a.answeredAt, a.answeredAt,
    false⟩

/-- The entry after one more miss. -/
def missAgain (m : Mistake) (userAnswer : String) (now : Instant) : Mistake :=
  { m with count := Count.next m.count, userAnswer := userAnswer, lastAt := now }

/-- The entry after the miss of an answer, given the entry of its expression if there is one. -/
def afterMiss (a : Answer) : Option Mistake → Mistake
  | some m => m.missAgain a.userAnswer a.answeredAt
  | none => first a

def master (m : Mistake) : Mistake :=
  { m with mastered := true }

def withId (m : Mistake) (id : MistakeId) : Mistake :=
  { m with id := some id }

/-- Whether a new attempt is right; blanks around it do not count. -/
def retry (m : Mistake) (input : String) : Bool :=
  Text.trim input == m.correctAnswer

end Mistake

namespace MistakeFilter

def admits (f : MistakeFilter) (m : Mistake) : Bool :=
  match f with
  | .all => true
  | .notMastered => !m.mastered
  | .mastered => m.mastered

/-- The mark of the entries that a filter shows, if it looks at the mark. -/
def mark? : MistakeFilter → Option Bool
  | .all => none
  | .notMastered => some false
  | .mastered => some true

theorem admits_eq_mark (f : MistakeFilter) (m : Mistake) :
    f.admits m = f.mark?.all (m.mastered == ·) := by
  cases f <;> cases h : m.mastered <;> simp [admits, mark?, h]

end MistakeFilter

end MentalMath
