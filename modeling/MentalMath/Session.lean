import MentalMath.Answer
import MentalMath.Identifier

/-! Practice sessions: the answers to a set of problems, and how well and how fast they were given.
A session takes answers until it is completed, and holds at most as many as it has questions. -/

namespace MentalMath

/-- Why a session refuses an operation. -/
inductive SessionError where
  | invalidTimeRange
  | alreadyCompleted
  /-- The session holds an answer to each of its questions. -/
  | tooManyAnswers (total : Nat)
  /-- The stored number of right answers is not the number of right answers. -/
  | countMismatch (stored counted : Nat)
  /-- There are more answers than a session can count. -/
  | overflow (length : Nat)
  deriving DecidableEq, Repr

def SessionError.message : SessionError → String
  | .invalidTimeRange => "ended_at is before started_at"
  | .alreadyCompleted => "session already completed"
  | .tooManyAnswers total => "session already holds " ++ toString total ++ " answers"
  | .countMismatch stored counted =>
    "correct answers (" ++ toString stored ++ ") does not match graded answers ("
      ++ toString counted ++ ")"
  | .overflow length => "too many answers for a single session: " ++ toString length

/-- A rating of the share of right answers. -/
inductive Tier where
  | excellent
  | great
  | good
  | keepPracticing
  deriving DecidableEq, Repr

namespace Tier

/-- The rating of a share. -/
def ofRate (rate : Float) : Tier :=
  if 0.9 ≤ rate then .excellent
  else if 0.8 ≤ rate then .great
  else if 0.7 ≤ rate then .good
  else .keepPracticing

def message : Tier → String
  | .excellent => "Outstanding! Mental math master!"
  | .great => "Very good! Keep it up!"
  | .good => "Not bad! Push a little further!"
  | .keepPracticing => "Keep practicing! Practice makes perfect!"

end Tier

structure Session where
  /-- Its number, once it is stored. -/
  id : Option SessionId
  category : Category
  total : Nat
  answers : List Answer
  correct : Nat
  totalTime : Span
  /-- The active time per answer. -/
  averageTime : Span
  startedAt : Instant
  endedAt : Option Instant
  completed : Bool
  deriving DecidableEq, Repr

namespace Session

def countCorrect (answers : List Answer) : Nat :=
  answers.countP (·.isCorrect)

/-- The largest number of answers that an average can be taken over. -/
def maxAnswers : Nat := 2147483647

def start (category : Category) (total : Nat) (now : Instant) : Session :=
  ⟨none, category, total, [], 0, Span.zero, Span.zero, now, none, false⟩

/-- A session rebuilt from what was stored. Its end must not come before its start, and its number
of right answers must be that of its answers. -/
def restore (id : SessionId) (category : Category) (total : Nat) (answers : List Answer)
    (correct : Nat) (totalTime averageTime : Span) (startedAt : Instant)
    (endedAt : Option Instant) (completed : Bool) : Except SessionError Session :=
  if endedAt.any (· < startedAt) then .error .invalidTimeRange
  else if maxCount < countCorrect answers then .error (.overflow (countCorrect answers))
  else if countCorrect answers ≠ correct then
    .error (.countMismatch correct (countCorrect answers))
  else .ok ⟨some id, category, total, answers, correct, totalTime, averageTime, startedAt, endedAt,
    completed⟩

def answered (s : Session) : Nat :=
  min s.answers.length maxCount

def wrong (s : Session) : Nat :=
  s.answered - s.correct

/-- The wrong answers in the order in which they were given. -/
def missed (s : Session) : List Answer :=
  s.answers.filter fun a => !a.isCorrect

def record (s : Session) (a : Answer) : Except SessionError Session :=
  if s.completed then .error .alreadyCompleted
  else if s.total ≤ s.answered then .error (.tooManyAnswers s.total)
  else .ok { s with
    answers := s.answers ++ [a]
    correct := if a.isCorrect then Count.next s.correct else s.correct }

/-- The time per answer of a number of answers. -/
def average (totalTime : Span) (answers : Nat) : Span :=
  if h : 0 < answers then totalTime.divide answers h else Span.zero

/-- The completed session, given its active time. -/
def finalize (s : Session) (now : Instant) (totalTime : Span) : Except SessionError Session :=
  if s.completed then .error .alreadyCompleted
  else if now < s.startedAt then .error .invalidTimeRange
  else if maxAnswers < s.answers.length then .error (.overflow s.answers.length)
  else .ok { s with
    totalTime := totalTime
    averageTime := average totalTime s.answers.length
    endedAt := some now
    completed := true }

def withId (s : Session) (id : SessionId) : Session :=
  { s with id := some id }

/-- The share of the questions that were answered right, zero if there are no questions. -/
def rate (s : Session) : Float :=
  if s.total = 0 then 0 else Float.ofNat s.correct / Float.ofNat s.total

def tier (s : Session) : Tier :=
  Tier.ofRate s.rate

theorem countCorrect_append (xs ys : List Answer) :
    countCorrect (xs ++ ys) = countCorrect xs + countCorrect ys := by
  simp [countCorrect]

theorem countCorrect_le (xs : List Answer) : countCorrect xs ≤ xs.length :=
  List.countP_le_length

@[simp]
theorem withId_id (s : Session) (id : SessionId) : (s.withId id).id = some id := rfl

end Session

end MentalMath
