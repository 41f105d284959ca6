import MentalMath.Storage.Request
import MentalMath.Time.Stamp.Reader
import MentalMath.Time.Stamp.Writer

/-! The rows of the tables in which sessions, answers, mistakes and preferences are stored, made of
whole numbers and texts. Spans are stored as whole milliseconds, instants as stamps, categories as
slugs and truth values as numbers. Reading a row stops at its first column that makes no sense. -/

namespace MentalMath

namespace Column

/-- The number that stands for a truth value. -/
def ofBool (b : Bool) : Int :=
  if b then 1 else 0

/-- The whole milliseconds of a span, zero for a negative one. -/
def ofSpan (d : Span) : Int :=
  max d.wholeMillis 0

/-- The number of a stored thing as a number of 64 bits with a sign. -/
def ofId (field : String) (n : Nat) : Except StorageError Int :=
  if n ≤ Text.maxSigned64 then .ok n else .error (.serialization (.idTooLarge field))

def isBit (n : Int) : Bool :=
  n == 0 || n == 1

def toBool (n : Int) : Bool :=
  n != 0

/-- A number after a truth value was added to it. Past 64 bits it is kept as a floating-point
number, to which adding one changes nothing. -/
def plusBool (n : Int) (b : Bool) : Int :=
  if n ≤ Text.maxSigned64 then n + ofBool b else n

/-- Reads a number that sums may have taken past 64 bits. -/
def toWhole (column : String) (n : Int) : Except StorageError Int :=
  if n ≤ Text.maxSigned64 then .ok n
  else .error (.serialization (.unreadable column "not a whole number of 64 bits"))

def toId (field : String) (n : Int) : Except StorageError Nat :=
  if 0 ≤ n then .ok n.toNat else .error (.serialization (.idNegative field))

def toCount (field : String) (n : Int) : Except StorageError Nat :=
  if 0 ≤ n ∧ n ≤ maxCount then .ok n.toNat else .error (.serialization (.count field n))

def toSpan (field : String) (millis : Int) : Except StorageError Span :=
  if millis < 0 then .error (.serialization (.negativeSpan field millis))
  else
    match Span.ofMillis? millis with
    | some d => .ok d
    | none =>
      .error (.serialization (.unreadable field ("invalid duration: " ++ toString millis)))

def toInstant (column : String) (s : String) : Except StorageError Instant :=
  match Stamp.readStored? s with
  | some t => .ok t
  | none => .error (.serialization (.unreadable column ("invalid datetime: " ++ s)))

def toCategory (s : String) : Except StorageError Category :=
  match Category.ofText? s with
  | some c => .ok c
  | none => .error (.serialization (.category s))

end Column

open Column

/-- A row of the table of sessions. -/
structure SessionRow where
  id : Int
  category : String
  total : Int
  correct : Int
  totalMillis : Int
  averageMillis : Int
  startedAt : String
  endedAt : Option String
  completed : Int
  deriving DecidableEq, Repr

namespace SessionRow

def ofSession (id : Int) (s : Session) : SessionRow :=
  ⟨id, s.category.slug, s.total, s.correct, ofSpan s.totalTime, ofSpan s.averageTime,
    s.startedAt.storedText, s.endedAt.map Instant.storedText, ofBool s.completed⟩

def isAdmissible (r : SessionRow) : Bool :=
  0 ≤ r.total && 0 ≤ r.correct && 0 ≤ r.totalMillis && 0 ≤ r.averageMillis && isBit r.completed

def read (r : SessionRow) (answers : List Answer) : Except StorageError Session := do
  let id ← toId "session_id" r.id
  let total ← toCount "total_questions" r.total
  let correct ← toCount "correct_answers" (← toWhole "correct_answers" r.correct)
  let totalTime ← toSpan "total_time_ms" r.totalMillis
  let averageTime ← toSpan "average_time_ms" r.averageMillis
  let startedAt ← toInstant "started_at" r.startedAt
  let endedAt ← r.endedAt.mapM (toInstant "ended_at")
  let category ← toCategory r.category
  match Session.restore ⟨id⟩ category total answers correct totalTime averageTime startedAt endedAt
      (toBool r.completed) with
  | .ok s => return s
  | .error e => throw (.serialization (.session e))

def isAskedFor (q : SessionQuery) (r : SessionRow) : Bool :=
  (!q.completedOnly || r.completed == 1)
    && q.startedFrom.all (fun t => decide (t.storedText ≤ r.startedAt))
    && q.category.all (fun c => c.slug == r.category)

/-- Whether a row comes before another: the later start first, as text, then the larger number. -/
def newestFirst (a b : SessionRow) : Bool :=
  b.startedAt < a.startedAt || (a.startedAt == b.startedAt && b.id ≤ a.id)

end SessionRow

/-- A row of the table of answers. -/
structure AnswerRow where
  id : Int
  sessionId : Int
  position : Int
  expression : String
  correctAnswer : String
  userAnswer : String
  category : String
  isCorrect : Int
  timeSpentMillis : Int
  answeredAt : String
  deriving DecidableEq, Repr

namespace AnswerRow

/-- The row of an answer at a place of a session. -/
def ofAnswer (id sessionId position : Int) (a : Answer) : AnswerRow :=
  ⟨id, sessionId, position, a.expression, a.correctAnswer, a.userAnswer, a.category.slug,
    ofBool a.isCorrect, ofSpan a.timeSpent, a.answeredAt.storedText⟩

def isAdmissible (r : AnswerRow) : Bool :=
  0 ≤ r.position && isBit r.isCorrect && 0 ≤ r.timeSpentMillis

/-- Reads the answer of a row. Whether it is right is worked out again. -/
def read (r : AnswerRow) : Except StorageError Answer := do
  let timeSpent ← toSpan "time_spent_ms" r.timeSpentMillis
  let answeredAt ← toInstant "answered_at" r.answeredAt
  let category ← toCategory r.category
  return Answer.restore r.expression r.correctAnswer r.userAnswer category timeSpent answeredAt

end AnswerRow

structure MistakeRow where
  id : Int
  expression : String
  correctAnswer : String
  userAnswer : String
  category : String
  count : Int
  firstAt : String
  lastAt : String
  mastered : Int
  deriving DecidableEq, Repr

namespace MistakeRow

def ofMistake (id : Int) (m : Mistake) : MistakeRow :=
  ⟨id, m.expression, m.correctAnswer, m.userAnswer, m.category.slug, m.count, m.firstAt.storedText,
    m.lastAt.storedText, ofBool m.mastered⟩

/-- The row with the values of a mistake that may change; the expression and the time of the first
miss stay. -/
def update (r : MistakeRow) (m : Mistake) : MistakeRow :=
  { r with
    correctAnswer := m.correctAnswer
    userAnswer := m.userAnswer
    category := m.category.slug
    count := m.count
    lastAt := m.lastAt.storedText
    mastered := ofBool m.mastered }

def isAdmissible (r : MistakeRow) : Bool :=
  1 ≤ r.count && isBit r.mastered

def read (r : MistakeRow) : Except StorageError Mistake := do
  let id ← toId "wrong_answer_id" r.id
  let count ← toCount "wrong_count" r.count
  let category ← toCategory r.category
  let firstAt ← toInstant "first_wrong_at" r.firstAt
  let lastAt ← toInstant "last_wrong_at" r.lastAt
  return ⟨some ⟨id⟩, r.expression, r.correctAnswer, r.userAnswer, category, count, firstAt, lastAt,
    toBool r.mastered⟩

def isShown (f : MistakeFilter) (r : MistakeRow) : Bool :=
  f.mark?.all fun b => r.mastered == ofBool b

/-- Whether a row comes before another: the later miss first, as text, then the larger number. -/
def newestFirst (a b : MistakeRow) : Bool :=
  b.lastAt < a.lastAt || (a.lastAt == b.lastAt && b.id ≤ a.id)

end MistakeRow

/-- The row of the table of preferences, which holds at most one row, under the number one. -/
structure PreferencesRow where
  questions : Int
  sound : Int
  haptics : Int
  autoSubmit : Int
  createdAt : String
  updatedAt : String
  deriving DecidableEq, Repr

namespace PreferencesRow

def ofPreferences (p : Preferences) : PreferencesRow :=
  ⟨p.questions, ofBool p.sound, ofBool p.haptics, ofBool p.autoSubmit, p.createdAt.storedText,
    p.updatedAt.storedText⟩

def isAdmissible (r : PreferencesRow) : Bool :=
  Preferences.minQuestions ≤ r.questions && r.questions ≤ Preferences.maxQuestions

def read (r : PreferencesRow) : Except StorageError Preferences := do
  let questions ← toCount "questions_per_session" r.questions
  let createdAt ← toInstant "created_at" r.createdAt
  let updatedAt ← toInstant "updated_at" r.updatedAt
  match Preferences.restore questions (toBool r.sound) (toBool r.haptics) (toBool r.autoSubmit)
      createdAt updatedAt with
  | .ok p => return p
  | .error e => throw (.serialization (.preferences e))

end PreferencesRow

end MentalMath
