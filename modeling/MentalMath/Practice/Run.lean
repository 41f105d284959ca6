import MentalMath.Problem.Generator
import MentalMath.Session
import MentalMath.Time.Stopwatch

/-! A practice run: the problems, the place in them, the session that records the answers, and two
stopwatches, one for the whole run and one for the current problem. Both stop and go on together;
the second starts over with every problem. -/

namespace MentalMath

/-- Where a run stands. -/
inductive RunStatus where
  | notStarted
  /-- A problem waits for its answer. -/
  | inProgress
  /-- The stopwatches stand. -/
  | paused
  | completed
  deriving DecidableEq, Repr

/-- Why a step of a run is refused. -/
inductive RunError where
  | empty
  | notStarted
  | completed
  | paused
  /-- The session refuses the answer or its completion. -/
  | session (e : SessionError)
  deriving DecidableEq, Repr

def RunError.message : RunError → String
  | .empty => "no problems available for session"
  | .notStarted => "no practice session has been started"
  | .completed => "session already completed"
  | .paused => "session is paused"
  | .session e => e.message

structure Run where
  problems : List Problem
  /-- The place of the problem that waits for its answer. -/
  current : Nat
  session : Session
  sessionWatch : Stopwatch
  questionWatch : Stopwatch
  deriving DecidableEq, Repr

/-- An answer that a run accepted. -/
structure Submission where
  answer : Answer
  isComplete : Bool
  deriving DecidableEq, Repr

/-- Whether the notebook has to hear of an answer. -/
def Submission.isMiss (s : Submission) : Bool :=
  !s.answer.isCorrect

structure ElapsedTimes where
  session : Span
  question : Span
  deriving DecidableEq, Repr

namespace Run

/-- A run over some problems, if there are any. -/
def start (c : Category) (problems : List Problem) (now : Instant) : Except RunError Run :=
  if problems.isEmpty ∨ maxCount < problems.length then .error .empty
  else .ok ⟨problems, 0, Session.start c problems.length now, Stopwatch.start now,
    Stopwatch.start now⟩

def status (r : Run) : RunStatus :=
  if r.session.completed then .completed
  else if r.sessionWatch.isPaused then .paused
  else .inProgress

/-- The run after an answer that leaves problems to be answered. -/
def advance (r : Run) (session : Session) (now : Instant) : Run :=
  { r with current := r.current + 1, session := session, questionWatch := Stopwatch.start now }

/-- Grades a text against the current problem and goes on to the next. The last answer completes the
session. When the session refuses to be completed, it holds the answer all the same, so the run
that comes with an error can differ from the one before. -/
def submit (r : Run) (input : String) (now : Instant) :
    Checked (Except RunError Submission × Run) :=
  if r.session.completed then .ok (.error .completed, r)
  else if r.sessionWatch.isPaused then .ok (.error .paused, r)
  else
    match r.problems[r.current]? with
    | none => .ok (.error .completed, r)
    | some problem => do
      let answer := Answer.grade problem input (← r.questionWatch.elapsed now) now
      match r.session.record answer with
      | .error e => return (.error (.session e), r)
      | .ok session =>
        if r.current + 1 < r.problems.length then
          return (.ok ⟨answer, false⟩, r.advance session now)
        else
          let ending := { r with current := r.current + 1, session := session }
          match session.finalize now (← r.sessionWatch.elapsed now) with
          | .error e => return (.error (.session e), ending)
          | .ok session => return (.ok ⟨answer, true⟩, { ending with session := session })

def togglePause (r : Run) (now : Instant) : Checked (Except RunError RunStatus × Run) :=
  if r.session.completed then .ok (.error .completed, r)
  else if r.sessionWatch.isPaused then do
    let (_, sessionWatch) ← r.sessionWatch.resume now
    let (_, questionWatch) ← r.questionWatch.resume now
    return (.ok .inProgress,
      { r with sessionWatch := sessionWatch, questionWatch := questionWatch })
  else
    .ok (.ok .paused, { r with
      sessionWatch := (r.sessionWatch.pause now).2
      questionWatch := (r.questionWatch.pause now).2 })

/-- The active times of a run. Once the run is completed they are those of the session and of its
last answer. -/
def elapsed (r : Run) (now : Instant) : Checked ElapsedTimes :=
  if r.session.completed then
    .ok ⟨r.session.totalTime, (r.session.answers.getLast?.map Answer.timeSpent).getD Span.zero⟩
  else do
    let session ← r.sessionWatch.elapsed now
    let question ← r.questionWatch.elapsed now
    return ⟨session, question⟩

def withSessionId (r : Run) (id : SessionId) : Run :=
  { r with session := r.session.withId id }

end Run

end MentalMath
