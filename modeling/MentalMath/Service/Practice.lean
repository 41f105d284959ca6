import MentalMath.Practice.Tracker
import MentalMath.Storage.Program

/-! Practice runs that are stored as they go on. A run never waits for the store: a session that
cannot be stored at its start is stored at its end, and a failure to add an answer or a mistake is
passed over. Only the end of a run says whether its session is stored. -/

namespace MentalMath

/-- Why a session cannot be stored on demand. -/
inductive PracticeError where
  | run (e : RunError)
  | inProgress
  | storage (e : StorageError)
  deriving DecidableEq, Repr

def PracticeError.message : PracticeError → String
  | .run e => e.message
  | .inProgress => "session is still in progress"
  | .storage e => e.message

/-- What comes of an answer. -/
structure PracticeAnswer where
  answer : Answer
  isComplete : Bool
  /-- The number of the mistake, if the answer is wrong and the mistake is stored. -/
  mistakeId : Option MistakeId
  /-- The number of the session, if it is completed and stored. -/
  savedId : Option SessionId
  deriving DecidableEq, Repr

namespace Practice

/-- Counts a wrong answer in the mistake of its expression, or makes it the first miss. -/
def recordMiss (a : Answer) : StoreM MistakeId := do
  let known ← StoreM.request (.findMistake a.expression)
  StoreM.request (.putMistake (Mistake.afterMiss a known))

def insertSession (t : Tracker) (s : Session) :
    Program (Except StorageError SessionId × Tracker) := do
  match ← Program.request (.insertSession s) with
  | .ok id => return (.ok id, t.withSessionId id)
  | .error e => return (.error e, t)

/-- Stores the session of a run: under its number, or as a new one if it has none or nothing is
stored under it any more. -/
def persist (t : Tracker) : Program (Except StorageError SessionId × Tracker) :=
  match t.session? with
  | none => return (.error .notFound, t)
  | some s =>
    match s.id with
    | none => insertSession t s
    | some id => do
      match ← Program.request (.saveSession s) with
      | .ok () => return (.ok id, t)
      | .error .notFound => insertSession t s
      | .error e => return (.error e, t)

/-- Stores the session of a run that begins, if the store can. -/
def register (t : Tracker) : Program Tracker :=
  match t.session? with
  | none => return t
  | some s => do return (← insertSession t s).2

def start (g : Generator) (c : Category) (count : Nat) (now : Instant) :
    Checked (Program (Except RunError Tracker) × Generator) := do
  let ((result, t), g) ← Tracker.empty.start g c count now
  let program : Program (Except RunError Tracker) := match result with
    | .error e => return .error e
    | .ok () => do return .ok (← register t)
  return (program, g)

/-- Adds an answer to the stored session of a run that goes on, if there is one. -/
def appendAnswer (t : Tracker) (s : Submission) : Program Unit :=
  match s.isComplete, t.sessionId? with
  | false, some id => do
    let _ ← Program.request (.appendAnswer id s.answer)
    return ()
  | _, _ => return ()

/-- Stores the mistake of an answer, if it is wrong and the store can. -/
def noteMiss (s : Submission) : Program (Option MistakeId) :=
  if s.isMiss then do return (← (recordMiss s.answer).run).toOption else return none

/-- Stores the session of a run with its last answer, if the store can. -/
def saveCompleted (t : Tracker) (s : Submission) : Program (Option SessionId × Tracker) :=
  if s.isComplete then do
    let (result, t) ← persist t
    return (result.toOption, t)
  else return (none, t)

/-- Stores what an answer that the run accepted brings about. -/
def record (t : Tracker) (s : Submission) : Program (PracticeAnswer × Tracker) := do
  appendAnswer t s
  let mistakeId ← noteMiss s
  let (savedId, t) ← saveCompleted t s
  return (⟨s.answer, s.isComplete, mistakeId, savedId⟩, t)

def submit (t : Tracker) (input : String) (now : Instant) :
    Checked (Program (Except RunError PracticeAnswer × Tracker)) := do
  let (result, t) ← t.submit input now
  let program : Program (Except RunError PracticeAnswer × Tracker) := match result with
    | .error e => return (.error e, t)
    | .ok s => do
      let (a, t) ← record t s
      return (.ok a, t)
  return program

/-- Stores the session of a completed run once more. -/
def finalize (t : Tracker) : Program (Except PracticeError SessionId × Tracker) :=
  match t.status with
  | .notStarted => return (.error (.run .notStarted), t)
  | .inProgress => return (.error .inProgress, t)
  | .paused => return (.error .inProgress, t)
  | .completed => do
    let (result, t) ← persist t
    return (result.mapError .storage, t)

end Practice

end MentalMath
