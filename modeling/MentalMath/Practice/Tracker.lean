import MentalMath.Practice.Run

/-! The holder of a practice run, which may be empty. Every step says what time it is, and is
answered by what it yields together with the holder after it. -/

namespace MentalMath

/-- How far a practice run has come. -/
structure Progress where
  total : Nat
  answered : Nat
  remaining : Nat
  isComplete : Bool
  deriving DecidableEq, Repr

/-- A share, brought into the range from zero to one. -/
def clampShare (x : Float) : Float :=
  if x < 0 then 0 else if 1 < x then 1 else x

namespace Progress

/-- The share of problems that are answered, zero if there are no problems. -/
def fraction (p : Progress) : Float :=
  if p.total = 0 then 0 else clampShare (Float.ofNat p.answered / Float.ofNat p.total)

end Progress

/-- The holder of a practice run. -/
structure Tracker where
  run : Option Run
  deriving DecidableEq, Repr

namespace Tracker

def empty : Tracker := ⟨none⟩

instance : Inhabited Tracker := ⟨empty⟩

/-- What a step of a run yields, and the holder after it. -/
abbrev Outcome (α : Type) := Except RunError α × Tracker

/-- Starts a run over some problems in place of the run before it. Without problems, the run before
it stays. -/
def startWith (t : Tracker) (c : Category) (problems : List Problem) (now : Instant) :
    Outcome Unit :=
  match Run.start c problems now with
  | .ok r => (.ok (), ⟨some r⟩)
  | .error e => (.error e, t)

def start (t : Tracker) (g : Generator) (c : Category) (count : Nat) (now : Instant) :
    Checked (Outcome Unit × Generator) :=
  if count = 0 then .ok ((.error .empty, t), g)
  else do
    let (problems, g) ← g.generate c count now
    return (t.startWith c problems now, g)

def submit (t : Tracker) (input : String) (now : Instant) : Checked (Outcome Submission) :=
  match t.run with
  | none => .ok (.error .notStarted, t)
  | some r => do
    let (result, r) ← r.submit input now
    return (result, ⟨some r⟩)

def togglePause (t : Tracker) (now : Instant) : Checked (Outcome RunStatus) :=
  match t.run with
  | none => .ok (.error .notStarted, t)
  | some r => do
    let (result, r) ← r.togglePause now
    return (result, ⟨some r⟩)

/-- The holder whose session is stored under a number. -/
def withSessionId (t : Tracker) (id : SessionId) : Tracker :=
  ⟨t.run.map fun r => r.withSessionId id⟩

def status (t : Tracker) : RunStatus :=
  match t.run with
  | none => .notStarted
  | some r => r.status

def isComplete (t : Tracker) : Bool :=
  t.status == .completed

/-- Whether a display of the active times has to be kept up to date. -/
def isTiming (t : Tracker) : Bool :=
  t.status == .inProgress

def currentProblem? (t : Tracker) : Option Problem :=
  t.run.bind fun r => r.problems[r.current]?

def currentIndex (t : Tracker) : Nat :=
  match t.run with
  | none => 0
  | some r => r.current

def problems (t : Tracker) : List Problem :=
  match t.run with
  | none => []
  | some r => r.problems

def session? (t : Tracker) : Option Session :=
  t.run.map Run.session

def sessionId? (t : Tracker) : Option SessionId :=
  t.session?.bind Session.id

def progress (t : Tracker) : Progress :=
  let total := t.problems.length
  let answered := (t.session?.map fun s => s.answers.length).getD 0
  ⟨total, answered, total - answered, t.isComplete⟩

def correctCount (t : Tracker) : Nat :=
  (t.session?.map Session.correct).getD 0

def wrongCount (t : Tracker) : Nat :=
  (t.session?.map Session.wrong).getD 0

def elapsed (t : Tracker) (now : Instant) : Checked ElapsedTimes :=
  match t.run with
  | none => .ok ⟨Span.zero, Span.zero⟩
  | some r => r.elapsed now

end Tracker

end MentalMath
