import MentalMath.Service.Practice
import MentalMath.Shell.Reply

/-! Practice at the terminal. A line is an answer unless it is blank or one of the words that leave
the run, pause it or ask for the time. Ticks change nothing but a notice, which is shown at most
once. -/

namespace MentalMath.Shell

/-- What a line means to a practice run. -/
inductive Typed where
  | blank
  | leave
  | pause
  | time
  | answer (text : String)
  deriving DecidableEq, Repr

/-- What a line means. Blanks around it do not matter. -/
def Typed.ofLine (line : String) : Typed :=
  match Text.trim line with
  | "" => .blank
  | "q" | "quit" => .leave
  | "p" | "pause" => .pause
  | "t" | "time" => .time
  | text => .answer text

/-- A practice run that waits at the terminal. -/
structure Desk where
  target : Span
  tracker : Tracker
  warned : Bool
  deriving DecidableEq, Repr

namespace Desk

def start (g : Generator) (c : Category) (count : Nat) (now : Instant) : Program (Reply Desk) :=
  match Practice.start g c count now with
  | .error f => return .broken f
  | .ok (program, _) => do
    match ← program with
    | .error e => return .failed (.run e)
    | .ok t => return .waiting (Report.welcome c ++ Report.problem t) ⟨c.targetTime, t, false⟩

/-- Shows the notice if the run takes longer than the target time. -/
def tick (d : Desk) (now : Instant) : Reply Desk :=
  if d.warned || !d.tracker.isTiming then .waiting [] d
  else
    match d.tracker.elapsed now with
    | .error f => .broken f
    | .ok times =>
      if d.target < times.session then .waiting (Report.overtime d.target) { d with warned := true }
      else .waiting [] d

def togglePause (d : Desk) (now : Instant) : Reply Desk :=
  match d.tracker.togglePause now with
  | .error f => .broken f
  | .ok (.error e, _) => .failed (.run e)
  | .ok (.ok .paused, t) => .waiting Report.paused { d with tracker := t }
  | .ok (.ok _, t) => .waiting (Report.problem t) { d with tracker := t }

def showTimes (d : Desk) (now : Instant) : Reply Desk :=
  match d.tracker.elapsed now with
  | .error f => .broken f
  | .ok times => .waiting (Report.times times) d

/-- The summary of a completed run. -/
def summary (t : Tracker) : List String :=
  (t.session?.map Report.summary).getD []

/-- Ends a completed run. Its session is stored once more if the last answer could not store it. -/
def finish (t : Tracker) (saved : Option SessionId) : Program (Reply Desk) :=
  match saved with
  | some _ => return .done (summary t)
  | none => do
    match ← Practice.finalize t with
    | (.ok _, t) => return .done (summary t)
    | (.error e, t) =>
      return { Reply.done (summary t) with
        err := "warning: session could not be saved: " ++ e.message ++ "\n" }

/-- The answer that a text is: the text of an option if it is the number of one. -/
def resolve (d : Desk) (text : String) : String :=
  match d.tracker.currentProblem? with
  | some p => p.resolve text
  | none => text

/-- Hands a text in as an answer. -/
def answer (d : Desk) (text : String) (now : Instant) : Program (Reply Desk) :=
  match Practice.submit d.tracker (d.resolve text) now with
  | .error f => return .broken f
  | .ok program => do
    match ← program with
    | (.error .paused, t) => return .waiting Report.paused { d with tracker := t }
    | (.error e, _) => return .failed (.run e)
    | (.ok a, t) =>
      if a.isComplete then return (← finish t a.savedId).after (Report.grade a.answer)
      else return .waiting (Report.grade a.answer ++ Report.problem t) { d with tracker := t }

def react (d : Desk) : Event → Program (Reply Desk)
  | .tick now => return d.tick now
  | .line line now =>
    match Typed.ofLine line with
    | .blank => return .waiting [] d
    | .leave => return .done Report.abandoned
    | .pause => return d.togglePause now
    | .time => return d.showTimes now
    | .answer text => d.answer text now

end Desk

end MentalMath.Shell
