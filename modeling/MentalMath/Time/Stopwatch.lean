import MentalMath.Time.Instant

/-! A stopwatch that measures the time since its start less its pauses. Every call says what time it
is; a clock that steps back never makes a pause or the measured time negative. -/

namespace MentalMath

/-- Whether a stopwatch runs. -/
inductive Stopwatch.Phase where
  | running
  /-- The stopwatch stands since an instant. -/
  | paused (since : Instant)
  deriving DecidableEq, Repr

structure Stopwatch where
  startedAt : Instant
  /-- The length of the pauses that have ended. -/
  pausedTotal : Span
  phase : Stopwatch.Phase
  deriving DecidableEq, Repr

namespace Stopwatch

def start (time : Instant) : Stopwatch :=
  ⟨time, Span.zero, .running⟩

def isPaused (w : Stopwatch) : Bool :=
  match w.phase with
  | .running => false
  | .paused _ => true

/-- Stops the stopwatch. A pause that has begun keeps its start. The answer says whether the
stopwatch was running. -/
def pause (w : Stopwatch) (now : Instant) : Bool × Stopwatch :=
  match w.phase with
  | .running => (true, { w with phase := .paused now })
  | .paused _ => (false, w)

/-- Lets the stopwatch run again. The answer is the length of the pause that ends, if there is
one. -/
def resume (w : Stopwatch) (now : Instant) : Checked (Option Span × Stopwatch) :=
  match w.phase with
  | .running => .ok (none, w)
  | .paused since => do
    let length := (now.since since).nonneg
    let total ← w.pausedTotal.add length
    return (some length, { w with pausedTotal := total, phase := .running })

/-- The length of the pause that has begun and not ended. -/
def ongoingPause (w : Stopwatch) (now : Instant) : Span :=
  match w.phase with
  | .running => Span.zero
  | .paused since => (now.since since).nonneg

/-- The time measured so far. -/
def elapsed (w : Stopwatch) (now : Instant) : Checked Span := do
  let awake ← (now.since w.startedAt).sub w.pausedTotal
  let active ← awake.sub (w.ongoingPause now)
  return active.nonneg

end Stopwatch

end MentalMath
