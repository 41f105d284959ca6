import MentalMath.Time.Instant

/-! Sources of the current time that a caller controls. A fixed clock is a value: advancing a copy
leaves the others alone. A manual clock is one count of milliseconds that all its copies share. -/

namespace MentalMath

/-- A shared count of milliseconds since the start of 1970, in 64 bits. -/
structure ManualClock where
  /-- The count, which starts over at the other end when it leaves its range. -/
  millis : Int64
  deriving DecidableEq, Repr

namespace ManualClock

/-- The clock that shows an instant, cut to its millisecond. -/
def start (t : Instant) : ManualClock :=
  ⟨Int64.ofInt t.millis⟩

/-- The instant shown, or the start of 1970 when the calendar does not have it. -/
def now (c : ManualClock) : Instant :=
  (Instant.ofMillis? c.millis.toInt).getD Instant.epoch

/-- The clock moved by the whole milliseconds of a span. -/
def advance (c : ManualClock) (d : Span) : ManualClock :=
  ⟨c.millis + Int64.ofInt d.wholeMillis⟩

end ManualClock

/-- A controlled source of the current time. -/
inductive Clock where
  | fixed (time : Instant)
  /-- A clock that follows the shared count. -/
  | manual
  deriving DecidableEq, Repr

namespace Clock

/-- The time that a clock shows beside the shared count. -/
def now (shared : ManualClock) : Clock → Instant
  | .fixed t => t
  | .manual => shared.now

/-- A clock and the shared count after the clock was moved by a span. -/
def advance (shared : ManualClock) (d : Span) : Clock → Checked (Clock × ManualClock)
  | .fixed t => do return (.fixed (← t.add d), shared)
  | .manual => .ok (.manual, shared.advance d)

/-- Seconds from the start of 1970 to the instant that examples use. -/
def sampleSeconds : Nat := 1700000000

/-- The instant that examples use, 2023-11-14 at 22:13:20. -/
def sampleInstant : Instant := ⟨1700000000, 0, by decide, by decide⟩

end Clock

end MentalMath
