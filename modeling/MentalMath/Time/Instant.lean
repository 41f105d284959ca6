import MentalMath.Time.Span

/-! Instants of UTC: whole seconds since the start of 1970 and the nanoseconds past them. A leap
second has no number of its own; it goes on from the second before it, the last of a minute. The
calendar reaches from the first day of the year -262143 to the last of 262142, so the span between
any two instants exists. -/

namespace MentalMath

/-- A point in time. -/
structure Instant where
  /-- The whole seconds since the start of 1970. -/
  second : Int
  nanos : Nat
  /-- The instant lies in the calendar. -/
  inRange : -8334601228800 ≤ second ∧ second ≤ 8210266876799
  /-- Only the last second of a minute goes on into a leap second. -/
  nanos_lt : nanos < 1000000000 ∨ second % 60 = 59 ∧ nanos < 2000000000
  deriving DecidableEq, Repr

namespace Instant

@[ext]
theorem ext {a b : Instant} (hs : a.second = b.second) (hn : a.nanos = b.nanos) : a = b := by
  cases a; cases b; cases hs; cases hn; rfl

/-- The instant some nanoseconds past a second, if the calendar has it. -/
def ofParts? (second : Int) (nanos : Nat) : Option Instant :=
  if h : (-8334601228800 ≤ second ∧ second ≤ 8210266876799)
      ∧ (nanos < 1000000000 ∨ second % 60 = 59 ∧ nanos < 2000000000) then
    some ⟨second, nanos, h.1, h.2⟩
  else none

/-- The instant `n` nanoseconds after the start of 1970, if the calendar has it. -/
def ofNanos? (n : Int) : Option Instant :=
  ofParts? (n / 1000000000) (n % 1000000000).toNat

/-- The instant `ms` milliseconds after the start of 1970, if the calendar has it. -/
def ofMillis? (ms : Int) : Option Instant :=
  ofNanos? (ms * 1000000)

def epoch : Instant := ⟨0, 0, by decide, by decide⟩

instance : Inhabited Instant := ⟨epoch⟩

instance : LT Instant :=
  ⟨fun a b => a.second < b.second ∨ a.second = b.second ∧ a.nanos < b.nanos⟩

instance : LE Instant :=
  ⟨fun a b => a.second < b.second ∨ a.second = b.second ∧ a.nanos ≤ b.nanos⟩

instance (a b : Instant) : Decidable (a < b) :=
  inferInstanceAs (Decidable (a.second < b.second ∨ a.second = b.second ∧ a.nanos < b.nanos))

instance (a b : Instant) : Decidable (a ≤ b) :=
  inferInstanceAs (Decidable (a.second < b.second ∨ a.second = b.second ∧ a.nanos ≤ b.nanos))

theorem lt_def {a b : Instant} :
    a < b ↔ a.second < b.second ∨ a.second = b.second ∧ a.nanos < b.nanos := Iff.rfl

theorem le_def {a b : Instant} :
    a ≤ b ↔ a.second < b.second ∨ a.second = b.second ∧ a.nanos ≤ b.nanos := Iff.rfl

/-- The nanoseconds since the start of 1970. Those of a leap second are those of the second after
it. -/
def count (t : Instant) : Int :=
  t.second * 1000000000 + t.nanos

theorem count_bounds (t : Instant) :
    -8334601228800000000000 ≤ t.count ∧ t.count ≤ 8210266876800999999999 := by
  have := t.inRange
  have := t.nanos_lt
  simp only [count]
  omega

/-- The instant lies in no leap second. -/
def Regular (t : Instant) : Prop :=
  t.nanos < 1000000000

instance (t : Instant) : Decidable t.Regular := inferInstanceAs (Decidable (t.nanos < 1000000000))

/-- The seconds since the start of the day. -/
def ofDay (t : Instant) : Int :=
  t.second % 86400

/-- The seconds that a span has beyond the difference of the counts, where one of its ends lies in a
leap second. Only the times of day are compared, so a leap second before midnight is not counted up
to an instant of the next day. -/
def leapSeconds (later earlier : Instant) : Int :=
  if earlier.ofDay < later.ofDay ∧ ¬earlier.Regular then 1
  else if later.ofDay < earlier.ofDay ∧ ¬later.Regular then -1
  else 0

theorem leapSeconds_bounds (a b : Instant) : -1 ≤ a.leapSeconds b ∧ a.leapSeconds b ≤ 1 := by
  unfold leapSeconds
  repeat' split
  all_goals decide

theorem leapSeconds_of_regular {a b : Instant} (ha : a.Regular) (hb : b.Regular) :
    a.leapSeconds b = 0 := by
  rw [leapSeconds, if_neg fun h => h.2 hb, if_neg fun h => h.2 ha]

/-- The span from `earlier` to `later`, negative if they come in the other order. -/
def since (later earlier : Instant) : Span :=
  ⟨later.count - earlier.count + later.leapSeconds earlier * 1000000000, by
    have := later.count_bounds
    have := earlier.count_bounds
    have := later.leapSeconds_bounds earlier
    omega⟩

theorem since_nanos (a b : Instant) :
    (a.since b).nanos = a.count - b.count + a.leapSeconds b * 1000000000 := rfl

theorem since_nanos_of_regular {a b : Instant} (ha : a.Regular) (hb : b.Regular) :
    (a.since b).nanos = a.count - b.count := by
  rw [since_nanos, leapSeconds_of_regular ha hb, Int.zero_mul, Int.add_zero]

/-- The instant `n` nanoseconds after another one, if the calendar has it. The only leap second that
is minded is the one that it starts in: a short shift stays in that second, and a shift that leaves
it forward begins where it ends. -/
def shift? (t : Instant) (n : Int) : Option Instant :=
  if t.Regular ∨ n ≤ -1000000000 then ofNanos? (t.count + n)
  else if 2000000000 ≤ t.nanos + n then ofNanos? (t.count + n - 1000000000)
  else ofParts? t.second (t.nanos + n).toNat

def add (t : Instant) (d : Span) : Checked Instant :=
  match t.shift? d.nanos with
  | some t => .ok t
  | none => .error .instantSum

def sub (t : Instant) (d : Span) : Checked Instant :=
  match t.shift? (-d.nanos) with
  | some t => .ok t
  | none => .error .instantDifference

/-- The whole milliseconds since the start of 1970, cut to the earlier one. -/
def millis (t : Instant) : Int :=
  t.count / 1000000

end Instant

end MentalMath
