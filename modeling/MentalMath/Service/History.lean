import MentalMath.Storage.Program
import MentalMath.Text.Quoted
import MentalMath.Time.Calendar

/-! Views of past sessions: the windows of time that can be asked for, and the totals over a list of
sessions. -/

namespace MentalMath

/-- A window of time that ends now. -/
inductive HistoryRange where
  /-- The day of UTC. -/
  | today
  /-- Seven days. -/
  | pastWeek
  /-- A month of the calendar. -/
  | pastMonth
  | all
  deriving DecidableEq, Repr

namespace HistoryRange

def slug : HistoryRange → String
  | .today => "today"
  | .pastWeek => "week"
  | .pastMonth => "month"
  | .all => "all"

def default : HistoryRange := .all

def ofText? (s : String) : Option HistoryRange :=
  match Text.lower (Text.trim s) with
  | "today" => some .today
  | "day" => some .today
  | "week" => some .pastWeek
  | "month" => some .pastMonth
  | "all" => some .all
  | _ => none

def unknownMessage (raw : String) : String :=
  "unknown history range " ++ Text.quote raw ++ " (expected today, week, month or all)"

/-- The earliest start in a window, if the window has one. Where the calendar has no day a month
earlier the window is thirty days long, and those must exist in any case. -/
def startsAt (r : HistoryRange) (now : Instant) : Checked (Option Instant) :=
  match r with
  | .today => .ok (some now.midnight)
  | .pastWeek => do return some (← now.sub (Span.ofDays 7 (by decide)))
  | .pastMonth => do
    let thirtyDays ← now.sub (Span.ofDays 30 (by decide))
    return some (now.monthBefore?.getD thirtyDays)
  | .all => .ok none

end HistoryRange

/-- Totals over a list of sessions. -/
structure HistoryStats where
  sessions : Nat
  /-- The mean share of right answers, zero if there are no sessions. -/
  averageRate : Float
  questions : Nat
  totalTime : Span
  /-- The number of sessions of each category that occurs, the largest first. -/
  categories : List (Category × Nat)

namespace HistoryStats

def maxQuestions : Nat := 18446744073709551615

def addQuestions (sum n : Nat) : Checked Nat :=
  if sum + n ≤ maxQuestions then .ok (sum + n) else .error .countSum

def countOne (c : Category) : List (Category × Nat) → List (Category × Nat)
  | [] => [(c, 1)]
  | (d, n) :: counts => if d = c then (d, n + 1) :: counts else (d, n) :: countOne c counts

/-- The number of sessions of each category that occurs, counted one session after the other. -/
def tally (sessions : List Session) : List (Category × Nat) :=
  sessions.foldl (fun counts s => countOne s.category counts) []

/-- Whether a number of sessions comes before another: the larger one first, then the earlier
category. -/
def mostPracticedFirst (a b : Category × Nat) : Bool :=
  b.2 < a.2 || (a.2 == b.2 && a.1.rank ≤ b.1.rank)

def mean (rates : List Float) : Float :=
  if rates.isEmpty then 0 else rates.foldl (· + ·) 0 / Float.ofNat rates.length

/-- The totals over some sessions, given their tally in any order. -/
def ofTally (counts : List (Category × Nat)) (sessions : List Session) : Checked HistoryStats := do
  let questions ← sessions.foldlM (fun sum s => addQuestions sum s.total) 0
  let totalTime ← sessions.foldlM (fun sum s => sum.add s.totalTime) Span.zero
  return {
    sessions := sessions.length
    averageRate := mean (sessions.map Session.rate)
    questions := questions
    totalTime := totalTime
    categories := counts.mergeSort mostPracticedFirst }

def ofSessions (sessions : List Session) : Checked HistoryStats :=
  ofTally (tally sessions) sessions

end HistoryStats

namespace History

/-- The query for the completed sessions of a window, of one category or of all. -/
def query (r : HistoryRange) (c : Option Category) (now : Instant) : Checked SessionQuery := do
  return { SessionQuery.completed with startedFrom := ← r.startsAt now, category := c }

/-- The completed sessions of a window. -/
def list (r : HistoryRange) (c : Option Category) (now : Instant) :
    Checked (StoreM (List Session)) := do
  return StoreM.request (.listSessions (← query r c now))

def stats (r : HistoryRange) (c : Option Category) (now : Instant) :
    Checked (StoreM (Checked HistoryStats)) := do
  return HistoryStats.ofSessions <$> (← list r c now)

end History

end MentalMath
