import MentalMath.Fault

/-! A ticker that refreshes a display. It ticks at once and then once each period; ticks that come
late are skipped and not made up for. Times are in milliseconds since the ticker was made. -/

namespace MentalMath

structure Ticker where
  /-- The time from one tick to the next. -/
  period : Nat
  pos : 0 < period
  due : Nat

namespace Ticker

/-- The period of a display of elapsed times. -/
def displayPeriod : Nat := 100

/-- How late a tick may come and still keep the beat. -/
def tolerance : Nat := 5

/-- A ticker whose first tick is due at once. -/
def start (period : Nat) : Checked Ticker :=
  if h : 0 < period then .ok ⟨period, h, 0⟩ else .error .zeroPeriod

/-- Waits for a tick from `now` on. The answer is the time of the tick, and the ticker is due at the
next beat that is still ahead. -/
def tick (t : Ticker) (now : Nat) : Nat × Ticker :=
  let time := max now t.due
  if time > t.due + tolerance then
    (time, { t with due := time + t.period - (time - t.due) % t.period })
  else (time, { t with due := t.due + t.period })

/-- The times of the ticks of a caller that is busy for the given time after each of them. -/
def run (t : Ticker) (now : Nat) : List Nat → List Nat
  | [] => []
  | busy :: rest =>
    let (time, t') := t.tick now
    time :: t'.run (time + busy) rest

end Ticker

end MentalMath
