import Mathlib.Tactic.IntervalCases
import MentalMath.Proofs.Time.Order
import MentalMath.Proofs.Time.Stopwatch
import MentalMath.Service.History

/-! Where the windows of the past start. A month of the calendar is between 28 and 31 days long,
also where the day of the month is cut to a shorter month, so the longer windows start earlier at
every instant. A window has a start as long as its days lie in the calendar. -/

namespace MentalMath

/-! ### Months -/

namespace Date

variable {d e : Date}

theorem daysInMonth_bounds (year : Int) (month : Nat) :
    28 ≤ daysInMonth year month ∧ daysInMonth year month ≤ 31 := by
  unfold daysInMonth
  repeat' split
  all_goals omega

/-- From a day of a month to one of the next month there are the days that are left of the month and
those that have begun of the next. -/
theorem toDays_next_month {y : Int} {m k l : Nat} (h₀ : 1 ≤ m) (h₁ : m ≤ 11) :
    toDays ⟨y, m + 1, l⟩ = toDays ⟨y, m, k⟩ + (daysInMonth y m - k) + l := by
  by_cases hmarch : m = 2
  · subst hmarch
    cases hleap : isLeap y with
    | true =>
      simp only [isLeap, Bool.and_eq_true, Bool.or_eq_true, beq_iff_eq, bne_iff_ne] at hleap
      simp [toDays, daysInMonth, isLeap, hleap]
      omega
    | false =>
      simp [toDays, daysInMonth, hleap]
      simp only [isLeap, Bool.and_eq_false_iff, Bool.or_eq_false_iff, beq_eq_false_iff_ne,
        bne_eq_false_iff_eq] at hleap
      omega
  · interval_cases m
    case «2» => exact absurd rfl hmarch
    all_goals
      simp [toDays, daysInMonth]
      omega

theorem toDays_next_year {y : Int} {k l : Nat} :
    toDays ⟨y + 1, 1, l⟩ = toDays ⟨y, 12, k⟩ + (daysInMonth y 12 - k) + l := by
  simp [toDays, daysInMonth]
  omega

/-- The same day a month earlier is as many days earlier as that month has, or, if that month is cut
short, as the day of the month says. -/
theorem toDays_monthBefore (hmonth : 1 ≤ d.month ∧ d.month ≤ 12) (hday : d.day ≤ 31)
    (h : d.monthBefore? = some e) : e.toDays + 28 ≤ d.toDays ∧ d.toDays ≤ e.toDays + 31 := by
  obtain ⟨y, m, l⟩ := d
  have hparts : ∀ y m, ofParts? y m (min l (daysInMonth y m)) = some e →
      e = ⟨y, m, min l (daysInMonth y m)⟩ := by
    intro y m he
    unfold ofParts? at he
    split at he
    case isTrue => exact (Option.some.inj he).symm
    case isFalse => cases he
  simp only at hmonth hday
  simp only [monthBefore?] at h
  by_cases hfirst : m ≤ 1
  · rw [if_pos hfirst, if_pos hfirst] at h
    obtain rfl := hparts _ _ h
    obtain ⟨hshort, hlong⟩ := daysInMonth_bounds (y - 1) 12
    have hnext := toDays_next_year (y := y - 1) (k := min l (daysInMonth (y - 1) 12)) (l := l)
    obtain rfl : m = 1 := by omega
    rw [Int.sub_add_cancel] at hnext
    omega
  · rw [if_neg hfirst, if_neg hfirst] at h
    obtain rfl := hparts _ _ h
    obtain ⟨hshort, hlong⟩ := daysInMonth_bounds y (m - 1)
    have hnext := toDays_next_month (y := y) (m := m - 1) (k := min l (daysInMonth y (m - 1)))
      (l := l) (by omega) (by omega)
    rw [Nat.sub_add_cancel (by omega)] at hnext
    omega

end Date

namespace Instant

variable {t s now : Instant} {d : Span}

theorem ofNanos?_eq_some_iff {n : Int} :
    ofNanos? n = some s ↔ s.count = n ∧ s.nanos < 1000000000 := by
  unfold ofNanos?
  constructor
  · intro h
    unfold ofParts? at h
    split at h
    case isTrue =>
      obtain rfl := Option.some.inj h
      simp only [count]
      omega
    case isFalse => cases h
  · rintro ⟨rfl, hnanos⟩
    have hsecond : s.count / 1000000000 = s.second := by
      simp only [count]
      omega
    have hfraction : (s.count % 1000000000).toNat = s.nanos := by
      simp only [count]
      omega
    rw [hsecond, hfraction]
    exact dif_pos ⟨s.inRange, s.nanos_lt⟩

/-- From any instant, a span of a second or more leads back to where the counts say. -/
theorem sub_eq_ok_iff (h : 1000000000 ≤ d.nanos) :
    t.sub d = .ok s ↔ s.count = t.count - d.nanos ∧ s.nanos < 1000000000 := by
  rw [← ofNanos?_eq_some_iff, sub, shift?, if_pos (Or.inr (Int.neg_le_neg h)), ← Int.sub_eq_add_neg]
  cases ofNanos? (t.count - d.nanos) with
  | none => simp only [reduceCtorEq]
  | some u => simp only [Except.ok.injEq, Option.some.injEq]

/-- An earlier instant exists as long as the calendar has it. -/
theorem exists_sub_iff (h : 1000000000 ≤ d.nanos) :
    (∃ s, t.sub d = .ok s) ↔ -8334601228800000000000 + d.nanos ≤ t.count := by
  simp only [sub_eq_ok_iff h]
  constructor
  · rintro ⟨s, hcount, -⟩
    have hbounds := s.count_bounds
    omega
  · intro hpast
    have hbounds := t.count_bounds
    refine ⟨⟨(t.count - d.nanos) / 1000000000, ((t.count - d.nanos) % 1000000000).toNat,
      by omega, by omega⟩, ?_⟩
    simp only [count] at hpast hbounds ⊢
    omega

/-- The same time of day a month earlier is between 28 and 31 days earlier. -/
theorem second_of_monthBefore (h : now.monthBefore? = some s) :
    now.second - 31 * 86400 ≤ s.second ∧ s.second ≤ now.second - 28 * 86400 := by
  unfold monthBefore? at h
  split at h
  case h_2 => cases h
  case h_1 date hdate =>
    obtain ⟨-, hmonth, -, hday⟩ := Date.bounds_of_ofParts? now.regular_toCivil.date
    obtain ⟨hleast, hmost⟩ := Date.toDays_monthBefore hmonth hday hdate
    have hdays : now.toCivil.date.toDays = now.second / 86400 := Date.toDays_ofDays _
    rw [ofParts?] at h
    split at h
    case isFalse => cases h
    case isTrue =>
      obtain rfl := Option.some.inj h
      show _ ≤ date.toDays * 86400 + _ ∧ date.toDays * 86400 + _ ≤ _
      omega

end Instant

/-! ### Windows -/

namespace HistoryRange

variable {r r' : HistoryRange} {now start start' : Instant}

/-- The windows by how far they reach. -/
def reach : HistoryRange → Nat
  | .today => 0
  | .pastWeek => 1
  | .pastMonth => 2
  | .all => 3

theorem reach_injective (h : r.reach = r'.reach) : r = r' := by
  revert h
  cases r <;> cases r' <;> decide

/-- The days of the calendar before now that a window needs. -/
def daysBefore : HistoryRange → Nat
  | .today | .all => 0
  | .pastWeek => 7
  | .pastMonth => 30

theorem startsAt_pastMonth_eq_ok_iff {start : Option Instant} :
    pastMonth.startsAt now = .ok start ↔ ∃ thirtyDays,
      now.sub (Span.ofDays 30 (by decide)) = .ok thirtyDays ∧
        start = some (now.monthBefore?.getD thirtyDays) := by
  rw [startsAt, Checked.bind_eq_ok]
  exact exists_congr fun _ => and_congr_right' ⟨fun h => by cases h; rfl, fun h => by rw [h]; rfl⟩

theorem startsAt_pastWeek_eq_ok_iff {start : Option Instant} :
    pastWeek.startsAt now = .ok start ↔ ∃ week,
      now.sub (Span.ofDays 7 (by decide)) = .ok week ∧ start = some week := by
  rw [startsAt, Checked.bind_eq_ok]
  exact exists_congr fun _ => and_congr_right' ⟨fun h => by cases h; rfl, fun h => by rw [h]; rfl⟩

/-- The days that a window goes back at least. In a leap second a week is a second short. -/
def leastDays : HistoryRange → Nat
  | .today | .all => 0
  | .pastWeek => 6
  | .pastMonth => 28

/-- The days that a window with a start goes back at most. -/
def mostDays : HistoryRange → Nat
  | .today | .all => 1
  | .pastWeek => 7
  | .pastMonth => 31

theorem mostDays_lt_leastDays (h : r.reach < r'.reach) (hall : r' ≠ .all) :
    r.mostDays < r'.leastDays := by
  revert h hall
  cases r <;> cases r' <;> decide

theorem mostDays_le (r : HistoryRange) : r.mostDays ≤ 31 := by
  cases r <;> decide

theorem second_of_startsAt (h : r.startsAt now = .ok (some start)) :
    now.second - r.mostDays * 86400 ≤ start.second ∧
      start.second ≤ now.second - r.leastDays * 86400 := by
  have hnanos := now.nanos_lt
  cases r with
  | today =>
    cases h
    simp only [mostDays, leastDays, Instant.midnight]
    omega
  | pastWeek =>
    obtain ⟨week, hweek, heq⟩ := startsAt_pastWeek_eq_ok_iff.mp h
    cases heq
    obtain ⟨hcount, hregular⟩ := (Instant.sub_eq_ok_iff (by decide)).mp hweek
    simp only [Span.ofDays, Instant.count] at hcount
    simp only [mostDays, leastDays]
    omega
  | pastMonth =>
    obtain ⟨thirtyDays, hthirty, heq⟩ := startsAt_pastMonth_eq_ok_iff.mp h
    cases hmonth : now.monthBefore? with
    | none =>
      rw [hmonth] at heq
      cases heq
      obtain ⟨hcount, hregular⟩ := (Instant.sub_eq_ok_iff (by decide)).mp hthirty
      simp only [Span.ofDays, Instant.count] at hcount
      simp only [mostDays, leastDays, Option.getD_none]
      omega
    | some month =>
      rw [hmonth] at heq
      cases heq
      exact Instant.second_of_monthBefore hmonth
  | all => cases h

/-- The starts of the windows at an instant: they exist as far as the calendar goes back, whose
first instant has the count below, and they come in the order of the windows. -/
structure Ordered (now : Instant) : Prop where
  exists_iff : ∀ r : HistoryRange, (∃ start, r.startsAt now = .ok start) ↔
    -8334601228800000000000 + r.daysBefore * 86400000000000 ≤ now.count
  unlimited : ∀ r : HistoryRange, r.startsAt now = .ok none ↔ r = .all
  earlier : ∀ (r r' : HistoryRange) start start', r.reach ≤ r'.reach →
    r.startsAt now = .ok (some start) → r'.startsAt now = .ok (some start') → start' ≤ start
  past : ∀ (r : HistoryRange) start, r.startsAt now = .ok (some start) → start ≤ now

theorem exists_startsAt_iff (r : HistoryRange) (now : Instant) :
    (∃ start, r.startsAt now = .ok start) ↔
      -8334601228800000000000 + r.daysBefore * 86400000000000 ≤ now.count := by
  have hbounds := now.count_bounds
  cases r with
  | today => exact ⟨fun _ => hbounds.1, fun _ => ⟨_, rfl⟩⟩
  | all => exact ⟨fun _ => hbounds.1, fun _ => ⟨_, rfl⟩⟩
  | pastWeek =>
    refine Iff.trans ?_ (Instant.exists_sub_iff (d := Span.ofDays 7 (by decide)) (by decide))
    simp only [startsAt_pastWeek_eq_ok_iff]
    exact ⟨fun ⟨_, week, hweek, _⟩ => ⟨week, hweek⟩, fun ⟨week, hweek⟩ => ⟨_, week, hweek, rfl⟩⟩
  | pastMonth =>
    refine Iff.trans ?_ (Instant.exists_sub_iff (d := Span.ofDays 30 (by decide)) (by decide))
    simp only [startsAt_pastMonth_eq_ok_iff]
    exact ⟨fun ⟨_, days, hdays, _⟩ => ⟨days, hdays⟩, fun ⟨days, hdays⟩ => ⟨_, days, hdays, rfl⟩⟩

theorem startsAt_eq_none_iff : r.startsAt now = .ok none ↔ r = .all := by
  cases r with
  | today => exact ⟨(nomatch ·), (nomatch ·)⟩
  | all => exact ⟨fun _ => rfl, fun _ => rfl⟩
  | pastWeek =>
    rw [startsAt_pastWeek_eq_ok_iff]
    exact ⟨fun ⟨_, _, h⟩ => (nomatch h), (nomatch ·)⟩
  | pastMonth =>
    rw [startsAt_pastMonth_eq_ok_iff]
    exact ⟨fun ⟨_, _, h⟩ => (nomatch h), (nomatch ·)⟩

theorem startsAt_le_startsAt (hreach : r.reach ≤ r'.reach) (h : r.startsAt now = .ok (some start))
    (h' : r'.startsAt now = .ok (some start')) : start' ≤ start := by
  rcases Nat.eq_or_lt_of_le hreach with heq | hlt
  · rw [reach_injective heq, h'] at h
    cases h
    exact Instant.le_refl start
  · have hall : r' ≠ .all := by
      rintro rfl
      cases h'
    have hdays := mostDays_lt_leastDays hlt hall
    obtain ⟨hleast, -⟩ := second_of_startsAt h
    obtain ⟨-, hmost⟩ := second_of_startsAt h'
    exact Or.inl (show start'.second < start.second by omega)

theorem startsAt_le_now (h : r.startsAt now = .ok (some start)) : start ≤ now := by
  obtain ⟨-, hmost⟩ := second_of_startsAt h
  cases r with
  | today =>
    cases h
    rw [Instant.le_def]
    simp only [Instant.midnight]
    omega
  | pastWeek =>
    simp only [leastDays] at hmost
    exact Or.inl (show start.second < now.second by omega)
  | pastMonth =>
    simp only [leastDays] at hmost
    exact Or.inl (show start.second < now.second by omega)
  | all => cases h

theorem ordered (now : Instant) : Ordered now :=
  ⟨fun r => exists_startsAt_iff r now, fun _ => startsAt_eq_none_iff,
    fun _ _ _ _ => startsAt_le_startsAt, fun _ _ => startsAt_le_now⟩

end HistoryRange

end MentalMath
