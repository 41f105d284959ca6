import MentalMath.Time.Calendar

/-! The calendar counts every day once. A day of an era is split into centuries, groups of four
years, years and days of a year that begins in March; from these parts a day and its date determine
each other, and the date is one of the calendar. So an instant and its time of UTC determine each
other as well. -/

namespace MentalMath

namespace Date

/-- A day of an era, which has four centuries of twenty-five groups of four years. Only the last
year of a group has a leap day, and that of the last group of a century only in the last one. -/
structure DayOfEra (c q k d : Int) : Prop where
  century : 0 ≤ c ∧ c ≤ 3
  group : 0 ≤ q ∧ q ≤ 24
  year : 0 ≤ k ∧ k ≤ 3
  day : 0 ≤ d
  leap : d ≤ 364 ∨ d = 365 ∧ k = 3 ∧ (q < 24 ∨ c = 3)

theorem exists_dayOfEra {n : Int} (h₀ : 0 ≤ n) (h₁ : n < 146097) :
    ∃ c q k d, DayOfEra c q k d ∧ n = 36524 * c + 1461 * q + 365 * k + d := by
  have hc : ∃ c r : Int, 0 ≤ c ∧ c ≤ 3 ∧ 0 ≤ r ∧ (r < 36524 ∨ c = 3 ∧ r = 36524) ∧
      n = 36524 * c + r := by
    by_cases hlast : n = 146096
    · exact ⟨3, 36524, by omega⟩
    · exact ⟨n / 36524, n % 36524, by omega⟩
  obtain ⟨c, r, hc0, hc3, hr0, hr, rfl⟩ := hc
  have hk : ∃ k d : Int, 0 ≤ k ∧ k ≤ 3 ∧ 0 ≤ d ∧ (d ≤ 364 ∨ k = 3 ∧ d = 365) ∧
      r % 1461 = 365 * k + d := by
    by_cases hlast : r % 1461 = 1460
    · exact ⟨3, 365, by omega⟩
    · exact ⟨r % 1461 / 365, r % 1461 % 365, by omega⟩
  obtain ⟨k, d, hk0, hk3, hd0, hd, hrk⟩ := hk
  exact ⟨c, r / 1461, k, d, ⟨by omega, by omega, by omega, by omega, by omega⟩, by omega⟩

/-- The correction for leap days finds the year of the era. -/
theorem DayOfEra.yearOfEra {c q k d n : Int} (h : DayOfEra c q k d)
    (hn : n = 36524 * c + 1461 * q + 365 * k + d) :
    (n - n / 1460 + n / 36524 - n / 146096) / 365 = 100 * c + 4 * q + k := by
  have hc := h.century
  have hq := h.group
  have hk := h.year
  have hd := h.day
  have hleap := h.leap
  have ht : ∃ t : Int, n / 1460 = 25 * c + q + t ∧ (t = 0 ∧ d ≤ 364 ∨ t = 1 ∧ 1 ≤ d) := by
    refine ⟨n / 1460 - 25 * c - q, by omega, ?_⟩
    omega
  have he : ∃ e : Int, n / 36524 = c + e ∧ n / 146096 = e := by
    have hr : 1461 * q + 365 * k + d ≤ 36523 ∨ 1461 * q + 365 * k + d = 36524 ∧ c = 3 := by omega
    rcases hr with hr | ⟨hr, rfl⟩
    · exact ⟨0, by omega, by omega⟩
    · exact ⟨1, by omega, by omega⟩
  obtain ⟨t, ht, ht'⟩ := ht
  obtain ⟨e, he, he'⟩ := he
  rw [ht, he, he']
  omega

theorem DayOfEra.leapYears {c q k d : Int} (h : DayOfEra c q k d) :
    (100 * c + 4 * q + k) / 4 = 25 * c + q ∧ (100 * c + 4 * q + k) / 100 = c := by
  have hq := h.group
  have hk := h.year
  constructor <;> omega

/-- The date of a day of a year that begins in March. -/
def ofMarch (year day : Int) : Date :=
  let part := (5 * day + 2) / 153
  let month := if part < 10 then part + 3 else part - 9
  ⟨if month ≤ 2 then year + 1 else year, month.toNat, (day - (153 * part + 2) / 5 + 1).toNat⟩

/-- Every day is a day of some year that begins in March. -/
theorem exists_ofMarch (days : Int) :
    ∃ era c q k d, DayOfEra c q k d ∧
      days + 719468 = 146097 * era + (36524 * c + 1461 * q + 365 * k + d) ∧
      ofDays days = ofMarch (400 * era + (100 * c + 4 * q + k)) d := by
  obtain ⟨c, q, k, d, h, hn⟩ := exists_dayOfEra (n := (days + 719468) % 146097) (by omega) (by omega)
  refine ⟨(days + 719468) / 146097, c, q, k, d, h, by omega, ?_⟩
  have hyear := h.yearOfEra hn
  have hday : (days + 719468) % 146097 - (365 * (100 * c + 4 * q + k) +
      (100 * c + 4 * q + k) / 4 - (100 * c + 4 * q + k) / 100) = d := by
    rw [h.leapYears.1, h.leapYears.2, hn]
    omega
  simp only [ofDays, hyear, hday, ofMarch]
  rw [show 100 * c + 4 * q + k + (days + 719468) / 146097 * 400 =
    400 * ((days + 719468) / 146097) + (100 * c + 4 * q + k) by omega]

theorem toDays_ofMarch {y d : Int} (h₀ : 0 ≤ d) (h₁ : d ≤ 365) :
    (ofMarch y d).toDays = 365 * y + y / 4 - y / 100 + y / 400 + d - 719468 := by
  simp only [ofMarch, toDays]
  by_cases hpart : (5 * d + 2) / 153 < 10
  · simp only [hpart, if_true]
    omega
  · simp only [hpart, if_false]
    omega

/-- The day of the date of a day is the day. -/
theorem toDays_ofDays (days : Int) : (ofDays days).toDays = days := by
  obtain ⟨era, c, q, k, d, h, hn, hdate⟩ := exists_ofMarch days
  obtain ⟨h4, h100⟩ := h.leapYears
  have hc := h.century
  have hd := h.day
  have hd' := h.leap
  rw [hdate, toDays_ofMarch hd (by omega)]
  have h₁ : (400 * era + (100 * c + 4 * q + k)) / 4 = 100 * era + (25 * c + q) := by omega
  have h₂ : (400 * era + (100 * c + 4 * q + k)) / 100 = 4 * era + c := by omega
  have h₃ : (400 * era + (100 * c + 4 * q + k)) / 400 = era := by omega
  rw [h₁, h₂, h₃]
  omega

theorem month_ofMarch {y d : Int} (h₀ : 0 ≤ d) (h₁ : d ≤ 365) :
    1 ≤ (ofMarch y d).month ∧ (ofMarch y d).month ≤ 12 := by
  simp only [ofMarch]
  split <;> omega

/-- A day of a month is one that the month has. -/
theorem day_ofMarch {y d : Int} (h₀ : 0 ≤ d) (h₁ : d ≤ 364 ∨ d = 365 ∧ isLeap (y + 1) = true) :
    1 ≤ (ofMarch y d).day ∧
      (ofMarch y d).day ≤ daysInMonth (ofMarch y d).year (ofMarch y d).month := by
  rcases h₁ with h₁ | ⟨rfl, hleap⟩
  · obtain ⟨p, hp⟩ : ∃ p, (5 * d + 2) / 153 = p := ⟨_, rfl⟩
    simp only [ofMarch, hp]
    have hmonths : p = 0 ∨ p = 1 ∨ p = 2 ∨ p = 3 ∨ p = 4 ∨ p = 5 ∨ p = 6 ∨ p = 7 ∨ p = 8 ∨ p = 9 ∨
        p = 10 ∨ p = 11 := by omega
    rcases hmonths with rfl | rfl | rfl | rfl | rfl | rfl | rfl | rfl | rfl | rfl | rfl | rfl <;>
      simp [daysInMonth] <;> (try split) <;> omega
  · have hmarch : ofMarch y 365 = ⟨y + 1, 2, 29⟩ := rfl
    rw [hmarch]
    simp [daysInMonth, hleap]

/-- The last day of a year that begins in March is a leap day only where the calendar has it. -/
theorem DayOfEra.isLeap_next {era c q k : Int} (h : DayOfEra c q k 365) :
    isLeap (400 * era + (100 * c + 4 * q + k) + 1) = true := by
  have hq := h.group
  have hleap := h.leap
  simp only [isLeap, Bool.and_eq_true, Bool.or_eq_true, beq_iff_eq, bne_iff_ne]
  omega

/-- Every day has a date of the calendar, up to the years that the calendar has. -/
theorem ofParts?_ofDays {days : Int} (h : -262143 ≤ (ofDays days).year ∧ (ofDays days).year ≤ 262142) :
    ofParts? (ofDays days).year (ofDays days).month (ofDays days).day = some (ofDays days) := by
  obtain ⟨era, c, q, k, d, hd, hn, hdate⟩ := exists_ofMarch days
  have hleap : d ≤ 364 ∨ d = 365 ∧ isLeap (400 * era + (100 * c + 4 * q + k) + 1) = true := by
    rcases hd.leap with hle | ⟨rfl, -⟩
    · exact Or.inl hle
    · exact Or.inr ⟨rfl, hd.isLeap_next⟩
  have hmonth := month_ofMarch (y := 400 * era + (100 * c + 4 * q + k)) hd.day (by omega)
  have hday := day_ofMarch hd.day hleap
  rw [hdate] at h ⊢
  exact if_pos ⟨h.1, h.2, hmonth.1, hmonth.2, hday.1, hday.2⟩

/-- The days of the calendar are those of its years. -/
theorem year_ofDays_bounds {days : Int} (h₀ : -96465292 ≤ days) (h₁ : days ≤ 95026236) :
    -262143 ≤ (ofDays days).year ∧ (ofDays days).year ≤ 262142 := by
  obtain ⟨era, c, q, k, d, hd, hn, hdate⟩ := exists_ofMarch days
  have hc := hd.century
  have hq := hd.group
  have hk := hd.year
  have hd₀ := hd.day
  have hd₁ : d ≤ 365 := by
    have := hd.leap
    omega
  have hera : -656 ≤ era ∧ era ≤ 655 := by omega
  rw [hdate]
  by_cases hnext : d < 306
  · have hyear : (ofMarch (400 * era + (100 * c + 4 * q + k)) d).year =
        400 * era + (100 * c + 4 * q + k) := by
      simp only [ofMarch]
      rw [if_neg]
      split <;> omega
    rw [hyear]
    omega
  · have hyear : (ofMarch (400 * era + (100 * c + 4 * q + k)) d).year =
        400 * era + (100 * c + 4 * q + k) + 1 := by
      simp only [ofMarch]
      rw [if_pos]
      split <;> omega
    rw [hyear]
    omega

theorem bounds_of_ofParts? {year : Int} {month day : Nat} {d : Date}
    (h : ofParts? year month day = some d) :
    (-262143 ≤ year ∧ year ≤ 262142) ∧ (1 ≤ month ∧ month ≤ 12) ∧ 1 ≤ day ∧ day ≤ 31 := by
  unfold ofParts? at h
  split at h
  case isTrue hparts =>
    obtain ⟨hy, hy', hm, hm', hd, hd'⟩ := hparts
    have hlong : daysInMonth year month ≤ 31 := by
      unfold daysInMonth
      repeat' split
      all_goals omega
    exact ⟨⟨hy, hy'⟩, ⟨hm, hm'⟩, hd, Nat.le_trans hd' hlong⟩
  case isFalse => cases h

end Date

/-- A time whose date is one of the calendar, and whose time of day is one of a clock. -/
structure CivilTime.Regular (t : CivilTime) : Prop where
  date : Date.ofParts? t.date.year t.date.month t.date.day = some t.date
  days : Date.ofDays t.date.toDays = t.date
  hour : t.hour ≤ 23
  minute : t.minute ≤ 59
  second : t.second ≤ 60
  nanos : t.nanos < 1000000000

namespace Instant

theorem regular_toCivil (t : Instant) : t.toCivil.Regular := by
  have hrange := t.inRange
  have hnanos := t.nanos_lt
  refine ⟨?_, ?_, ?_, ?_, ?_, ?_⟩
  · exact Date.ofParts?_ofDays (Date.year_ofDays_bounds (by omega) (by omega))
  · show Date.ofDays (Date.ofDays (t.second / 86400)).toDays = Date.ofDays (t.second / 86400)
    rw [Date.toDays_ofDays]
  · show (t.second % 86400).toNat / 3600 ≤ 23
    omega
  · show (t.second % 86400).toNat / 60 % 60 ≤ 59
    omega
  · simp only [toCivil]
    split <;> omega
  · simp only [toCivil]
    split <;> omega

/-- The instant of the time of an instant is the instant. -/
theorem toInstant?_toCivil (t : Instant) : t.toCivil.toInstant? = some t := by
  have hrange := t.inRange
  have hnanos := t.nanos_lt
  have hparts : ofParts? t.second t.nanos = some t := dif_pos ⟨t.inRange, t.nanos_lt⟩
  simp only [CivilTime.toInstant?, toCivil, Date.toDays_ofDays]
  by_cases hleap : t.nanos < 1000000000
  · rw [if_pos hleap, if_neg (by omega), ← hparts]
    congr 1
    omega
  · have hlast : (t.second % 86400).toNat % 60 = 59 := by omega
    rw [if_neg hleap, if_pos (by omega), ← hparts]
    congr 1
    · omega
    · omega

end Instant

end MentalMath
