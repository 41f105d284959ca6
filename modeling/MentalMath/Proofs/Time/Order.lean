import MentalMath.Proofs.Text.Order
import MentalMath.Proofs.Time.Calendar
import MentalMath.Proofs.Time.Stamp

/-! Stored times in the order of their texts. Later days have later dates, later times of a day have
later clocks, and a text writes them from the largest part to the smallest, so up to the year 9999
the texts come in the order of the instants. -/

namespace MentalMath

open Text

/-! ### Dates -/

namespace Date

/-- A date comes before another one by its year, its month or its day. -/
def Before (d e : Date) : Prop :=
  d.year < e.year ∨ d.year = e.year ∧ (d.month < e.month ∨ d.month = e.month ∧ d.day < e.day)

/-- A year that begins in March ends in the February of the next one. -/
theorem year_ofMarch {y d : Int} (h₁ : d ≤ 365) :
    (ofMarch y d).year = y ∧ 3 ≤ (ofMarch y d).month ∨
      (ofMarch y d).year = y + 1 ∧ (ofMarch y d).month ≤ 2 := by
  simp only [ofMarch]
  split <;> split <;> omega

theorem ofMarch_before_of_day {y d e : Int} (h₀ : 0 ≤ d) (h : d < e) (h₁ : e ≤ 365) :
    (ofMarch y d).Before (ofMarch y e) := by
  simp only [Before, ofMarch]
  repeat' split
  all_goals omega

theorem ofMarch_before_of_year {y z d e : Int} (hd : d ≤ 365) (he : e ≤ 365) (h : y < z) :
    (ofMarch y d).Before (ofMarch z e) := by
  have hy := year_ofMarch (y := y) hd
  have hz := year_ofMarch (y := z) he
  simp only [Before]
  omega

/-- Later days have later dates. -/
theorem ofDays_before {a b : Int} (h : a < b) : (ofDays a).Before (ofDays b) := by
  have hmarch : ∀ days, ∃ y d : Int, 0 ≤ d ∧ d ≤ 365 ∧ ofDays days = ofMarch y d ∧
      days + 719468 = 365 * y + y / 4 - y / 100 + y / 400 + d := by
    intro days
    obtain ⟨era, c, q, k, d, hd, -, hdate⟩ := exists_ofMarch days
    have hlast := hd.leap
    have hday := toDays_ofMarch (y := 400 * era + (100 * c + 4 * q + k)) hd.day (by omega)
    rw [← hdate, toDays_ofDays] at hday
    exact ⟨_, d, hd.day, by omega, hdate, by omega⟩
  obtain ⟨y, d, hd₀, hd₁, hfirst, ha⟩ := hmarch a
  obtain ⟨z, e, he₀, he₁, hsecond, hb⟩ := hmarch b
  rw [hfirst, hsecond]
  rcases Int.lt_trichotomy y z with hlt | rfl | hgt
  · exact ofMarch_before_of_year hd₁ he₁ hlt
  · exact ofMarch_before_of_day hd₀ (by omega) he₁
  · omega

end Date

/-! ### Times of day -/

namespace CivilTime

/-- A time of day comes before another one by its hour, its minute, its second or its fraction. -/
def ClockBefore (s t : CivilTime) : Prop :=
  s.hour < t.hour ∨ s.hour = t.hour ∧ (s.minute < t.minute ∨ s.minute = t.minute ∧
    (s.second < t.second ∨ s.second = t.second ∧ s.nanos < t.nanos))

/-- A time comes before another one by its date or by its time of day. -/
def Before (s t : CivilTime) : Prop :=
  s.date.Before t.date ∨ s.date = t.date ∧ s.ClockBefore t

/-- A fraction is a point and the digits of a part of a second, unless it is left out. -/
theorem exists_fraction {n : Nat} (h₀ : 0 < n) (h₁ : n < 1000000000) :
    ∃ width k, 0 < width ∧ width ≤ 9 ∧ k < Nat.pow 10 width ∧ k * 10 ^ (9 - width) = n ∧
      (fractionText n).toList = '.' :: (zeroPadded width k).toList := by
  have htext : ∀ w k, ("." ++ zeroPadded w k).toList = '.' :: (zeroPadded w k).toList := by
    intro w k
    rw [String.toList_append]
    rfl
  have hmillis : n / 1000000 < Nat.pow 10 3 := Nat.div_lt_of_lt_mul h₁
  have hmicros : n / 1000 < Nat.pow 10 6 := Nat.div_lt_of_lt_mul h₁
  have hwhole : ∀ d, n % d = 0 → n / d * d = n := fun d h =>
    Nat.div_mul_cancel (Nat.dvd_of_mod_eq_zero h)
  unfold fractionText
  rw [if_neg (Nat.ne_of_gt h₀)]
  by_cases hmilli : n % 1000000 = 0
  · rw [if_pos hmilli]
    exact ⟨3, n / 1000000, by decide, by decide, hmillis, hwhole _ hmilli, htext _ _⟩
  · rw [if_neg hmilli]
    by_cases hmicro : n % 1000 = 0
    · rw [if_pos hmicro]
      exact ⟨6, n / 1000, by decide, by decide, hmicros, hwhole _ hmicro, htext _ _⟩
    · rw [if_neg hmicro]
      exact ⟨9, n, by decide, by decide, h₁, Nat.mul_one n, htext _ _⟩

theorem fraction_lt_fraction {m n : Nat} {r s : List Char} (h : m < n) (h₁ : n < 1000000000) :
    (fractionText m).toList ++ '+' :: r < (fractionText n).toList ++ '+' :: s := by
  obtain ⟨w, l, hw, hw', hl, rfl, htext⟩ := exists_fraction (by omega) h₁
  rw [htext]
  rcases Nat.eq_zero_or_pos m with rfl | hm
  · exact List.cons_lt_cons_iff.mpr (Or.inl (by decide))
  · obtain ⟨v, k, hv, hv', hk, rfl, htext'⟩ := exists_fraction hm (Nat.lt_trans h h₁)
    rw [htext']
    refine List.cons_lt_cons_iff.mpr (Or.inr ⟨rfl, ?_⟩)
    have hlk := length_zeroPadded v hv hk
    have hll := length_zeroPadded w hw hl
    apply append_lt_append (n := 9) (fun c hc => isDigit_of_mem_zeroPadded hc)
      (fun c hc => isDigit_of_mem_zeroPadded hc) (by omega) (by omega)
    · -- The plus sign comes before the digits.
      refine Or.inr fun c cs hc => List.cons_lt_cons_iff.mpr (Or.inl ?_)
      have hplus : '+'.toNat < '0'.toNat := by decide
      exact Nat.lt_of_lt_of_le hplus (toNat_of_isDigit hc).1
    · rw [hlk, hll, ofDigitChars_zeroPadded, ofDigitChars_zeroPadded]
      exact h

open Stamp (secondChars clockChars toList_stamp)

variable {s t : CivilTime}

theorem clockChars_lt (hs : s.Regular) (ht : t.Regular) (h : s.ClockBefore t) :
    clockChars s < clockChars t := by
  have hfits : ∀ {n most}, n ≤ most → most < 100 → n < Nat.pow 10 2 := Nat.lt_of_le_of_lt
  apply zeroPadded_mark_lt 2 ':' (by decide) (hfits hs.hour (by decide)) (hfits ht.hour (by decide))
  refine h.imp_right (And.imp_right fun h => ?_)
  apply zeroPadded_mark_lt 2 ':' (by decide) (hfits hs.minute (by decide))
    (hfits ht.minute (by decide))
  refine h.imp_right (And.imp_right fun h => ?_)
  apply zeroPadded_append_lt 2 (by decide) (hfits hs.second (by decide))
    (hfits ht.second (by decide))
  exact h.imp_right (And.imp_right fun h => fraction_lt_fraction h ht.nanos)

/-- The texts of plain years come in the order of the times. -/
theorem text_lt_text (hs : s.Regular) (ht : t.Regular) (hys : 0 ≤ s.date.year ∧ s.date.year ≤ 9999)
    (hyt : 0 ≤ t.date.year ∧ t.date.year ≤ 9999) (h : s.Before t) :
    s.text ++ "+00:00" < t.text ++ "+00:00" := by
  have hfits : ∀ {n most}, n ≤ most → most < 100 → n < Nat.pow 10 2 := Nat.lt_of_le_of_lt
  obtain ⟨-, ⟨-, hms⟩, -, hds⟩ := Date.bounds_of_ofParts? hs.date
  obtain ⟨-, ⟨-, hmt⟩, -, hdt⟩ := Date.bounds_of_ofParts? ht.date
  rw [String.lt_iff_toList_lt, toList_stamp, toList_stamp, Date.yearText, if_pos hys, Date.yearText,
    if_pos hyt]
  have hparts : s.date.year < t.date.year ∨ s.date.year = t.date.year ∧
      (s.date.month < t.date.month ∨ s.date.month = t.date.month ∧
        (s.date.day < t.date.day ∨ s.date.day = t.date.day ∧ s.ClockBefore t)) := by
    rcases h with hdate | ⟨hdate, hclock⟩
    · exact hdate.imp_right (And.imp_right fun h => h.imp_right (And.imp_right Or.inl))
    · rw [hdate]
      exact Or.inr ⟨rfl, Or.inr ⟨rfl, Or.inr ⟨rfl, hclock⟩⟩⟩
  apply zeroPadded_mark_lt 4 '-' (by decide) (show _ < 10000 by omega) (show _ < 10000 by omega)
  refine hparts.imp (fun h => by omega) (And.imp (fun h => by omega) fun h => ?_)
  apply zeroPadded_mark_lt 2 '-' (by decide) (hfits hms (by decide)) (hfits hmt (by decide))
  refine h.imp_right (And.imp_right fun h => ?_)
  apply zeroPadded_mark_lt 2 'T' (by decide) (hfits hds (by decide)) (hfits hdt (by decide))
  exact h.imp_right (And.imp_right fun h => clockChars_lt hs ht h)

end CivilTime

/-! ### Instants -/

namespace Instant

/-- An instant of a year that is written without a sign. -/
def HasPlainYear (t : Instant) : Prop :=
  0 ≤ t.toCivil.date.year ∧ t.toCivil.date.year ≤ 9999

instance (t : Instant) : Decidable t.HasPlainYear := by
  unfold HasPlainYear
  infer_instance

variable {s t : Instant}

/-- Later seconds of a day are later on the clock, also after a leap second, the last of a minute. -/
theorem clock_lt {a b k l : Nat} {p : Prop} (h : a < b ∨ a = b ∧ (k < l ∨ k = l ∧ p))
    (hlast : k = 0 ∨ k = 1 ∧ a % 60 = 59) :
    a / 3600 < b / 3600 ∨ a / 3600 = b / 3600 ∧ (a / 60 % 60 < b / 60 % 60 ∨
      a / 60 % 60 = b / 60 % 60 ∧ (a % 60 + k < b % 60 + l ∨ a % 60 + k = b % 60 + l ∧ p)) := by
  rcases h with h | ⟨rfl, h⟩
  · have hminute : a / 60 < b / 60 ∨ a / 60 = b / 60 ∧ a % 60 < b % 60 := by omega
    rcases hminute with hminute | ⟨heq, hsecond⟩
    · have hhour : a / 60 / 60 < b / 60 / 60 ∨ a / 60 / 60 = b / 60 / 60 ∧
          a / 60 % 60 < b / 60 % 60 := by omega
      rw [Nat.div_div_eq_div_mul, Nat.div_div_eq_div_mul] at hhour
      exact hhour.imp_right (And.imp_right Or.inl)
    · have hhour : a / 3600 = b / 3600 := by omega
      rw [heq]
      exact Or.inr ⟨hhour, Or.inr ⟨rfl, Or.inl (by omega)⟩⟩
  · exact Or.inr ⟨rfl, Or.inr ⟨rfl, h.imp (by omega) (And.imp_left (by omega))⟩⟩

theorem toCivil_before (h : s < t) : s.toCivil.Before t.toCivil := by
  have hs := s.nanos_lt
  have ht := t.nanos_lt
  rw [lt_def] at h
  rcases Int.lt_trichotomy (s.second / 86400) (t.second / 86400) with hday | hday | hday
  · exact Or.inl (Date.ofDays_before hday)
  · refine Or.inr ⟨congrArg Date.ofDays hday, clock_lt ?_ ?_⟩
    · simp only [toCivil]
      split <;> split <;> omega
    · split <;> omega
  · omega

theorem lt_or_eq_or_lt (s t : Instant) : s < t ∨ s = t ∨ t < s := by
  simp only [lt_def, Instant.ext_iff]
  omega

/-- Stored texts come in the order of the instants, up to the last plain year. -/
theorem storedText_lt_iff (hs : s.HasPlainYear) (ht : t.HasPlainYear) :
    s.storedText < t.storedText ↔ s < t := by
  have hlt : ∀ {a b : Instant}, a.HasPlainYear → b.HasPlainYear → a < b →
      a.storedText < b.storedText := fun ha hb h =>
    CivilTime.text_lt_text (regular_toCivil _) (regular_toCivil _) ha hb (toCivil_before h)
  constructor
  · intro h
    rcases lt_or_eq_or_lt s t with hst | rfl | hst
    · exact hst
    · exact absurd h (lt_irrefl _)
    · exact absurd h (lt_asymm (hlt ht hs hst))
  · exact hlt hs ht

/-- A stored text is the text of one instant only, whatever the year. -/
theorem storedText_inj : s.storedText = t.storedText ↔ s = t := by
  constructor
  · intro h
    have hread := Stamp.readStored?_storedText s
    rw [h, Stamp.readStored?_storedText t] at hread
    exact (Option.some.inj hread).symm
  · exact congrArg storedText

end Instant

end MentalMath
