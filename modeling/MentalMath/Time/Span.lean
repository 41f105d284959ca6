import MentalMath.Fault
import MentalMath.Text.Numeral

/-! Lengths of time in nanoseconds, positive or negative, of at most 2^63 - 1 milliseconds either
way. The display and the summaries show a negative one as zero, and cut off all digits that they do
not show. -/

namespace MentalMath

/-- A length of time. -/
structure Span where
  nanos : Int
  /-- The length is at most 2^63 - 1 milliseconds either way. -/
  inRange : -9223372036854775807000000 ≤ nanos ∧ nanos ≤ 9223372036854775807000000
  deriving DecidableEq, Repr

namespace Span

@[ext]
theorem ext {a b : Span} (h : a.nanos = b.nanos) : a = b := by
  cases a; cases b; cases h; rfl

/-- The span of `n` nanoseconds, if there is one. -/
def ofNanos? (n : Int) : Option Span :=
  if h : -9223372036854775807000000 ≤ n ∧ n ≤ 9223372036854775807000000 then some ⟨n, h⟩ else none

/-- The span of `ms` milliseconds, if there is one. -/
def ofMillis? (ms : Int) : Option Span :=
  ofNanos? (ms * 1000000)

def zero : Span := ⟨0, by decide⟩

instance : Inhabited Span := ⟨zero⟩

/-- The span of `s` seconds, for the spans of a day or less that are written out in the library. -/
def ofSeconds (s : Nat) (h : s ≤ 86400) : Span :=
  ⟨s * 1000000000, by omega⟩

/-- The span of `d` days, for windows of at most a year. -/
def ofDays (d : Nat) (h : d ≤ 366) : Span :=
  ⟨d * 86400000000000, by omega⟩

instance : LT Span := ⟨fun a b => a.nanos < b.nanos⟩

instance : LE Span := ⟨fun a b => a.nanos ≤ b.nanos⟩

instance (a b : Span) : Decidable (a < b) := inferInstanceAs (Decidable (a.nanos < b.nanos))

instance (a b : Span) : Decidable (a ≤ b) := inferInstanceAs (Decidable (a.nanos ≤ b.nanos))

def add (a b : Span) : Checked Span :=
  match ofNanos? (a.nanos + b.nanos) with
  | some s => .ok s
  | none => .error .spanSum

def sub (a b : Span) : Checked Span :=
  match ofNanos? (a.nanos - b.nanos) with
  | some s => .ok s
  | none => .error .spanDifference

/-- The span itself, or the empty span in place of a negative one. -/
def nonneg (a : Span) : Span :=
  ⟨max a.nanos 0, by have := a.inRange; omega⟩

@[simp]
theorem nonneg_nanos (a : Span) : a.nonneg.nanos = max a.nanos 0 := rfl

/-- The whole milliseconds of a span, cut toward zero. -/
def wholeMillis (a : Span) : Int :=
  a.nanos.tdiv 1000000

/-- The whole seconds of a span, cut toward zero. -/
def wholeSeconds (a : Span) : Int :=
  a.nanos.tdiv 1000000000

/-- The nanoseconds of the `k`-th part of a span of `n` nanoseconds. Whole seconds and the
nanoseconds past them are divided one by one, each cut toward zero; what is left of the seconds is
divided as nanoseconds. -/
def partNanos (n : Int) (k : Nat) : Int :=
  (n / 1000000000).tdiv k * 1000000000 + (n % 1000000000).tdiv k
    + ((n / 1000000000).tmod k * 1000000000).tdiv k

theorem tdiv_split_of_nonneg {s f k : Int} (hk : 0 < k) (hs : 0 ≤ s) (hf : 0 ≤ f) :
    0 ≤ s.tdiv k * 1000000000 + f.tdiv k + (s.tmod k * 1000000000).tdiv k ∧
      s.tdiv k * 1000000000 + f.tdiv k + (s.tmod k * 1000000000).tdiv k
        ≤ s * 1000000000 + f := by
  have hc : 0 ≤ s.tmod k := Int.tmod_nonneg _ hs
  have he : 0 ≤ s.tmod k * 1000000000 := by omega
  rw [Int.tdiv_eq_ediv_of_nonneg hs, Int.tdiv_eq_ediv_of_nonneg hf,
    Int.tdiv_eq_ediv_of_nonneg he]
  have hq := Int.ediv_nonneg hs (Int.le_of_lt hk)
  have hg := Int.ediv_nonneg hf (Int.le_of_lt hk)
  have hg' := Int.ediv_le_self k hf
  have hn := Int.ediv_nonneg he (Int.le_of_lt hk)
  have hn' := Int.ediv_le_self k he
  have hsplit := Int.mul_tdiv_add_tmod s k
  rw [Int.tdiv_eq_ediv_of_nonneg hs] at hsplit
  have hqk : s / k ≤ k * (s / k) := by
    have := Int.mul_le_mul_of_nonneg_right (show (1 : Int) ≤ k by omega) hq
    omega
  omega

theorem tdiv_split_of_neg {t f k : Int} (hk : 0 < k) (ht : 0 < t) (hf : 0 ≤ f)
    (hf' : f < 1000000000) :
    t.tdiv k * 1000000000 + (t.tmod k * 1000000000).tdiv k - f.tdiv k ≤ t * 1000000000 - f := by
  have hs : 0 ≤ t := Int.le_of_lt ht
  have hc : 0 ≤ t.tmod k := Int.tmod_nonneg _ hs
  have he : 0 ≤ t.tmod k * 1000000000 := by omega
  have hsplit := Int.mul_tdiv_add_tmod t k
  rw [Int.tdiv_eq_ediv_of_nonneg hs] at hsplit ⊢
  rw [Int.tdiv_eq_ediv_of_nonneg hf, Int.tdiv_eq_ediv_of_nonneg he]
  have h1 : k * (t.tmod k * 1000000000 / k) ≤ t.tmod k * 1000000000 :=
    Int.mul_ediv_self_le (Int.ne_of_gt hk)
  have h2 : f < k * (f / k) + k := Int.lt_mul_ediv_self_add hk
  generalize t.tmod k = c at *
  generalize c * 1000000000 / k = e at *
  generalize f / k = g at *
  generalize t / k = q at *
  have h3 : 0 ≤ (k - 1) * (t * 1000000000 - f - 1) :=
    Int.mul_nonneg (by omega) (by omega)
  have h4 : 0 ≤ k * (t * 1000000000 - f - (q * 1000000000 + e - g)) := by
    have e1 : k * (t * 1000000000 - f - (q * 1000000000 + e - g)) =
        k * t * 1000000000 - k * f - (k * q * 1000000000 + k * e - k * g) := by
      simp only [Int.mul_sub, Int.mul_add, Int.mul_assoc]
    have e2 : (k - 1) * (t * 1000000000 - f - 1) =
        k * t * 1000000000 - k * f - k - (t * 1000000000 - f - 1) := by
      simp only [Int.sub_mul, Int.mul_sub, Int.mul_assoc, Int.one_mul, Int.mul_one]
      omega
    rw [e1]
    rw [e2] at h3
    omega
  have h5 : 0 ≤ t * 1000000000 - f - (q * 1000000000 + e - g) := by
    rcases Int.lt_or_le (t * 1000000000 - f - (q * 1000000000 + e - g)) 0 with h | h
    · have := Int.mul_neg_of_pos_of_neg hk h
      omega
    · exact h
  omega

/-- A part lies between the number and zero, up to the rounding of the nanoseconds past the whole
seconds. -/
theorem partNanos_bounds (n : Int) {k : Nat} (hk : 0 < k) :
    min n 0 ≤ partNanos n k ∧ partNanos n k ≤ max n 999999999 := by
  have hk' : (0 : Int) < k := by omega
  have hf : 0 ≤ n % 1000000000 := Int.emod_nonneg _ (by decide)
  have hf' : n % 1000000000 < 1000000000 := Int.emod_lt_of_pos _ (by decide)
  have hn : n = n / 1000000000 * 1000000000 + n % 1000000000 := by omega
  rcases Int.lt_or_le (n / 1000000000) 0 with h | h
  · have h1 := tdiv_split_of_neg hk' (t := -(n / 1000000000)) (by omega) hf hf'
    simp only [Int.neg_tdiv, Int.neg_tmod, Int.neg_mul] at h1
    have hs : 0 ≤ -(n / 1000000000) := by omega
    have h2 : (n / 1000000000).tdiv k ≤ 0 := by
      have := Int.tdiv_nonneg hs (Int.le_of_lt hk')
      rw [Int.neg_tdiv] at this
      omega
    have h3 : ((n / 1000000000).tmod k * 1000000000).tdiv k ≤ 0 := by
      have h0 := Int.tmod_nonneg (k : Int) hs
      rw [Int.neg_tmod] at h0
      have := Int.tdiv_nonneg (show 0 ≤ -((n / 1000000000).tmod k * 1000000000) by omega)
        (Int.le_of_lt hk')
      rw [Int.neg_tdiv] at this
      omega
    have h4 : (n % 1000000000).tdiv k ≤ n % 1000000000 := by
      rw [Int.tdiv_eq_ediv_of_nonneg hf]
      exact Int.ediv_le_self _ hf
    simp only [partNanos]
    omega
  · have h1 := tdiv_split_of_nonneg hk' h hf
    simp only [partNanos]
    omega

/-- The `k`-th part of a span, for a positive `k`. -/
def divide (a : Span) (k : Nat) (hk : 0 < k) : Span :=
  ⟨partNanos a.nanos k, by
    have h := partNanos_bounds a.nanos hk
    have := a.inRange
    omega⟩

def tenths (d : Span) : Nat :=
  d.wholeMillis.toNat / 100

/-- Minutes, seconds and tenths, as a running clock shows them. -/
def clockText (d : Span) : String :=
  toString (d.tenths / 600) ++ ":" ++ Text.zeroPadded 2 (d.tenths / 10 % 60) ++ "."
    ++ toString (d.tenths % 10)

/-- Minutes and seconds, or seconds and tenths below a minute. -/
def summaryText (d : Span) : String :=
  let seconds := d.wholeSeconds.toNat
  if 60 ≤ seconds then
    toString (seconds / 60) ++ "m " ++ Text.zeroPadded 2 (seconds % 60) ++ "s"
  else toString (d.tenths / 10) ++ "." ++ toString (d.tenths % 10) ++ "s"

end Span

end MentalMath
