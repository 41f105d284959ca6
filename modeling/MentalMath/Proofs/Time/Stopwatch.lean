import MentalMath.Time.Stopwatch

/-! What a stopwatch measures while the time does not go back. Outside of leap seconds, the measured
time grows with the clock while the stopwatch runs and stands while it is paused. With leap seconds
too, its arithmetic never leaves the range of spans. -/

namespace MentalMath

namespace Instant

theorem le_refl (t : Instant) : t ≤ t :=
  Or.inr ⟨rfl, Nat.le_refl _⟩

theorem le_trans {a b c : Instant} (hab : a ≤ b) (hbc : b ≤ c) : a ≤ c := by
  rw [le_def] at hab hbc ⊢
  omega

theorem not_lt_of_le {a b : Instant} (h : a ≤ b) : ¬b < a := by
  rw [le_def] at h
  rw [lt_def]
  omega

theorem le_of_not_lt {a b : Instant} (h : ¬b < a) : a ≤ b := by
  rw [lt_def] at h
  rw [le_def]
  omega

/-- An instant in a leap second has the count of one in the second after it, so only from a regular
instant on does the count follow the order. -/
theorem count_le_of_le {a b : Instant} (h : a ≤ b) (ha : a.Regular) : a.count ≤ b.count := by
  rw [le_def] at h
  unfold Regular at ha
  simp only [count]
  omega

theorem leapSeconds_of_second_eq {a b : Instant} (h : a.second = b.second) :
    a.leapSeconds b = 0 := by
  have hday : a.ofDay = b.ofDay := congrArg (· % 86400) h
  rw [leapSeconds, hday, if_neg fun h => Int.lt_irrefl _ h.1, if_neg fun h => Int.lt_irrefl _ h.1]

/-- A leap second is left out of a span only if the span goes back over midnight. -/
theorem since_nonneg_of_le {a b : Instant} (h : a ≤ b) (ha : a.Regular) :
    0 ≤ (b.since a).nanos := by
  have hcount := count_le_of_le h ha
  rw [since_nanos, leapSeconds, if_neg fun h => h.2 ha]
  split
  case isFalse => omega
  case isTrue hleap =>
    -- at an earlier time of day, the later instant is of a later day
    obtain ⟨hday, hb⟩ := hleap
    simp only [ofDay] at hday
    simp only [Regular] at ha hb
    rw [le_def] at h
    simp only [count]
    omega

/-- The nanoseconds since the start of 1970 if every second went on into a leap second. They follow
the order of all instants. -/
def stretched (t : Instant) : Int :=
  t.second * 2000000000 + t.nanos

theorem stretched_bounds (t : Instant) :
    -16669202457600000000000 ≤ t.stretched ∧ t.stretched ≤ 16420533753600000000000 := by
  have hrange := t.inRange
  have hnanos := t.nanos_lt
  simp only [stretched]
  omega

theorem since_le_stretched {a b : Instant} (h : a ≤ b) :
    max (b.since a).nanos 0 ≤ b.stretched - a.stretched := by
  have ha := a.nanos_lt
  have hb := b.nanos_lt
  have hleap := b.leapSeconds_bounds a
  rw [since_nanos]
  simp only [count, stretched]
  rcases le_def.mp h with hlt | ⟨heq, hle⟩
  · omega
  · rw [leapSeconds_of_second_eq heq.symm]
    omega

theorem since_bounds (a b : Instant) :
    -16544868105678000000000 ≤ (a.since b).nanos ∧
      (a.since b).nanos ≤ 16544868105678000000000 := by
  have ha := a.count_bounds
  have hb := b.count_bounds
  have hleap := a.leapSeconds_bounds b
  rw [since_nanos]
  omega

/-- Half a second into the leap second at the end of 2016. -/
def inLeapSecond : Instant := ⟨1483228799, 1500000000, by decide, by decide⟩

/-- The first fifth of a second of 2017, seven tenths of a second later. Its count is the smaller
one. -/
def afterLeapSecond : Instant := ⟨1483228800, 200000000, by decide, by decide⟩

end Instant

namespace Span

theorem add_eq_ok {a b : Span}
    (h : -9223372036854775807000000 ≤ a.nanos + b.nanos ∧
      a.nanos + b.nanos ≤ 9223372036854775807000000) :
    a.add b = .ok ⟨a.nanos + b.nanos, h⟩ := by
  simp [add, ofNanos?, h]

theorem sub_eq_ok {a b : Span}
    (h : -9223372036854775807000000 ≤ a.nanos - b.nanos ∧
      a.nanos - b.nanos ≤ 9223372036854775807000000) :
    a.sub b = .ok ⟨a.nanos - b.nanos, h⟩ := by
  simp [sub, ofNanos?, h]

theorem nanos_of_ofNanos? {n : Int} {c : Span} (h : ofNanos? n = some c) : c.nanos = n := by
  unfold ofNanos? at h
  split at h
  · cases h
    rfl
  · cases h

theorem nanos_of_add {a b c : Span} (h : a.add b = .ok c) : c.nanos = a.nanos + b.nanos := by
  unfold add at h
  split at h
  · next hc =>
    cases h
    exact nanos_of_ofNanos? hc
  · cases h

theorem nanos_of_sub {a b c : Span} (h : a.sub b = .ok c) : c.nanos = a.nanos - b.nanos := by
  unfold sub at h
  split at h
  · next hc =>
    cases h
    exact nanos_of_ofNanos? hc
  · cases h

end Span

namespace Stopwatch

/-- The count of nanoseconds at which the stopwatch would have been started without its pauses. -/
def base (w : Stopwatch) : Int :=
  w.startedAt.count + w.pausedTotal.nanos

/-- The nanoseconds from the base to an instant, or to the pause that has begun. -/
def activeNanos (w : Stopwatch) (now : Instant) : Int :=
  match w.phase with
  | .running => now.count - w.base
  | .paused since => since.count - w.base

/-- Up to an instant, the calls of a stopwatch came at times that do not go back, none in a leap
second. -/
structure Timed (w : Stopwatch) (last : Instant) : Prop where
  pausedTotal : 0 ≤ w.pausedTotal.nanos
  regular : w.startedAt.Regular ∧ last.Regular
  base : w.base ≤ last.count
  paused : ∀ since, w.phase = .paused since →
    since.Regular ∧ w.base ≤ since.count ∧ since.count ≤ last.count

variable {w : Stopwatch} {last now since : Instant}

theorem timed_start (hnow : now.Regular) : (start now).Timed now :=
  ⟨Int.le_refl 0, ⟨hnow, hnow⟩, by simp [Stopwatch.base, start, Span.zero], fun _ h => nomatch h⟩

theorem activeNanos_start (now : Instant) : (start now).activeNanos now = 0 := by
  simp [activeNanos, Stopwatch.base, start, Span.zero]

theorem activeNanos_of_running (h : w.phase = .running) (now : Instant) :
    w.activeNanos now = now.count - w.base := by
  simp only [activeNanos, h]

theorem activeNanos_of_paused (h : w.phase = .paused since) (now : Instant) :
    w.activeNanos now = since.count - w.base := by
  simp only [activeNanos, h]

/-- Two stopwatches that run together, or stand since the same instant, differ by their bases. -/
theorem activeNanos_add_base {v : Stopwatch} (h : v.phase = w.phase) (now : Instant) :
    v.activeNanos now + v.base = w.activeNanos now + w.base := by
  cases hw : w.phase with
  | running =>
    rw [activeNanos_of_running hw, activeNanos_of_running (h.trans hw)]
    omega
  | paused since =>
    rw [activeNanos_of_paused hw, activeNanos_of_paused (h.trans hw)]
    omega

theorem Timed.later (h : w.Timed last) (hn : last ≤ now) (hnow : now.Regular) : w.Timed now := by
  have hcount := Instant.count_le_of_le hn h.regular.2
  refine ⟨h.pausedTotal, ⟨h.regular.1, hnow⟩, Int.le_trans h.base hcount, fun since hs => ?_⟩
  obtain ⟨hregular, hb, hl⟩ := h.paused since hs
  exact ⟨hregular, hb, Int.le_trans hl hcount⟩

theorem ongoingPause_nonneg (w : Stopwatch) (now : Instant) : 0 ≤ (w.ongoingPause now).nanos := by
  unfold ongoingPause
  split
  · exact Int.le_refl 0
  · rw [Span.nonneg_nanos]
    omega

/-- The measured time is the time from the base, with no fault on the way. -/
theorem Timed.elapsed (h : w.Timed now) :
    ∃ d, w.elapsed now = .ok d ∧ d.nanos = w.activeNanos now := by
  have hp := h.pausedTotal
  have hb := h.base
  have hnow := now.count_bounds
  have hstart := w.startedAt.count_bounds
  have hsince := Instant.since_nanos_of_regular h.regular.2 h.regular.1
  simp only [Stopwatch.base] at hb
  have hawake : -9223372036854775807000000 ≤ (now.since w.startedAt).nanos - w.pausedTotal.nanos ∧
      (now.since w.startedAt).nanos - w.pausedTotal.nanos ≤ 9223372036854775807000000 := by
    omega
  unfold Stopwatch.elapsed
  rw [Span.sub_eq_ok hawake]
  cases hph : w.phase with
  | running =>
    refine ⟨_, by
      simp only [bind, Except.bind, ongoingPause, hph]
      rw [Span.sub_eq_ok (by simp [Span.zero]; omega)]
      rfl, ?_⟩
    simp [activeNanos, hph, Span.zero, Stopwatch.base]
    omega
  | paused since =>
    obtain ⟨hregular, hs, hs'⟩ := h.paused since hph
    have hpause := Instant.since_nanos_of_regular h.regular.2 hregular
    simp only [Stopwatch.base] at hs
    refine ⟨_, by
      simp only [bind, Except.bind, ongoingPause, hph]
      rw [Span.sub_eq_ok (by simp; omega)]
      rfl, ?_⟩
    simp [activeNanos, hph, Stopwatch.base]
    omega

/-- The measured time of a paused stopwatch stands. -/
theorem Timed.elapsed_of_paused (h : w.Timed now) {later : Instant} (h' : w.Timed later)
    (hs : w.phase = .paused since) : w.elapsed later = w.elapsed now := by
  obtain ⟨d, hd, hn⟩ := h.elapsed
  obtain ⟨d', hd', hn'⟩ := h'.elapsed
  have heq : d' = d := by
    apply Span.ext
    rw [hn, hn', activeNanos_of_paused hs, activeNanos_of_paused hs]
  rw [hd, hd', heq]

/-- Pausing a stopwatch that runs keeps what it has measured. -/
theorem Timed.pause (h : w.Timed now) (hr : w.phase = .running) :
    (w.pause now).2.Timed now ∧ (w.pause now).2.phase = .paused now ∧
      (w.pause now).2.base = w.base ∧ (w.pause now).2.activeNanos now = w.activeNanos now := by
  have hw : (w.pause now).2 = { w with phase := .paused now } := by
    simp only [Stopwatch.pause, hr]
  rw [hw, activeNanos_of_running hr]
  exact ⟨⟨h.pausedTotal, h.regular, h.base, fun _ hs => by
    cases hs
    exact ⟨h.regular.2, h.base, Int.le_refl _⟩⟩, rfl, rfl, rfl⟩

/-- Letting a paused stopwatch go on moves its base by the pause, with no fault, and keeps what it
has measured. -/
theorem Timed.resume (h : w.Timed now) (hs : w.phase = .paused since) :
    ∃ w', w.resume now = .ok (some (now.since since), w') ∧ w'.Timed now ∧ w'.phase = .running ∧
      w'.base = w.base + (now.count - since.count) ∧ w'.activeNanos now = w.activeNanos now := by
  obtain ⟨hregular, hb, hl⟩ := h.paused since hs
  have hp := h.pausedTotal
  have hnow := now.count_bounds
  have hstart := w.startedAt.count_bounds
  have hsince := Instant.since_nanos_of_regular h.regular.2 hregular
  simp only [Stopwatch.base] at hb
  have hlength : (now.since since).nonneg = now.since since :=
    Span.ext (by rw [Span.nonneg_nanos, hsince]; omega)
  have hsum : -9223372036854775807000000 ≤ w.pausedTotal.nanos + (now.since since).nanos ∧
      w.pausedTotal.nanos + (now.since since).nanos ≤ 9223372036854775807000000 := by
    omega
  have hw : w.resume now = .ok (some (now.since since),
      { w with pausedTotal := ⟨_, hsum⟩, phase := .running }) := by
    simp only [Stopwatch.resume, hs, hlength, bind, Except.bind]
    rw [Span.add_eq_ok hsum]
    rfl
  refine ⟨_, hw, ⟨?_, h.regular, ?_, fun _ h => nomatch h⟩, rfl, ?_, ?_⟩
  · simp only [hsince]
    omega
  · simp only [Stopwatch.base, hsince]
    omega
  · simp only [Stopwatch.base, hsince]
    omega
  · rw [activeNanos_of_paused hs]
    simp only [activeNanos, Stopwatch.base, hsince]
    omega

/-! ### Times that do not go back, leap seconds included -/

/-- Up to an instant, the calls of a stopwatch came in the order of their times, so that its pauses
are no longer than the calendar. -/
structure Ordered (w : Stopwatch) (last : Instant) : Prop where
  pausedTotal : 0 ≤ w.pausedTotal.nanos ∧
    w.pausedTotal.nanos ≤ last.stretched - w.startedAt.stretched
  paused : ∀ since, w.phase = .paused since → since ≤ last ∧
    w.pausedTotal.nanos ≤ since.stretched - w.startedAt.stretched

theorem ordered_start (now : Instant) : (start now).Ordered now := by
  refine ⟨⟨Int.le_refl 0, ?_⟩, fun since hs => nomatch hs⟩
  simp only [start, Span.zero]
  omega

theorem Ordered.later (h : w.Ordered last) (hn : last ≤ now) : w.Ordered now := by
  have hpauses := h.pausedTotal
  have hle := Instant.since_le_stretched hn
  refine ⟨⟨hpauses.1, by omega⟩, fun since hs => ?_⟩
  obtain ⟨hsince, hsum⟩ := h.paused since hs
  exact ⟨Instant.le_trans hsince hn, hsum⟩

/-- Reading the measured time never faults. -/
theorem Ordered.elapsed (h : w.Ordered last) (now : Instant) : ∃ d, w.elapsed now = .ok d := by
  obtain ⟨hp, hp'⟩ := h.pausedTotal
  have hlast := last.stretched_bounds
  have hstart := w.startedAt.stretched_bounds
  have hsince := now.since_bounds w.startedAt
  have hongoing : (w.ongoingPause now).nanos ≤ 16544868105678000000000 := by
    cases hph : w.phase with
    | running =>
      simp only [ongoingPause, hph, Span.zero]
      omega
    | paused since =>
      have hpause := now.since_bounds since
      simp only [ongoingPause, hph, Span.nonneg_nanos]
      omega
  have hongoing' := w.ongoingPause_nonneg now
  have hawake : -9223372036854775807000000 ≤ (now.since w.startedAt).nanos - w.pausedTotal.nanos ∧
      (now.since w.startedAt).nanos - w.pausedTotal.nanos ≤ 9223372036854775807000000 := by
    omega
  have hactive : -9223372036854775807000000 ≤
        (now.since w.startedAt).nanos - w.pausedTotal.nanos - (w.ongoingPause now).nanos ∧
      (now.since w.startedAt).nanos - w.pausedTotal.nanos - (w.ongoingPause now).nanos ≤
        9223372036854775807000000 := by
    omega
  refine ⟨Span.nonneg ⟨_, hactive⟩, ?_⟩
  unfold Stopwatch.elapsed
  rw [Span.sub_eq_ok hawake]
  simp only [bind, Except.bind]
  rw [Span.sub_eq_ok hactive]
  rfl

theorem Ordered.pause (h : w.Ordered now) : (w.pause now).2.Ordered now := by
  cases hph : w.phase with
  | running =>
    simp only [Stopwatch.pause, hph]
    refine ⟨h.pausedTotal, fun since hs => ?_⟩
    cases hs
    exact ⟨Instant.le_refl now, h.pausedTotal.2⟩
  | paused since =>
    simp only [Stopwatch.pause, hph]
    exact h

/-- Letting a stopwatch go on never faults. -/
theorem Ordered.resume (h : w.Ordered now) :
    ∃ pause w', w.resume now = .ok (pause, w') ∧ w'.Ordered now := by
  cases hph : w.phase with
  | running => exact ⟨none, w, by simp only [Stopwatch.resume, hph], h⟩
  | paused since =>
    obtain ⟨hsince, hsum⟩ := h.paused since hph
    have hp := h.pausedTotal.1
    have hle := Instant.since_le_stretched hsince
    have hnow := now.stretched_bounds
    have hstart := w.startedAt.stretched_bounds
    have htotal : -9223372036854775807000000 ≤
          w.pausedTotal.nanos + (now.since since).nonneg.nanos ∧
        w.pausedTotal.nanos + (now.since since).nonneg.nanos ≤ 9223372036854775807000000 := by
      rw [Span.nonneg_nanos]
      omega
    refine ⟨some (now.since since).nonneg,
      { w with pausedTotal := ⟨_, htotal⟩, phase := .running }, ?_, ⟨?_, fun _ hs => nomatch hs⟩⟩
    · simp only [Stopwatch.resume, hph, bind, Except.bind]
      rw [Span.add_eq_ok htotal]
      rfl
    · simp only [Span.nonneg_nanos]
      omega

/-! ### Times in any order -/

/-- Whatever the times, what is measured lies between zero and the time since the start. -/
theorem elapsed_bounds {d : Span} (hw : 0 ≤ w.pausedTotal.nanos) (h : w.elapsed now = .ok d) :
    0 ≤ d.nanos ∧ d.nanos ≤ max (now.since w.startedAt).nanos 0 := by
  obtain ⟨awake, ha, h⟩ := Checked.bind_eq_ok.mp h
  obtain ⟨active, hb, h⟩ := Checked.bind_eq_ok.mp h
  cases h
  have hawake := Span.nanos_of_sub ha
  have hactive := Span.nanos_of_sub hb
  have hpause := w.ongoingPause_nonneg now
  rw [Span.nonneg_nanos]
  omega

/-- Pausing a stopwatch touches neither its start nor the pauses that have ended. -/
theorem pause_snd (w : Stopwatch) (now : Instant) :
    (w.pause now).2.startedAt = w.startedAt ∧ (w.pause now).2.pausedTotal = w.pausedTotal := by
  unfold pause
  split <;> exact ⟨rfl, rfl⟩

/-- Whatever the times, a stopwatch that goes on keeps its start and has not lost any pause. -/
theorem resume_snd {p : Option Span} {w' : Stopwatch} (h : w.resume now = .ok (p, w')) :
    w'.startedAt = w.startedAt ∧ w.pausedTotal.nanos ≤ w'.pausedTotal.nanos ∧
      w'.phase = .running := by
  unfold resume at h
  split at h
  case h_1 hr =>
    cases h
    exact ⟨rfl, Int.le_refl _, hr⟩
  case h_2 since hs =>
    obtain ⟨total, ha, h⟩ := Checked.bind_eq_ok.mp h
    cases h
    have htotal := Span.nanos_of_add ha
    rw [Span.nonneg_nanos] at htotal
    have hle : w.pausedTotal.nanos ≤ total.nanos := by omega
    exact ⟨rfl, hle, rfl⟩

/-- What is told at the end of a pause is its length. -/
theorem length_of_resume {length : Option Span} {w' : Stopwatch} (hphase : w.phase = .paused since)
    (h : w.resume now = .ok (length, w')) : length = some (now.since since).nonneg := by
  simp only [Stopwatch.resume, hphase] at h
  obtain ⟨total, -, h⟩ := Checked.bind_eq_ok.mp h
  cases h
  rfl

theorem isPaused_eq_false_iff : w.isPaused = false ↔ w.phase = .running := by
  cases h : w.phase <;> simp [isPaused, h]

theorem isPaused_eq_true_iff : w.isPaused = true ↔ ∃ since, w.phase = .paused since := by
  cases h : w.phase <;> simp [isPaused, h]

end Stopwatch

end MentalMath
