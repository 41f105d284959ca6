import Mathlib.Data.List.DropRight
import MentalMath.Proofs.Time.Stopwatch

/-! What a stopwatch measures over any calls, redundant ones included: the number of nanoseconds at
which it ran. Whether it ran at a nanosecond is read off the calls made up to then, without the
stopwatch, and so is when the pause began that they leave it in. -/

namespace MentalMath

namespace Stopwatch

/-- A call that stops a stopwatch or lets it go on. -/
inductive Press where
  | pause (now : Instant)
  | resume (now : Instant)
  deriving DecidableEq, Repr

namespace Press

def time : Press → Instant
  | .pause now => now
  | .resume now => now

/-- Whether the call is to stop the stopwatch. -/
def stops : Press → Bool
  | .pause _ => true
  | .resume _ => false

end Press

def press (w : Stopwatch) : Press → Checked Stopwatch
  | .pause now => .ok (w.pause now).2
  | .resume now => do return (← w.resume now).2

def follow (w : Stopwatch) (presses : List Press) : Checked Stopwatch :=
  presses.foldlM press w

/-! ### What the calls say -/

/-- Whether a stopwatch runs after some calls: it does unless the last of them was to stop it. -/
def runsAfter (presses : List Press) : Bool :=
  presses.getLast?.all fun p => !p.stops

/-- Whether a stopwatch runs at a nanosecond, after the calls up to then. -/
def runsAt (presses : List Press) (n : Int) : Bool :=
  runsAfter (presses.filter fun p => p.time.count ≤ n)

/-- The number of nanoseconds between two instants at which a stopwatch runs. -/
def runningNanos (presses : List Press) (start now : Instant) : Nat :=
  (List.range (now.count - start.count).toNat).countP fun n : Nat =>
    runsAt presses (start.count + n)

/-- When the pause began that some calls leave a stopwatch in: at the first of the calls to stop it
that no call to go on came after. -/
def pauseBegin? (presses : List Press) : Option Instant :=
  (presses.rtakeWhile Press.stops).head?.map Press.time

section Calls

variable {past : List Press} {p : Press} {start now : Instant}

theorem runsAfter_concat (past : List Press) (p : Press) : runsAfter (past ++ [p]) = !p.stops := by
  simp [runsAfter]

theorem pauseBegin?_pause (past : List Press) (now : Instant) :
    pauseBegin? (past ++ [.pause now]) = some ((pauseBegin? past).getD now) := by
  rw [pauseBegin?, List.rtakeWhile_concat_pos _ _ _ rfl, List.head?_append, pauseBegin?]
  cases (past.rtakeWhile Press.stops).head? with
  | none => rfl
  | some p => rfl

theorem pauseBegin?_resume (past : List Press) (now : Instant) :
    pauseBegin? (past ++ [.resume now]) = none := by
  rw [pauseBegin?, List.rtakeWhile_concat_neg _ _ _ Bool.false_ne_true]
  rfl

/-- A stopwatch runs exactly while it is in no pause. -/
theorem runsAfter_eq (past : List Press) : runsAfter past = (pauseBegin? past).isNone := by
  induction past using List.reverseRecOn with
  | nil => rfl
  | append_singleton past p _ =>
    rw [runsAfter_concat]
    cases p with
    | pause now => rw [pauseBegin?_pause]; rfl
    | resume now => rw [pauseBegin?_resume]; rfl

/-- Once all calls were made, the last one says whether the stopwatch runs. -/
theorem runsAt_of_le {n : Int} (h : ∀ p ∈ past, p.time.count ≤ n) :
    runsAt past n = runsAfter past := by
  rw [runsAt, List.filter_eq_self.mpr fun p hp => decide_eq_true (h p hp)]

theorem runsAt_concat_of_lt {n : Int} (h : n < p.time.count) :
    runsAt (past ++ [p]) n = runsAt past n := by
  rw [runsAt, List.filter_append, List.filter_singleton]
  simp [runsAt, Int.not_le.mpr h]

/-- Until a call, it makes no difference. -/
theorem runningNanos_concat (past : List Press) (start : Instant)
    (h : now.count ≤ p.time.count) :
    runningNanos (past ++ [p]) start now = runningNanos past start now := by
  refine List.countP_congr fun n hn => ?_
  have hn := List.mem_range.mp hn
  rw [runsAt_concat_of_lt (by omega)]

/-- Once all calls were made, the stopwatch runs at each nanosecond or at none. -/
theorem runningNanos_later {later : Instant} (h : ∀ p ∈ past, p.time.count ≤ now.count)
    (hstart : start.count ≤ now.count) (hnow : now.count ≤ later.count) :
    (runningNanos past start later : Int) = runningNanos past start now +
      if runsAfter past then later.count - now.count else 0 := by
  have hsplit : (later.count - start.count).toNat =
      (now.count - start.count).toNat + (later.count - now.count).toNat := by
    omega
  have hsame : ∀ n : Nat, runsAt past (start.count +
      ((now.count - start.count).toNat + n : Nat)) = runsAfter past := by
    intro n
    refine runsAt_of_le fun p hp => ?_
    have hp := h p hp
    omega
  rw [runningNanos, hsplit, List.range_add, List.countP_append, List.countP_map, ← runningNanos,
    show (fun n : Nat => runsAt past (start.count + n)) ∘ ((now.count - start.count).toNat + ·) =
      fun _ => runsAfter past from funext hsame]
  cases runsAfter past with
  | true =>
    rw [List.countP_true, List.length_range, if_pos rfl]
    omega
  | false =>
    rw [List.countP_false, if_neg Bool.false_ne_true]
    rfl

end Calls

/-! ### What a stopwatch makes of them -/

/-- The times of the calls, after the start and before an instant. -/
def times (start : Instant) (past : List Press) (now : Instant) : List Instant :=
  start :: (past.map Press.time ++ [now])

/-- Calls in the order of their times, none before the start, up to an instant. -/
def InOrder (start : Instant) (past : List Press) (now : Instant) : Prop :=
  (times start past now).Pairwise (· ≤ ·)

instance (start : Instant) (past : List Press) (now : Instant) :
    Decidable (InOrder start past now) :=
  inferInstanceAs (Decidable (List.Pairwise _ _))

/-- None of the calls, the start and an instant lies in a leap second. -/
def AllRegular (start : Instant) (past : List Press) (now : Instant) : Prop :=
  ∀ time ∈ times start past now, time.Regular

instance (start : Instant) (past : List Press) (now : Instant) :
    Decidable (AllRegular start past now) :=
  inferInstanceAs (Decidable (∀ time ∈ times start past now, time.Regular))

/-- At an instant, a stopwatch is in the pause that its calls left it in. -/
structure Follows (w : Stopwatch) (past : List Press) (now : Instant) : Prop where
  ordered : w.Ordered now
  phase : w.phase = (pauseBegin? past).elim .running .paused

/-- At an instant, a stopwatch has measured the nanoseconds at which it ran. -/
structure Counts (w : Stopwatch) (start : Instant) (past : List Press) (now : Instant) : Prop where
  timed : w.Timed now
  active : w.activeNanos now = runningNanos past start now

variable {start now since : Instant} {past : List Press} {p : Press} {w : Stopwatch}

theorem mem_times {time : Instant} : time ∈ times start past now ↔
    time = start ∨ (∃ p ∈ past, p.time = time) ∨ time = now := by
  simp [times]

theorem InOrder.start_le (h : InOrder start past now) : start ≤ now :=
  (List.pairwise_cons.mp h).1 now (List.mem_append_right _ (List.mem_singleton_self now))

theorem InOrder.le (h : InOrder start past now) : ∀ p ∈ past, p.time ≤ now := by
  obtain ⟨-, -, hlast⟩ := List.pairwise_append.mp (List.pairwise_cons.mp h).2
  exact fun p hp => hlast p.time (List.mem_map_of_mem hp) now (List.mem_singleton_self now)

/-- Without the last call, the others are in order up to its time. -/
theorem InOrder.before (h : InOrder start (past ++ [p]) now) : InOrder start past p.time := by
  have hprefix : times start past p.time <+: times start (past ++ [p]) now := by
    rw [times, times, List.map_append, List.cons_prefix_cons]
    exact ⟨rfl, List.prefix_append _ _⟩
  exact h.sublist hprefix.sublist

theorem AllRegular.before (h : AllRegular start (past ++ [p]) now) : AllRegular start past p.time := by
  intro time htime
  refine h time (mem_times.mpr ?_)
  rcases mem_times.mp htime with rfl | ⟨q, hq, rfl⟩ | rfl
  · exact Or.inl rfl
  · exact Or.inr (Or.inl ⟨q, List.mem_append_left _ hq, rfl⟩)
  · exact Or.inr (Or.inl ⟨p, List.mem_append_right _ (List.mem_singleton_self p), rfl⟩)

theorem AllRegular.first (h : AllRegular start past now) : start.Regular :=
  h start (mem_times.mpr (Or.inl rfl))

theorem AllRegular.last (h : AllRegular start past now) : now.Regular :=
  h now (mem_times.mpr (Or.inr (Or.inr rfl)))

/-- Outside of leap seconds, calls in order are in order by their counts. -/
theorem InOrder.count_le (h : InOrder start past now) (hregular : AllRegular start past now) :
    ∀ p ∈ past, p.time.count ≤ now.count := by
  intro p hp
  have htime : p.time ∈ times start past now := mem_times.mpr (Or.inr (Or.inl ⟨p, hp, rfl⟩))
  exact Instant.count_le_of_le (h.le p hp) (hregular p.time htime)

theorem follows_start (start : Instant) : (Stopwatch.start start).Follows [] start :=
  ⟨ordered_start start, rfl⟩

theorem counts_start (h : start.Regular) : (Stopwatch.start start).Counts start [] start := by
  refine ⟨timed_start h, ?_⟩
  rw [activeNanos_start, runningNanos, Int.sub_self]
  rfl

theorem Follows.later {later : Instant} (h : w.Follows past now) (hnow : now ≤ later) :
    w.Follows past later :=
  ⟨h.ordered.later hnow, h.phase⟩

/-- What a stopwatch measures grows with the clock exactly if it runs. -/
theorem Counts.later {later : Instant} (h : w.Counts start past now) (hfollows : w.Follows past now)
    (hpast : ∀ p ∈ past, p.time.count ≤ now.count) (hstart : start.count ≤ now.count)
    (hnow : now ≤ later) (hlater : later.Regular) : w.Counts start past later := by
  have hcount := Instant.count_le_of_le hnow h.timed.regular.2
  refine ⟨h.timed.later hnow hlater, ?_⟩
  have hphase := hfollows.phase
  rw [runningNanos_later hpast hstart hcount, ← h.active, runsAfter_eq]
  cases hbegin : pauseBegin? past with
  | none =>
    rw [hbegin, Option.elim_none] at hphase
    rw [activeNanos_of_running hphase, activeNanos_of_running hphase, Option.isNone_none, if_pos rfl]
    omega
  | some since =>
    rw [hbegin, Option.elim_some] at hphase
    rw [activeNanos_of_paused hphase, activeNanos_of_paused hphase]
    exact (Int.add_zero _).symm

/-- A call adds nothing to what was measured up to it. -/
theorem Counts.active_concat (h : w.Counts start past p.time) :
    w.activeNanos p.time = runningNanos (past ++ [p]) start p.time := by
  rw [runningNanos_concat past start (Int.le_refl _)]
  exact h.active

/-- A pause that has begun keeps its start. -/
theorem Follows.pause (h : w.Follows past now) (start : Instant) :
    (w.pause now).1 = runsAfter past ∧ (w.pause now).2.Follows (past ++ [.pause now]) now ∧
      (w.Counts start past now → (w.pause now).2.Counts start (past ++ [.pause now]) now) := by
  have hphase := h.phase
  have hordered := h.ordered.pause
  rw [runsAfter_eq]
  cases hbegin : pauseBegin? past with
  | none =>
    rw [hbegin, Option.elim_none] at hphase
    have hpause : w.pause now = (true, { w with phase := .paused now }) := by
      simp only [Stopwatch.pause, hphase]
    refine ⟨by rw [hpause, Option.isNone_none], ⟨hordered, ?_⟩, fun hcounts => ?_⟩
    · rw [hpause, pauseBegin?_pause, hbegin]
      rfl
    · obtain ⟨htimed, -, -, hkeep⟩ := hcounts.timed.pause hphase
      exact ⟨htimed, hkeep.trans (Counts.active_concat (p := .pause now) hcounts)⟩
  | some since =>
    rw [hbegin, Option.elim_some] at hphase
    have hpause : w.pause now = (false, w) := by simp only [Stopwatch.pause, hphase]
    rw [hpause] at hordered ⊢
    refine ⟨rfl, ⟨hordered, ?_⟩, fun hcounts => ⟨hcounts.timed, ?_⟩⟩
    · rw [hphase, pauseBegin?_pause, hbegin]
      rfl
    · exact Counts.active_concat (p := .pause now) hcounts

/-- Going on never faults. It tells the length of the pause that ends, by which the base of the
stopwatch moves. -/
theorem Follows.resume (h : w.Follows past now) (start : Instant) :
    ∃ w', w.resume now = .ok ((pauseBegin? past).map fun since => (now.since since).nonneg, w') ∧
      w'.Follows (past ++ [.resume now]) now ∧
      (w.Counts start past now → w'.Counts start (past ++ [.resume now]) now) := by
  have hphase := h.phase
  obtain ⟨length, w', hresume, hordered⟩ := h.ordered.resume
  cases hbegin : pauseBegin? past with
  | none =>
    rw [hbegin, Option.elim_none] at hphase
    simp only [Stopwatch.resume, hphase] at hresume
    cases hresume
    refine ⟨w, by simp only [Stopwatch.resume, hphase, Option.map_none], ⟨hordered, ?_⟩,
      fun hcounts => ⟨hcounts.timed, ?_⟩⟩
    · rw [hphase, pauseBegin?_resume]
      rfl
    · exact Counts.active_concat (p := .resume now) hcounts
  | some since =>
    rw [hbegin, Option.elim_some] at hphase
    obtain ⟨-, -, hrunning⟩ := resume_snd hresume
    have hlength := length_of_resume hphase hresume
    refine ⟨w', by rw [hresume, hlength, Option.map_some], ⟨hordered, ?_⟩, fun hcounts => ?_⟩
    · rw [hrunning, pauseBegin?_resume]
      rfl
    · obtain ⟨w₁, hresume₁, htimed, -, -, hkeep⟩ := hcounts.timed.resume hphase
      cases hresume.symm.trans hresume₁
      exact ⟨htimed, hkeep.trans (Counts.active_concat (p := .resume now) hcounts)⟩

/-- A call never faults. -/
theorem Follows.press (h : w.Follows past p.time) (start : Instant) :
    ∃ w', w.press p = .ok w' ∧ w'.Follows (past ++ [p]) p.time ∧
      (w.Counts start past p.time → w'.Counts start (past ++ [p]) p.time) := by
  cases p with
  | pause now => exact ⟨_, rfl, (h.pause start).2⟩
  | resume now =>
    obtain ⟨w', hresume, hfollows⟩ := h.resume start
    refine ⟨w', ?_, hfollows⟩
    simp only [Press.time] at hresume
    simp only [Stopwatch.press, hresume]
    rfl

theorem follow_concat (w : Stopwatch) (past : List Press) (p : Press) :
    w.follow (past ++ [p]) = w.follow past >>= fun w' => w'.press p := by
  simp [follow]

/-- Calls in order never fault. -/
theorem InOrder.follows (h : InOrder start past now) :
    ∃ w, (Stopwatch.start start).follow past = .ok w ∧ w.Follows past now ∧
      (AllRegular start past now → w.Counts start past now) := by
  -- the stopwatch is carried to the time of the last call, through it, and on to `now`
  induction past using List.reverseRecOn generalizing now with
  | nil =>
    refine ⟨_, rfl, (follows_start start).later h.start_le, fun hregular => ?_⟩
    refine (counts_start hregular.first).later (follows_start start) ?_ (Int.le_refl _) h.start_le
      hregular.last
    exact fun p hp => absurd hp List.not_mem_nil
  | append_singleton past p ih =>
    obtain ⟨w, hw, hfollows, hcounts⟩ := ih h.before
    obtain ⟨w', hpress, hfollows', hcounts'⟩ := hfollows.press start
    have hlast : p.time ≤ now := h.le p (List.mem_append_right _ (List.mem_singleton_self p))
    refine ⟨w', ?_, hfollows'.later hlast, fun hregular => ?_⟩
    · rw [follow_concat, hw]
      exact hpress
    · have hbefore := hregular.before
      have hpast : ∀ q ∈ past ++ [p], q.time.count ≤ p.time.count :=
        List.forall_mem_append.mpr
          ⟨h.before.count_le hbefore, List.forall_mem_singleton.mpr (Int.le_refl _)⟩
      exact (hcounts' (hcounts hbefore)).later hfollows' hpast
        (Instant.count_le_of_le h.before.start_le hbefore.first) hlast hregular.last

/-- What a stopwatch says at an instant after its calls. -/
structure Answers (w : Stopwatch) (past : List Press) (now : Instant) : Prop where
  isPaused : w.isPaused = !runsAfter past
  elapsed : ∃ d, w.elapsed now = .ok d
  pause : (w.pause now).1 = runsAfter past
  resume : ∃ w', w.resume now = .ok ((pauseBegin? past).map fun since => (now.since since).nonneg, w')

/-- What a stopwatch has measured up to an instant after its calls. -/
structure Measures (w : Stopwatch) (start : Instant) (past : List Press) (now : Instant) :
    Prop where
  elapsed : ∃ d, w.elapsed now = .ok d ∧ d.nanos = runningNanos past start now
  resume : ∃ w', w.resume now = .ok ((pauseBegin? past).map now.since, w')

theorem Follows.answers (h : w.Follows past now) : w.Answers past now := by
  obtain ⟨w', hresume, -⟩ := h.resume now
  refine ⟨?_, h.ordered.elapsed now, (h.pause now).1, w', hresume⟩
  rw [isPaused, h.phase, runsAfter_eq]
  cases pauseBegin? past <;> rfl

theorem Counts.measures (h : w.Counts start past now) (hfollows : w.Follows past now) :
    w.Measures start past now := by
  obtain ⟨d, helapsed, hactive⟩ := h.timed.elapsed
  refine ⟨⟨d, helapsed, hactive.trans h.active⟩, ?_⟩
  have hphase := hfollows.phase
  cases hbegin : pauseBegin? past with
  | none =>
    rw [hbegin, Option.elim_none] at hphase
    exact ⟨w, by simp only [Stopwatch.resume, hphase, Option.map_none]⟩
  | some since =>
    rw [hbegin, Option.elim_some] at hphase
    obtain ⟨w', hresume, -⟩ := h.timed.resume hphase
    exact ⟨w', hresume⟩

/-! ### Times in any order -/

/-- Whatever the times, a stopwatch keeps its start, and its pauses are not negative. -/
theorem follow_keeps {w' : Stopwatch} (h : w.follow past = .ok w') (hw : 0 ≤ w.pausedTotal.nanos) :
    w'.startedAt = w.startedAt ∧ 0 ≤ w'.pausedTotal.nanos := by
  induction past using List.reverseRecOn generalizing w' with
  | nil =>
    cases h
    exact ⟨rfl, hw⟩
  | append_singleton past p ih =>
    rw [follow_concat] at h
    obtain ⟨w₁, hpast, hpress⟩ := Checked.bind_eq_ok.mp h
    obtain ⟨hstart, hpauses⟩ := ih hpast
    cases p with
    | pause now =>
      cases hpress
      obtain ⟨hstart', hpauses'⟩ := w₁.pause_snd now
      exact ⟨hstart'.trans hstart, hpauses' ▸ hpauses⟩
    | resume now =>
      obtain ⟨⟨length, w₂⟩, hresume, hw₂⟩ := Checked.bind_eq_ok.mp hpress
      cases hw₂
      obtain ⟨hstart', hmore, -⟩ := resume_snd hresume
      exact ⟨hstart'.trans hstart, Int.le_trans hpauses hmore⟩

/-- While the calls come in the order of their times, a stopwatch says whether it runs, and how long
a pause was, as the calls do, with no fault on the way. Outside of leap seconds, it measures exactly
the time at which it ran, and a pause is as long as the time from its start to its end. In any order
of times, what it measures lies between zero and the time since its start. -/
theorem measures_running (start : Instant) (past : List Press) :
    (∀ now, InOrder start past now →
      ∃ w, (Stopwatch.start start).follow past = .ok w ∧ w.Answers past now ∧
        (AllRegular start past now → w.Measures start past now)) ∧
    ∀ w now d, (Stopwatch.start start).follow past = .ok w → w.elapsed now = .ok d →
      0 ≤ d.nanos ∧ d.nanos ≤ max 0 (now.since start).nanos := by
  refine ⟨fun now h => ?_, fun w now d hw hd => ?_⟩
  · obtain ⟨w, hw, hfollows, hcounts⟩ := h.follows
    exact ⟨w, hw, hfollows.answers, fun hregular => (hcounts hregular).measures hfollows⟩
  · obtain ⟨hstart, hpauses⟩ := follow_keeps hw (Int.le_refl 0)
    have hbounds := elapsed_bounds hpauses hd
    rw [hstart] at hbounds
    rw [Int.max_comm]
    exact hbounds

/-- Of two calls to stop and two to go on, one each is redundant; and a clock may turn back. -/
theorem measures_running_of_redundant :
    let tick (n : Nat) (h : n < 60) : Instant := ⟨0, n, by decide, Or.inl (by omega)⟩
    let past : List Press := [.resume (tick 1 (by decide)), .pause (tick 2 (by decide)),
      .pause (tick 3 (by decide)), .resume (tick 5 (by decide)), .pause (tick 6 (by decide))]
    let turned : List Press := [.pause (tick 7 (by decide)), .resume (tick 2 (by decide))]
    (InOrder .epoch past (tick 8 (by decide)) ∧ AllRegular .epoch past (tick 8 (by decide)) ∧
      ∃ w, (Stopwatch.start .epoch).follow past = .ok w ∧ w.Answers past (tick 8 (by decide)) ∧
        w.Measures .epoch past (tick 8 (by decide)) ∧
        runningNanos past .epoch (tick 8 (by decide)) = 3 ∧
        pauseBegin? past = some (tick 6 (by decide))) ∧
      ∃ w d, (Stopwatch.start (tick 4 (by decide))).follow turned = .ok w ∧
        w.elapsed (tick 6 (by decide)) = .ok d ∧
        0 ≤ d.nanos ∧
        d.nanos ≤ max 0 ((tick 6 (by decide)).since (tick 4 (by decide))).nanos := by
  intro tick past turned
  have horder : InOrder .epoch past (tick 8 (by decide)) := by decide
  have hregular : AllRegular .epoch past (tick 8 (by decide)) := by decide
  obtain ⟨w, hw, hanswers, hmeasures⟩ := (measures_running .epoch past).1 _ horder
  have hrunning : runningNanos past .epoch (tick 8 (by decide)) = 3 := by decide +kernel
  have hturned : (Stopwatch.start (tick 4 (by decide))).follow turned =
      .ok (Stopwatch.start (tick 4 (by decide))) := by decide
  have helapsed : (Stopwatch.start (tick 4 (by decide))).elapsed (tick 6 (by decide)) =
      .ok ⟨2, by decide⟩ := by decide
  exact ⟨⟨horder, hregular, w, hw, hanswers, hmeasures hregular, hrunning, rfl⟩, _, _, hturned,
    helapsed, (measures_running (tick 4 (by decide)) turned).2 _ _ _ hturned helapsed⟩

/-- With times that do not go back alone, a stopwatch does not always measure the time at which it
ran. One that has run for 60.5 seconds when it is stopped in a leap second says, as it goes on after
that second, that the pause took no time, and has then measured 60.2 seconds. -/
theorem not_measures_running :
    let start : Instant := ⟨1483228740, 0, by decide, by decide⟩
    let past : List Press := [.pause .inLeapSecond, .resume .afterLeapSecond]
    InOrder start past .afterLeapSecond ∧
      (Instant.inLeapSecond.since start).nanos = 60500000000 ∧
      (∃ w w', (Stopwatch.start start).follow [.pause .inLeapSecond] = .ok w ∧
        w.resume .afterLeapSecond = .ok (some Span.zero, w')) ∧
      ∃ w d, (Stopwatch.start start).follow past = .ok w ∧ w.elapsed .afterLeapSecond = .ok d ∧
        d.nanos = 60200000000 :=
  ⟨by decide, by decide, ⟨_, _, rfl, rfl⟩, _, _, rfl, rfl, rfl⟩

end Stopwatch

end MentalMath
