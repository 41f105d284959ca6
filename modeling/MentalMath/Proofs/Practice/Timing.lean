import MentalMath.Proofs.Practice.Refusal

/-! The time of a practice run. Two stopwatches are paused together and the second starts over with
every answer, so the time of the run is the time spent on its answers and on the current problem. It
is also the time for which the run was in progress. Both hold while the time does not go back,
outside of leap seconds and up to the largest number of answers; that no arithmetic leaves its range
holds with them, too. -/

namespace MentalMath

/-- The nanoseconds spent on the answers of a session. -/
def Session.spentNanos (s : Session) : Int :=
  s.answers.foldl (fun n a => n + a.timeSpent.nanos) 0

namespace Run

/-- Up to an instant, the steps of the run came at times that do not go back. -/
structure Ordered (r : Run) (last : Instant) : Prop where
  consistent : r.Consistent
  sessionWatch : r.sessionWatch.Ordered last
  questionWatch : r.questionWatch.Ordered last
  started : r.session.startedAt ≤ last

/-- None of the times lies in a leap second either. The base of the second stopwatch is ahead of the
base of the first by the time spent on the answers. -/
structure Timed (r : Run) (last : Instant) : Prop where
  ordered : r.Ordered last
  sessionWatch : r.sessionWatch.Timed last
  questionWatch : r.questionWatch.Timed last
  waiting : r.session.completed = false →
    r.current < r.problems.length ∨ Session.maxAnswers < r.current
  spent : r.session.completed = false → r.current < r.problems.length →
    r.session.spentNanos = r.questionWatch.base - r.sessionWatch.base
  final : r.session.completed = true → r.session.totalTime.nanos = r.session.spentNanos

/-- The active nanoseconds of a run at an instant. -/
def activeNanos (r : Run) (now : Instant) : Int :=
  if r.session.completed then r.session.totalTime.nanos else r.sessionWatch.activeNanos now

variable {r r' : Run} {last now : Instant} {input : String}

/-! ### Times that do not go back -/

theorem ordered_start {c : Category} {problems : List Problem} (h : start c problems now = .ok r) :
    r.Ordered now := by
  have hconsistent := consistent_start h
  obtain ⟨-, rfl⟩ := start_eq_ok_iff.mp h
  exact ⟨hconsistent, Stopwatch.ordered_start now, Stopwatch.ordered_start now, Instant.le_refl now⟩

/-- A run over `n` problems that are all the same. -/
theorem start_replicate {n : Nat} (hsome : 0 < n) (hfew : n ≤ maxCount) (p : Problem) (now : Instant) :
    ∃ r, start .mixed (List.replicate n p) now = .ok r ∧ r.problems.length = n ∧ r.current = 0 ∧
      r.status = .inProgress := by
  have hlength : (List.replicate n p).length = n := List.length_replicate
  have hne : List.replicate n p ≠ [] := List.ne_nil_of_length_pos (hlength.symm ▸ hsome)
  exact ⟨_, start_eq_ok_iff.mpr ⟨⟨hne, hlength.symm ▸ hfew⟩, rfl⟩, hlength, rfl, rfl⟩

theorem Ordered.later (h : r.Ordered last) (hn : last ≤ now) : r.Ordered now :=
  ⟨h.consistent, h.sessionWatch.later hn, h.questionWatch.later hn, Instant.le_trans h.started hn⟩

theorem Ordered.withSessionId (h : r.Ordered last) (id : SessionId) :
    (r.withSessionId id).Ordered last :=
  ⟨h.consistent.withSessionId id, h.sessionWatch, h.questionWatch, h.started⟩

theorem Ordered.of_submits {result : Except RunError Submission} (h : r.Ordered now)
    (hs : r.Submits input now result r') : r'.Ordered now := by
  have hconsistent := h.consistent.submit hs
  cases hs with
  | closed | paused | exhausted | refused => exact h
  | advanced problem spent session hc hp hx hspent hrec hl =>
    obtain rfl := h.consistent.eq_withAnswer hc hx hrec
    exact ⟨hconsistent, h.sessionWatch, Stopwatch.ordered_start now, h.started⟩
  | stuck problem spent total session e hc hp hx hspent hrec hl ht hf =>
    obtain rfl := h.consistent.eq_withAnswer hc hx hrec
    exact ⟨hconsistent, h.sessionWatch, h.questionWatch, h.started⟩
  | finished problem spent total session final hc hp hx hspent hrec hl ht hf =>
    obtain rfl := h.consistent.eq_withAnswer hc hx hrec
    obtain ⟨-, -, -, rfl⟩ := Session.finalize_eq_ok_iff.mp hf
    exact ⟨hconsistent, h.sessionWatch, h.questionWatch, h.started⟩

theorem exists_submit (hq : ∃ d, r.questionWatch.elapsed now = .ok d)
    (hs : ∃ d, r.sessionWatch.elapsed now = .ok d) (input : String) :
    ∃ result r', r.submit input now = .ok (result, r') := by
  obtain ⟨spent, hq⟩ := hq
  obtain ⟨total, hs⟩ := hs
  unfold submit
  split
  · exact ⟨_, _, rfl⟩
  split
  · exact ⟨_, _, rfl⟩
  split
  · exact ⟨_, _, rfl⟩
  simp only [hq, hs, bind, Except.bind]
  split
  · exact ⟨_, _, rfl⟩
  split
  · exact ⟨_, _, rfl⟩
  split <;> exact ⟨_, _, rfl⟩

/-- An answer never faults. -/
theorem Ordered.submit (h : r.Ordered now) (input : String) :
    ∃ result r', r.submit input now = .ok (result, r') ∧ r.Submits input now result r' := by
  obtain ⟨result, r', hr⟩ :=
    exists_submit (h.questionWatch.elapsed now) (h.sessionWatch.elapsed now) input
  exact ⟨result, r', hr, submits_of_submit hr⟩

/-- A pause never faults. -/
theorem Ordered.togglePause (h : r.Ordered now) :
    ∃ result r', r.togglePause now = .ok (result, r') ∧ r.Toggles now result r' ∧ r'.Ordered now ∧
      r'.problems = r.problems := by
  cases hc : r.session.completed with
  | true =>
    have hs : r.togglePause now = .ok (.error .completed, r) := by simp [Run.togglePause, hc]
    exact ⟨_, _, hs, toggles_of_togglePause hs, h, rfl⟩
  | false =>
    cases hp : r.sessionWatch.isPaused with
    | true =>
      obtain ⟨sp, sw, hsw, hso⟩ := h.sessionWatch.resume
      obtain ⟨qp, qw, hqw, hqo⟩ := h.questionWatch.resume
      have hs : r.togglePause now = .ok (.ok .inProgress,
          { r with sessionWatch := sw, questionWatch := qw }) := by
        simp [Run.togglePause, hc, hp, hsw, hqw, bind, Except.bind]
        rfl
      have ht := toggles_of_togglePause hs
      exact ⟨_, _, hs, ht, ⟨h.consistent.toggle ht, hso, hqo, h.started⟩, rfl⟩
    | false =>
      have hs : r.togglePause now = .ok (.ok .paused, { r with
          sessionWatch := (r.sessionWatch.pause now).2
          questionWatch := (r.questionWatch.pause now).2 }) := by
        simp [Run.togglePause, hc, hp]
      have ht := toggles_of_togglePause hs
      exact ⟨_, _, hs, ht, ⟨h.consistent.toggle ht, h.sessionWatch.pause, h.questionWatch.pause,
        h.started⟩, rfl⟩

/-- Reading the active times never faults. -/
theorem Ordered.elapsed (h : r.Ordered last) (now : Instant) : ∃ e, r.elapsed now = .ok e := by
  obtain ⟨total, ht⟩ := h.sessionWatch.elapsed now
  obtain ⟨spent, hs⟩ := h.questionWatch.elapsed now
  unfold Run.elapsed
  cases r.session.completed with
  | true => exact ⟨_, rfl⟩
  | false =>
    simp only [ht, hs, bind, Except.bind]
    exact ⟨_, rfl⟩

/-- In time, a session with its last answer refuses to be completed only for the number of its
answers. -/
theorem Ordered.many_of_finalize (h : r.Ordered now) {a : Answer} {total : Span} {e : SessionError}
    (hc : r.session.completed = false) (hlast : r.current + 1 = r.problems.length)
    (hf : (r.session.withAnswer a).finalize now total = .error e) :
    Session.maxAnswers < r.problems.length ∧ e = .overflow r.problems.length := by
  rcases h.consistent.finalize_error_cases hc hlast hf with ⟨hnow, -⟩ | hmany
  · exact absurd hnow (Instant.not_lt_of_le h.started)
  · exact hmany

/-- What comes of an answer to the problem that waits. -/
inductive Takes (r : Run) (input : String) (now : Instant) : Except RunError Submission → Run → Prop
  | advanced (problem : Problem) (spent : Span) (hl : r.current + 1 < r.problems.length) :
    Takes r input now (.ok ⟨Answer.grade problem input spent now, false⟩)
      (r.advance (r.session.withAnswer (Answer.grade problem input spent now)) now)
  | finished (problem : Problem) (spent : Span) (final : Session)
      (hl : r.current + 1 = r.problems.length) (hfew : r.problems.length ≤ Session.maxAnswers)
      (hc : final.completed = true) :
    Takes r input now (.ok ⟨Answer.grade problem input spent now, true⟩)
      { r with current := r.current + 1, session := final }
  /-- There are more problems than an average can be taken over: the last answer is refused and kept
  all the same. -/
  | overrun (problem : Problem) (spent : Span) (hs : r.questionWatch.elapsed now = .ok spent)
      (hl : r.current + 1 = r.problems.length) (hmany : Session.maxAnswers < r.problems.length) :
    Takes r input now (.error (.session (.overflow r.problems.length))) { r with
      current := r.current + 1
      session := r.session.withAnswer (Answer.grade problem input spent now) }

/-- In time, a run in progress takes the answer to a problem that waits. -/
theorem Ordered.takes (h : r.Ordered now) (hp : r.status = .inProgress)
    (hlt : r.current < r.problems.length) (input : String) :
    ∃ result r', r.submit input now = .ok (result, r') ∧ r'.Ordered now ∧
      r.Takes input now result r' := by
  obtain ⟨hopen, hrunning⟩ := status_eq_inProgress_iff.mp hp
  obtain ⟨result, r', hr, hs⟩ := h.submit input
  refine ⟨result, r', hr, h.of_submits hs, ?_⟩
  cases hs with
  | closed hc => cases hopen.symm.trans hc
  | paused hc hw => cases hrunning.symm.trans hw
  | exhausted hc hw hx => exact absurd hlt (Nat.not_lt.mpr (List.getElem?_eq_none_iff.mp hx))
  | refused problem spent e hc hw hx hspent hrec =>
    rw [h.consistent.record hc hlt] at hrec
    cases hrec
  | advanced problem spent session hc hw hx hspent hrec hl =>
    obtain rfl := h.consistent.eq_withAnswer hc hx hrec
    exact .advanced problem spent hl
  | stuck problem spent total session e hc hw hx hspent hrec hl ht hf =>
    obtain rfl := h.consistent.eq_withAnswer hc hx hrec
    have hlast : r.current + 1 = r.problems.length := by omega
    obtain ⟨hmany, rfl⟩ := h.many_of_finalize hc hlast hf
    exact .overrun problem spent hspent hlast hmany
  | finished problem spent total session final hc hw hx hspent hrec hl ht hf =>
    obtain rfl := h.consistent.eq_withAnswer hc hx hrec
    obtain ⟨-, -, hfew, rfl⟩ := Session.finalize_eq_ok_iff.mp hf
    have hlast : r.current + 1 = r.problems.length := by omega
    rw [h.consistent.length_withAnswer, hlast] at hfew
    exact .finished problem spent _ hlast hfew rfl

/-- A run in progress takes any answer that is not its last one. -/
theorem Ordered.advances (h : r.Ordered now) (hp : r.status = .inProgress)
    (hl : r.current + 1 < r.problems.length) (input : String) :
    ∃ s r', r.submit input now = .ok (.ok s, r') ∧ r'.Ordered now ∧ r'.status = .inProgress ∧
      r'.problems = r.problems ∧ r'.current = r.current + 1 := by
  obtain ⟨result, r', hr, hordered, ht⟩ := h.takes hp (by omega) input
  cases ht with
  | advanced problem spent _ => exact ⟨_, _, hr, hordered, hp, rfl, rfl⟩
  | finished _ _ _ hlast => exact absurd hlast (Nat.ne_of_lt hl)
  | overrun _ _ _ hlast => exact absurd hlast (Nat.ne_of_lt hl)

/-- The last answer of a run with more problems than an average can be taken over is refused and
kept all the same. -/
theorem Ordered.overruns (h : r.Ordered now) (hp : r.status = .inProgress)
    (hlast : r.current + 1 = r.problems.length) (hmany : Session.maxAnswers < r.problems.length)
    (input : String) :
    ∃ problem spent, r.questionWatch.elapsed now = .ok spent ∧
      r.submit input now = .ok (.error (.session (.overflow r.problems.length)), { r with
        current := r.current + 1
        session := r.session.withAnswer (Answer.grade problem input spent now) }) := by
  obtain ⟨result, r', hr, -, ht⟩ := h.takes hp (by omega) input
  cases ht with
  | advanced _ _ hl => exact absurd hlast (Nat.ne_of_lt hl)
  | finished _ _ _ _ hfew => exact absurd hfew (Nat.not_le.mpr hmany)
  | overrun problem spent hspent => exact ⟨problem, spent, hspent, hr⟩

/-! ### Times outside of leap seconds -/

theorem timed_start {c : Category} {problems : List Problem} (h : start c problems now = .ok r)
    (hnow : now.Regular) : r.Timed now ∧ r.activeNanos now = 0 := by
  have hordered := ordered_start h
  obtain ⟨⟨hsome, -⟩, rfl⟩ := start_eq_ok_iff.mp h
  have hpos := List.length_pos_iff.mpr hsome
  refine ⟨⟨hordered, Stopwatch.timed_start hnow, Stopwatch.timed_start hnow, fun _ => Or.inl hpos,
    fun _ _ => ?_, fun h => by cases h⟩, ?_⟩
  · simp [Session.spentNanos, Session.start]
  · simp [activeNanos, Session.start, Stopwatch.activeNanos_start]

theorem Timed.later (h : r.Timed last) (hn : last ≤ now) (hnow : now.Regular) : r.Timed now :=
  { h with
    ordered := h.ordered.later hn
    sessionWatch := h.sessionWatch.later hn hnow
    questionWatch := h.questionWatch.later hn hnow }

/-- The active time grows with the clock while the run is in progress and stands otherwise. -/
theorem activeNanos_later (r : Run) (last now : Instant) :
    r.activeNanos now = r.activeNanos last +
      if r.status = .inProgress then now.count - last.count else 0 := by
  cases hc : r.session.completed with
  | true => simp [activeNanos, status, hc]
  | false =>
    cases hp : r.sessionWatch.phase with
    | running =>
      have hstatus : r.status = .inProgress := by simp [status, hc, Stopwatch.isPaused, hp]
      simp only [activeNanos, hc, hp, Stopwatch.activeNanos, hstatus, if_true, Bool.false_eq_true,
        if_false]
      omega
    | paused since => simp [activeNanos, status, hc, Stopwatch.isPaused, hp, Stopwatch.activeNanos]

theorem spentNanos_append (s : Session) (a : Answer) (correct : Nat) :
    ({ s with answers := s.answers ++ [a], correct := correct } : Session).spentNanos =
      s.spentNanos + a.timeSpent.nanos := by
  simp [Session.spentNanos]

/-- The time spent on the current problem is what the run has measured beyond its answers. -/
theorem Timed.spent_answered (h : r.Timed now) (hc : r.session.completed = false)
    (hl : r.current < r.problems.length) {spent : Span}
    (hs : r.questionWatch.elapsed now = .ok spent) :
    r.session.spentNanos + spent.nanos = r.sessionWatch.activeNanos now := by
  obtain ⟨spent₀, hs₀, hspent⟩ := h.questionWatch.elapsed
  obtain rfl : spent₀ = spent := Except.ok.inj (hs₀.symm.trans hs)
  have hlag := h.spent hc hl
  have hbases := Stopwatch.activeNanos_add_base h.ordered.consistent.phase now
  omega

theorem Timed.advanced (h : r.Timed now) {problem : Problem} {spent : Span} {session : Session}
    (hordered : (r.advance session now).Ordered now) (hc : r.session.completed = false)
    (hp : r.sessionWatch.isPaused = false) (hs : r.questionWatch.elapsed now = .ok spent)
    (hrec : r.session.record (Answer.grade problem input spent now) = .ok session)
    (hl : r.current + 1 < r.problems.length) :
    (r.advance session now).Timed now ∧
      (r.advance session now).activeNanos now = r.activeNanos now := by
  have hsum := h.spent_answered hc (by omega) hs
  have hrun := Stopwatch.isPaused_eq_false_iff.mp hp
  obtain ⟨-, -, rfl⟩ := Session.record_eq_ok_iff.mp hrec
  refine ⟨⟨hordered, h.sessionWatch, Stopwatch.timed_start h.sessionWatch.regular.2,
    fun _ => Or.inl hl, fun _ _ => ?_, fun h' => ?_⟩, ?_⟩
  · rw [Stopwatch.activeNanos_of_running hrun] at hsum
    simp only [advance, spentNanos_append, Answer.grade, hsum, Stopwatch.base, Stopwatch.start,
      Span.zero]
    omega
  · simp [advance, hc] at h'
  · simp [activeNanos, advance, hc]

/-- A session that takes its last answer and refuses to be completed has too many answers, as the
time is not before its start. -/
theorem Timed.stuck (h : r.Timed now) {a : Answer} {total : Span} {e : SessionError}
    (hordered : Ordered { r with current := r.current + 1, session := r.session.withAnswer a } now)
    (hc : r.session.completed = false) (hlast : r.current + 1 = r.problems.length)
    (hf : (r.session.withAnswer a).finalize now total = .error e) :
    Timed { r with current := r.current + 1, session := r.session.withAnswer a } now ∧
      activeNanos { r with current := r.current + 1, session := r.session.withAnswer a } now =
        r.activeNanos now := by
  have hcompleted : (r.session.withAnswer a).completed = false := hc
  obtain ⟨hmany, -⟩ := h.ordered.many_of_finalize hc hlast hf
  refine ⟨{ h with
    ordered := hordered
    waiting := fun _ => Or.inr (hlast ▸ hmany)
    spent := fun _ hlt => absurd hlast (Nat.ne_of_lt hlt)
    final := fun h' => by cases hcompleted.symm.trans h' }, ?_⟩
  simp [activeNanos, hc, hcompleted]

theorem Timed.finished (h : r.Timed now) {problem : Problem} {spent total : Span}
    {session final : Session}
    (hordered : Ordered { r with current := r.current + 1, session := final } now)
    (hc : r.session.completed = false) (hx : r.problems[r.current]? = some problem)
    (hs : r.questionWatch.elapsed now = .ok spent)
    (hrec : r.session.record (Answer.grade problem input spent now) = .ok session)
    (ht : r.sessionWatch.elapsed now = .ok total) (hf : session.finalize now total = .ok final) :
    Timed { r with current := r.current + 1, session := final } now ∧
      activeNanos { r with current := r.current + 1, session := final } now =
        r.activeNanos now := by
  have hsum := h.spent_answered hc (List.getElem?_eq_some_iff.mp hx).1 hs
  obtain ⟨total₀, ht₀, htotal⟩ := h.sessionWatch.elapsed
  obtain rfl : total₀ = total := Except.ok.inj (ht₀.symm.trans ht)
  obtain ⟨-, -, rfl⟩ := Session.record_eq_ok_iff.mp hrec
  obtain ⟨-, -, -, rfl⟩ := Session.finalize_eq_ok_iff.mp hf
  refine ⟨{ h with
    ordered := hordered
    waiting := fun h' => by cases h'
    spent := fun h' => by cases h'
    final := fun _ => ?_ }, ?_⟩
  · rw [htotal, ← hsum]
    exact (spentNanos_append r.session (Answer.grade problem input spent now) 0).symm
  · simp [activeNanos, hc, htotal]

/-- An answer keeps the stopwatches in step and the active time as it is. -/
theorem Timed.submit {result : Except RunError Submission} (h : r.Timed now)
    (hs : r.Submits input now result r') :
    r'.Timed now ∧ r'.activeNanos now = r.activeNanos now := by
  have hordered := h.ordered.of_submits hs
  cases hs with
  | closed | paused | exhausted | refused => exact ⟨h, rfl⟩
  | advanced problem spent session hc hp hx hs hrec hl =>
    exact h.advanced hordered hc hp hs hrec hl
  | stuck problem spent total session e hc hp hx hs hrec hl ht hf =>
    have hlt := (List.getElem?_eq_some_iff.mp hx).1
    obtain rfl := h.ordered.consistent.eq_withAnswer hc hx hrec
    exact h.stuck hordered hc (by omega) hf
  | finished problem spent total session final hc hp hx hs hrec hl ht hf =>
    exact h.finished hordered hc hx hs hrec ht hf

/-- A pause keeps the stopwatches in step and the active time as it is. -/
theorem Timed.toggle {result : Except RunError RunStatus} (h : r.Timed now)
    (hs : r.Toggles now result r') (hordered : r'.Ordered now) :
    r'.Timed now ∧ r'.activeNanos now = r.activeNanos now := by
  cases hs with
  | closed => exact ⟨h, rfl⟩
  | resumed sp qp sw qw hc hp hsw hqw =>
    obtain ⟨since, hph⟩ := Stopwatch.isPaused_eq_true_iff.mp hp
    obtain ⟨sw', hsw', hst, -, hsb, hkeep⟩ := h.sessionWatch.resume hph
    obtain ⟨qw', hqw', hqt, -, hqb, -⟩ :=
      h.questionWatch.resume (h.ordered.consistent.phase.trans hph)
    cases hsw.symm.trans hsw'
    cases hqw.symm.trans hqw'
    refine ⟨{ h with
      ordered := hordered
      sessionWatch := hst
      questionWatch := hqt
      spent := fun hc hl => ?_ }, ?_⟩
    · have hlag := h.spent hc hl
      simp only [hlag, hsb, hqb]
      omega
    · simp only [activeNanos, hc, hkeep]
  | stopped hc hp =>
    have hph := Stopwatch.isPaused_eq_false_iff.mp hp
    obtain ⟨hst, -, hsb, hkeep⟩ := h.sessionWatch.pause hph
    obtain ⟨hqt, -, hqb, -⟩ := h.questionWatch.pause (h.ordered.consistent.phase.trans hph)
    refine ⟨{ h with
      ordered := hordered
      sessionWatch := hst
      questionWatch := hqt
      spent := fun hc hl => ?_ }, ?_⟩
    · have hlag := h.spent hc hl
      simp only [hlag, hsb, hqb]
    · simp only [activeNanos, hc, hkeep]

/-- The two active times differ by the time spent on the answers as long as the session has room for
an average. -/
theorem Timed.elapsed {e : ElapsedTimes} (h : r.Timed now) (he : r.elapsed now = .ok e) :
    e.session.nanos = r.activeNanos now ∧
      (r.session.completed = false → r.session.answers.length ≤ Session.maxAnswers →
        e.session.nanos = r.session.spentNanos + e.question.nanos) := by
  unfold Run.elapsed at he
  cases hc : r.session.completed with
  | true =>
    rw [if_pos hc] at he
    cases he
    exact ⟨by simp [activeNanos, hc], fun h' => by cases h'⟩
  | false =>
    obtain ⟨total, ht, htotal⟩ := h.sessionWatch.elapsed
    obtain ⟨spent, hs, -⟩ := h.questionWatch.elapsed
    simp only [hc, ht, hs, bind, Except.bind] at he
    cases he
    refine ⟨by simp [activeNanos, hc, htotal], fun _ hfew => ?_⟩
    have hwait := h.waiting hc
    rw [h.ordered.consistent.answered] at hfew
    rw [htotal, h.spent_answered hc (by omega) hs]

/-- The refused last answer of a run with more problems than an average can be taken over is counted
twice: its time is that of an answer, and the second stopwatch goes on with it. -/
theorem Timed.overruns (h : r.Timed now) (hp : r.status = .inProgress)
    (hlast : r.current + 1 = r.problems.length) (hmany : Session.maxAnswers < r.problems.length)
    (hbase : r.questionWatch.base < now.count) (input : String) :
    ∃ error r' e, r.submit input now = .ok (.error error, r') ∧ r'.session.completed = false ∧
      r'.elapsed now = .ok e ∧ e.session.nanos ≠ r'.session.spentNanos + e.question.nanos := by
  obtain ⟨hc, hw⟩ := status_eq_inProgress_iff.mp hp
  obtain ⟨problem, spent, hspent, hr⟩ := h.ordered.overruns hp hlast hmany input
  obtain ⟨total, htotal, hactive⟩ := h.sessionWatch.elapsed
  refine ⟨_, _, ⟨total, spent⟩, hr, hc, ?_, ?_⟩
  · simp only [Run.elapsed, Session.withAnswer, hc, htotal, hspent, bind, Except.bind]
    rfl
  · have hsum := h.spent_answered hc (by omega) hspent
    obtain ⟨spent₀, hs₀, hspent₀⟩ := h.questionWatch.elapsed
    obtain rfl : spent₀ = spent := Except.ok.inj (hs₀.symm.trans hspent)
    have hrun := Stopwatch.isPaused_eq_false_iff.mp hw
    rw [Stopwatch.activeNanos_of_running (h.ordered.consistent.phase.trans hrun)] at hspent₀
    simp only [Session.withAnswer, spentNanos_append, Answer.grade]
    omega

/-- The active times of a completed run stand. -/
theorem elapsed_of_completed (hc : r.session.completed = true) (now later : Instant) :
    r.elapsed later = r.elapsed now := by
  simp only [Run.elapsed, hc, if_true]

/-- The active times of a paused run stand. -/
theorem Timed.elapsed_of_paused (h : r.Timed now) (hp : r.status = .paused) {later : Instant}
    (h' : r.Timed later) : r.elapsed later = r.elapsed now := by
  have hc : r.session.completed = false := by
    cases hc : r.session.completed with
    | false => rfl
    | true => simp [status, hc] at hp
  have hw : ∃ since, r.sessionWatch.phase = .paused since := by
    rw [← Stopwatch.isPaused_eq_true_iff]
    cases hw : r.sessionWatch.isPaused with
    | true => rfl
    | false => simp [status, hc, hw] at hp
  obtain ⟨since, hph⟩ := hw
  have hs := h.sessionWatch.elapsed_of_paused h'.sessionWatch hph
  have hq := h.questionWatch.elapsed_of_paused h'.questionWatch
    (h.ordered.consistent.phase.trans hph)
  simp only [Run.elapsed, hc, hs, hq]

end Run

namespace Tracker

/-- A call that works on the run it finds. -/
inductive Act where
  | submit (input : String) (now : Instant)
  | togglePause (now : Instant)
  deriving DecidableEq, Repr

def Act.time : Act → Instant
  | .submit _ now => now
  | .togglePause now => now

/-- The holder after a call, accepted or rejected. -/
def perform (t : Tracker) : Act → Checked Tracker
  | .submit input now => do return (← t.submit input now).2
  | .togglePause now => do return (← t.togglePause now).2

/-- A holder beside a clock that runs while its run is in progress. -/
structure Observation where
  tracker : Tracker
  /-- When the last call was made. -/
  last : Instant
  /-- The nanoseconds for which the run was in progress until then. -/
  inProgress : Int

namespace Observation

/-- The nanoseconds for which the run was in progress until an instant after the last call. -/
def inProgressUntil (w : Observation) (now : Instant) : Int :=
  w.inProgress + if w.tracker.status = .inProgress then now.count - w.last.count else 0

/-- The observation after one more call. -/
def perform (w : Observation) (a : Act) : Checked Observation := do
  return ⟨← w.tracker.perform a, a.time, w.inProgressUntil a.time⟩

def follow (w : Observation) (acts : List Act) : Checked Observation :=
  acts.foldlM perform w

/-- The calls on the run of the holder came in the order of their times. -/
structure Sound (w : Observation) (r : Run) : Prop where
  run : w.tracker.run = some r
  ordered : r.Ordered w.last

/-- The active time of a run agrees with the clock beside its holder. -/
structure Agrees (w : Observation) (r : Run) : Prop where
  timed : r.Timed w.last
  inProgress : r.activeNanos w.last = w.inProgress

variable {w : Observation} {r : Run} {a : Act} {acts : List Act} {now : Instant}

theorem Agrees.inProgressUntil (h : w.Agrees r) (hrun : w.tracker.run = some r) (now : Instant) :
    r.activeNanos now = w.inProgressUntil now := by
  rw [Run.activeNanos_later r w.last now, h.inProgress]
  simp [Observation.inProgressUntil, Tracker.status, hrun]

/-- What a call of a run comes to beside the clock. -/
theorem Sound.perform_submit {result : Except RunError Submission} {r' : Run} {input : String}
    (h : w.Sound r) (hr : r.submit input now = .ok (result, r')) :
    w.perform (.submit input now) = .ok ⟨⟨some r'⟩, now, w.inProgressUntil now⟩ := by
  simp only [Observation.perform, Tracker.perform, Tracker.submit, h.run, hr, bind, Except.bind, pure,
    Except.pure, Act.time]

/-- A call that is made in time never faults, and outside of leap seconds it keeps the two clocks in
agreement. -/
theorem Sound.perform (h : w.Sound r) (ha : w.last ≤ a.time) :
    ∃ w' r', w.perform a = .ok w' ∧ w'.Sound r' ∧ w'.last = a.time ∧
      (w.Agrees r → a.time.Regular → w'.Agrees r') := by
  have ho := h.ordered.later ha
  cases a with
  | submit input now =>
    obtain ⟨result, r', hr, hs⟩ := ho.submit input
    refine ⟨⟨⟨some r'⟩, now, w.inProgressUntil now⟩, r', ?_, ⟨rfl, ho.of_submits hs⟩, rfl,
      fun hagrees hregular => ?_⟩
    · exact h.perform_submit hr
    · obtain ⟨ht, hsame⟩ := (hagrees.timed.later ha hregular).submit hs
      exact ⟨ht, hsame.trans (hagrees.inProgressUntil h.run now)⟩
  | togglePause now =>
    obtain ⟨result, r', hr, hs, ho', -⟩ := ho.togglePause
    refine ⟨⟨⟨some r'⟩, now, w.inProgressUntil now⟩, r', ?_, ⟨rfl, ho'⟩, rfl,
      fun hagrees hregular => ?_⟩
    · simp only [Act.time] at hr
      simp only [Observation.perform, Tracker.perform, Tracker.togglePause, h.run, hr, bind,
        Except.bind, pure, Except.pure, Act.time]
    · obtain ⟨ht, hsame⟩ := (hagrees.timed.later ha hregular).toggle hs ho'
      exact ⟨ht, hsame.trans (hagrees.inProgressUntil h.run now)⟩

/-- Calls that are made in time never fault, and outside of leap seconds they keep the two clocks in
agreement. -/
theorem Sound.follow (h : w.Sound r) (ha : (w.last :: acts.map Act.time).Pairwise (· ≤ ·)) :
    ∃ w' r', w.follow acts = .ok w' ∧ w'.Sound r' ∧
      (w.Agrees r → (∀ a ∈ acts, a.time.Regular) → w'.Agrees r') := by
  induction acts generalizing w r with
  | nil => exact ⟨w, r, rfl, h, fun hagrees _ => hagrees⟩
  | cons a acts ih =>
    rw [List.map_cons, List.pairwise_cons] at ha
    obtain ⟨w₁, r₁, hw₁, h₁, hlast, hagrees₁⟩ := h.perform (ha.1 a.time List.mem_cons_self)
    obtain ⟨w', r', hw', h', hagrees'⟩ := ih h₁ (hlast ▸ ha.2)
    refine ⟨w', r', ?_, h', fun hagrees hregular => ?_⟩
    · rw [Observation.follow, List.foldlM_cons, hw₁]
      exact hw'
    · obtain ⟨hhead, htail⟩ := List.forall_mem_cons.mp hregular
      exact hagrees' (hagrees₁ hagrees hhead) htail

/-- Any number of answers at one instant are taken as long as they leave a problem. -/
theorem Sound.follow_replicate {k : Nat} (h : w.Sound r) (hagrees : w.Agrees r) (hlast : w.last = now)
    (hp : r.status = .inProgress) (hk : r.current + k < r.problems.length) (input : String) :
    ∃ w' r', w.follow (List.replicate k (.submit input now)) = .ok w' ∧ w'.Sound r' ∧
      w'.Agrees r' ∧ w'.last = now ∧ r'.status = .inProgress ∧ r'.problems = r.problems ∧
      r'.current = r.current + k := by
  subst hlast
  induction k generalizing w r with
  | zero => exact ⟨w, r, rfl, h, hagrees, rfl, hp, rfl, rfl⟩
  | succ k ih =>
    obtain ⟨s, r₁, hr, ho, hp₁, hproblems, hcurrent⟩ := h.ordered.advances hp (by omega) input
    obtain ⟨ht, hsame⟩ := hagrees.timed.submit (Run.submits_of_submit hr)
    have hagrees₁ : Agrees ⟨⟨some r₁⟩, w.last, w.inProgressUntil w.last⟩ r₁ :=
      ⟨ht, hsame.trans (hagrees.inProgressUntil h.run w.last)⟩
    obtain ⟨w', r', hw', h', hagrees', hlast, hp', hproblems', hcurrent'⟩ :=
      ih (w := ⟨⟨some r₁⟩, w.last, _⟩) ⟨rfl, ho⟩ hagrees₁ hp₁ (by rw [hproblems, hcurrent]; omega)
    refine ⟨w', r', ?_, h', hagrees', hlast, hp', hproblems'.trans hproblems, by omega⟩
    rw [List.replicate_succ, Observation.follow, List.foldlM_cons, h.perform_submit hr]
    exact hw'

theorem sound_start {t₀ t : Tracker} {c : Category} {problems : List Problem} {start : Instant}
    (h : t₀.startWith c problems start = (.ok (), t)) :
    ∃ r, Run.start c problems start = .ok r ∧ (Observation.mk t start 0).Sound r ∧
      (start.Regular → (Observation.mk t start 0).Agrees r) := by
  unfold startWith at h
  split at h
  case h_1 r hr =>
    cases h
    refine ⟨r, hr, ⟨rfl, Run.ordered_start hr⟩, fun hregular => ?_⟩
    obtain ⟨ht, hzero⟩ := Run.timed_start hr hregular
    exact ⟨ht, hzero⟩
  case h_2 => cases h

/-- The session and the active times that can be read at an instant. -/
structure Reads (w : Observation) (now : Instant) (s : Session) (e : ElapsedTimes) : Prop where
  session : w.tracker.session? = some s
  elapsed : w.tracker.elapsed now = .ok e
  completed : s.completed = true → ∀ later, w.tracker.elapsed later = .ok e

/-- What the active times of a run say at an instant after the last call. -/
structure Exact (w : Observation) (now : Instant) (s : Session) (e : ElapsedTimes) : Prop where
  inProgress : e.session.nanos = w.inProgressUntil now
  /-- A session with more answers than it can be completed with stays open after its last answer,
  and the second stopwatch with it. -/
  answered : s.completed = false → s.answers.length ≤ Session.maxAnswers →
    e.session.nanos = s.spentNanos + e.question.nanos
  paused : w.tracker.status = .paused →
    ∀ later, w.last ≤ later → later.Regular → w.tracker.elapsed later = .ok e
  completed : s.completed = true → s.totalTime.nanos = s.spentNanos

theorem Sound.elapsed (h : w.Sound r) (now : Instant) : w.tracker.elapsed now = r.elapsed now := by
  simp only [Tracker.elapsed, h.run]

theorem Sound.reads (h : w.Sound r) (now : Instant) : ∃ e, w.Reads now r.session e := by
  obtain ⟨e, he⟩ := h.ordered.elapsed now
  refine ⟨e, by simp [session?, h.run], (h.elapsed now).trans he, fun hc later => ?_⟩
  rw [h.elapsed later, Run.elapsed_of_completed hc now later, he]

theorem Agrees.exact {e : ElapsedTimes} (h : w.Agrees r) (hs : w.Sound r)
    (he : w.Reads now r.session e) (hn : w.last ≤ now) (hnow : now.Regular) :
    w.Exact now r.session e := by
  have ht := h.timed.later hn hnow
  have helapsed : r.elapsed now = .ok e := (hs.elapsed now).symm.trans he.elapsed
  obtain ⟨hactive, hanswered⟩ := ht.elapsed helapsed
  refine ⟨hactive.trans (h.inProgressUntil hs.run now), hanswered, fun hp later hl hregular => ?_,
    ht.final⟩
  have hp' : r.status = .paused := by
    simpa [Tracker.status, hs.run] using hp
  rw [hs.elapsed later, ht.elapsed_of_paused hp' (h.timed.later hl hregular), helapsed]

end Observation

/-- However a run goes on, no step and no reading of its times faults while the calls come in time,
and once it is completed the times stand. Outside of leap seconds the time of the run is the time
for which it was in progress, and the time spent on its answers together with the time of the
current problem, as long as there are no more answers than an average can be taken over; it stands
while the run is paused; and the time of a completed run was all spent on its answers. -/
theorem elapsed_exact {t₀ t : Tracker} {c : Category} {problems : List Problem} {start : Instant}
    {acts : List Act} (hstart : t₀.startWith c problems start = (.ok (), t))
    (htimes : (start :: acts.map Act.time).Pairwise (· ≤ ·)) :
    ∃ w, (Observation.mk t start 0).follow acts = .ok w ∧
      ∀ now, w.last ≤ now → ∃ s e, w.Reads now s e ∧
        ((∀ time ∈ start :: acts.map Act.time, time.Regular) → now.Regular → w.Exact now s e) := by
  obtain ⟨r₀, -, h₀, hagrees₀⟩ := Observation.sound_start hstart
  obtain ⟨w, r, hw, h, hagrees⟩ := h₀.follow htimes
  refine ⟨w, hw, fun now hnow => ?_⟩
  obtain ⟨e, he⟩ := h.reads now
  refine ⟨r.session, e, he, fun hregular hnow' => ?_⟩
  obtain ⟨hhead, htail⟩ := List.forall_mem_cons.mp hregular
  have hacts : ∀ a ∈ acts, a.time.Regular := fun a ha => htail _ (List.mem_map_of_mem ha)
  exact (hagrees (hagrees₀ hhead) hacts).exact h he hnow hnow'

/-- A run of one problem that pauses for three seconds and is completed ten seconds after its
start. -/
theorem elapsed_exact_of_pause :
    let problem : Problem := ⟨.mixed, "1 + 1", "2", none, .epoch⟩
    let acts : List Act := [.togglePause (second 5 (by decide)), .togglePause (second 8 (by decide)),
      .submit "2" (second 10 (by decide))]
    let t := (empty.startWith .mixed [problem] .epoch).2
    empty.startWith .mixed [problem] .epoch = (.ok (), t) ∧
      (Instant.epoch :: acts.map Act.time).Pairwise (· ≤ ·) ∧
      (∀ time ∈ Instant.epoch :: acts.map Act.time, time.Regular) ∧
      ∃ w, (Observation.mk t .epoch 0).follow acts = .ok w ∧
        ∀ now, w.last ≤ now → now.Regular → ∃ s e, w.Reads now s e ∧ w.Exact now s e := by
  intro problem acts t
  have hstart : empty.startWith .mixed [problem] .epoch = (.ok (), t) := rfl
  have htimes : (Instant.epoch :: acts.map Act.time).Pairwise (· ≤ ·) := by decide
  have hregular : ∀ time ∈ Instant.epoch :: acts.map Act.time, time.Regular := by decide
  obtain ⟨w, hw, hexact⟩ := elapsed_exact hstart htimes
  refine ⟨hstart, htimes, hregular, w, hw, fun now hnow hnow' => ?_⟩
  obtain ⟨s, e, hreads, he⟩ := hexact now hnow
  exact ⟨s, e, hreads, he hregular hnow'⟩

/-- A run, calls in time and a later instant at which the time of the run is not the time spent on
its answers together with the time of the current problem. -/
def Departs (problems : List Problem) (start : Instant) (acts : List Act) (now : Instant) : Prop :=
  ∃ t w s e, empty.startWith .mixed problems start = (.ok (), t) ∧
    (start :: (acts.map Act.time ++ [now])).Pairwise (· ≤ ·) ∧
    (Observation.mk t start 0).follow acts = .ok w ∧ w.Reads now s e ∧ s.completed = false ∧
    e.session.nanos ≠ s.spentNanos + e.question.nanos

/-- So it is after the last answer of a run with more problems than an average can be taken over. -/
theorem departs_of_many {n : Nat} {now : Instant} (hmany : Session.maxAnswers < n) (hfew : n ≤ maxCount)
    (hle : Instant.epoch ≤ now) (hregular : now.Regular) (hlater : 0 < now.count) (p : Problem)
    (input : String) :
    Departs (List.replicate n p) .epoch
      (List.replicate (n - 1) (.submit input .epoch) ++ [.submit input now]) now := by
  obtain ⟨r₀, hr₀, hlength, hcurrent₀, hp₀⟩ := Run.start_replicate (by omega) hfew p .epoch
  have hstart : empty.startWith .mixed (List.replicate n p) .epoch = (.ok (), ⟨some r₀⟩) := by
    rw [startWith, hr₀]
  obtain ⟨ht₀, hzero⟩ := Run.timed_start hr₀ (by decide)
  have htimes : (Instant.epoch :: ((List.replicate (n - 1) (Act.submit input .epoch) ++
      [Act.submit input now]).map Act.time ++ [now])).Pairwise (· ≤ ·) := by
    simp only [List.map_append, List.map_replicate, List.map_cons, List.map_nil, Act.time,
      List.append_assoc, List.cons_append, List.nil_append]
    rw [← List.cons_append, ← List.replicate_succ, List.pairwise_append]
    refine ⟨List.pairwise_replicate.mpr (Or.inr (Instant.le_refl _)),
      List.pairwise_pair.mpr (Instant.le_refl now), fun a ha b hb => ?_⟩
    have hb' : b = now := by simpa using hb
    rw [List.eq_of_mem_replicate ha, hb']
    exact hle
  -- one problem is left after all but one of the answers
  obtain ⟨w, r, hw, h, hagrees, hlast, hp, hproblems, hcurrent⟩ :=
    Observation.Sound.follow_replicate (w := ⟨⟨some r₀⟩, .epoch, 0⟩) (k := n - 1)
      ⟨rfl, Run.ordered_start hr₀⟩ ⟨ht₀, hzero⟩ rfl hp₀ (by omega) input
  have hn : r.problems.length = n := by rw [hproblems, hlength]
  have hbase := hagrees.timed.questionWatch.base
  rw [hlast] at hbase
  obtain ⟨error, r', e, hr, hopen, he, hne⟩ :=
    (hagrees.timed.later (hlast.symm ▸ hle) hregular).overruns hp (by omega) (by omega)
      (Int.lt_of_le_of_lt hbase hlater) input
  have hfollow : (Observation.mk ⟨some r₀⟩ .epoch 0).follow
      (List.replicate (n - 1) (.submit input .epoch) ++ [.submit input now]) =
        .ok ⟨⟨some r'⟩, now, w.inProgressUntil now⟩ := by
    rw [Observation.follow, List.foldlM_append, ← Observation.follow, hw]
    exact congrArg (· >>= pure) (h.perform_submit hr)
  exact ⟨_, _, r'.session, e, hstart, htimes, hfollow,
    ⟨rfl, he, fun hc => by cases hopen.symm.trans hc⟩, hopen, hne⟩

/-- With times that do not go back alone, the time of a run is not always the time spent on its
answers together with the time of the current problem. A run that starts in a leap second and has
its first answer after it has spent no time on the answer, but half a second on the whole when the
second problem has taken eight tenths; and a run over 2147483648 problems counts its refused last
answer twice. -/
theorem not_elapsed_exact :
    let sum : Problem := ⟨.mixed, "1 + 1", "2", none, .epoch⟩
    Departs [sum, sum] .inLeapSecond [.submit "2" .afterLeapSecond]
        ⟨1483228801, 0, by decide, by decide⟩ ∧
      Departs (List.replicate 2147483648 sum) .epoch (List.replicate 2147483647 (.submit "2" .epoch) ++
        [.submit "2" (second 1 (by decide))]) (second 1 (by decide)) := by
  intro sum
  refine ⟨⟨_, _, _, _, rfl, by decide, rfl, ⟨rfl, rfl, fun h => by cases h⟩, rfl, by decide⟩, ?_⟩
  exact departs_of_many (n := 2147483648) (by decide) (by decide) (by decide) (by decide) (by decide)
    sum "2"

end Tracker

end MentalMath
