import MentalMath.Proofs.Practice.Operation
import MentalMath.Proofs.Time.Stopwatch

/-! What a run records, for times in any order. `Run.Consistent` is what every operation keeps: the
answers so far belong to the problems before the current one, and the two stopwatches stop and go on
together. `Run.Orderly` and `Tracker.Orderly` are what follows from it about the answers, their
counts and a completed session. -/

namespace MentalMath

/-- An answer that grades a text against a problem, with the time spent on it. -/
structure Answer.Grades (a : Answer) (p : Problem) : Prop where
  expression : a.expression = p.expression
  correctAnswer : a.correctAnswer = p.answer
  category : a.category = p.category
  isCorrect : a.isCorrect = true ↔ a.userAnswer = a.correctAnswer
  timeSpent : 0 ≤ a.timeSpent.nanos

namespace Answer

theorem grades_grade (p : Problem) (input : String) {spent : Span} (now : Instant)
    (h : 0 ≤ spent.nanos) : (grade p input spent now).Grades p := by
  refine ⟨rfl, rfl, rfl, ?_, h⟩
  simp [grade, Problem.isCorrect]

/-- Each answer grades the problem at its place. -/
def InTurn (answers : List Answer) (problems : List Problem) : Prop :=
  ∀ (i : Nat) (a : Answer), answers[i]? = some a →
    ∃ p : Problem, problems[i]? = some p ∧ a.Grades p

theorem InTurn.append {answers : List Answer} {problems : List Problem} {a : Answer} {p : Problem}
    (h : InTurn answers problems) (hp : problems[answers.length]? = some p) (ha : a.Grades p) :
    InTurn (answers ++ [a]) problems := by
  intro i b hb
  rcases Nat.lt_trichotomy i answers.length with hi | hi | hi
  · rw [List.getElem?_append_left hi] at hb
    exact h i b hb
  · rw [hi, List.getElem?_concat_length] at hb
    cases hb
    exact ⟨p, by rw [hi]; exact hp, ha⟩
  · rw [List.getElem?_eq_none (by rw [List.length_append, List.length_singleton]; omega)] at hb
    cases hb

end Answer

/-- The session with one more answer, its right answers counted anew. -/
def Session.withAnswer (s : Session) (a : Answer) : Session :=
  { s with answers := s.answers ++ [a], correct := countCorrect (s.answers ++ [a]) }

namespace Run

/-- The session of a run is over: there is an answer to each problem, not more than an average can
be taken over, and the session ends no earlier than it starts. -/
structure Ended (r : Run) : Prop where
  all : r.current = r.problems.length
  few : r.problems.length ≤ Session.maxAnswers
  endedAt : ∃ ended, r.session.endedAt = some ended ∧ r.session.startedAt ≤ ended ∧
    0 ≤ r.session.totalTime.nanos ∧
    r.session.totalTime.nanos ≤ max (ended.since r.session.startedAt).nanos 0

/-- What every operation on a run keeps. -/
structure Consistent (r : Run) : Prop where
  few : r.problems.length ≤ maxCount
  total : r.session.total = r.problems.length
  answered : r.session.answers.length = r.current
  within : r.current ≤ r.problems.length
  grades : Answer.InTurn r.session.answers r.problems
  counted : r.session.correct = Session.countCorrect r.session.answers
  started : r.sessionWatch.startedAt = r.session.startedAt
  pauses : 0 ≤ r.sessionWatch.pausedTotal.nanos
  lap : 0 ≤ r.questionWatch.pausedTotal.nanos
  phase : r.questionWatch.phase = r.sessionWatch.phase
  ended : r.session.completed = true → r.Ended

variable {r r' : Run} {input : String} {now : Instant}

theorem consistent_start {c : Category} {problems : List Problem}
    (h : start c problems now = .ok r) : r.Consistent := by
  obtain ⟨⟨-, hfew⟩, rfl⟩ := start_eq_ok_iff.mp h
  refine ⟨hfew, rfl, rfl, Nat.zero_le _, ?_, rfl, rfl, Int.le_refl 0, Int.le_refl 0, rfl, ?_⟩
  · intro i a ha
    simp [Session.start] at ha
  · intro hc
    cases hc

theorem Consistent.withSessionId (h : r.Consistent) (id : SessionId) :
    (r.withSessionId id).Consistent :=
  ⟨h.few, h.total, h.answered, h.within, h.grades, h.counted, h.started, h.pauses, h.lap, h.phase,
    fun hc => ⟨(h.ended hc).all, (h.ended hc).few, (h.ended hc).endedAt⟩⟩

theorem Consistent.countCorrect_le (h : r.Consistent) :
    Session.countCorrect r.session.answers ≤ r.current := by
  have hle := Session.countCorrect_le r.session.answers
  rw [h.answered] at hle
  exact hle

/-- A session with a problem left takes any answer. -/
theorem Consistent.record (h : r.Consistent) (hc : r.session.completed = false)
    (hl : r.current < r.problems.length) (a : Answer) :
    r.session.record a = .ok (r.session.withAnswer a) := by
  refine Session.record_eq_ok_iff.mpr ⟨hc, ?_, ?_⟩
  · have htotal := h.total
    have hanswered := h.answered
    simp only [Session.answered]
    omega
  · have hcorrect : Session.countCorrect (r.session.answers ++ [a]) =
        if a.isCorrect then Count.next r.session.correct else r.session.correct := by
      have hle := h.countCorrect_le
      have hfew := h.few
      rw [Session.countCorrect_append, ← h.counted]
      rw [← h.counted] at hle
      cases ha : a.isCorrect with
      | false => simp [Session.countCorrect, ha]
      | true =>
        simp only [Session.countCorrect, List.countP_singleton, ha, if_true, Count.next]
        omega
    rw [Session.withAnswer, hcorrect]

theorem Consistent.eq_withAnswer (h : r.Consistent) (hc : r.session.completed = false)
    {p : Problem} (hx : r.problems[r.current]? = some p) {a : Answer} {s : Session}
    (hs : r.session.record a = .ok s) : s = r.session.withAnswer a := by
  rw [h.record hc (List.getElem?_eq_some_iff.mp hx).1] at hs
  exact (Except.ok.inj hs).symm

theorem Consistent.length_withAnswer (h : r.Consistent) (a : Answer) :
    (r.session.withAnswer a).answers.length = r.current + 1 := by
  rw [Session.withAnswer, List.length_append, List.length_singleton, h.answered]

/-- Whatever comes of an answer, the run stays consistent. -/
theorem Consistent.submit {result : Except RunError Submission} (h : r.Consistent)
    (hs : r.Submits input now result r') : r'.Consistent := by
  cases hs with
  | closed | paused | exhausted | refused => exact h
  | advanced problem spent session hc hp hx hspent hrec hl =>
    have hle := (Stopwatch.elapsed_bounds h.lap hspent).1
    obtain rfl := h.eq_withAnswer hc hx hrec
    have hph := Stopwatch.isPaused_eq_false_iff.mp hp
    refine ⟨h.few, h.total, h.length_withAnswer _, Nat.le_of_lt hl, ?_, rfl, h.started, h.pauses,
      Int.le_refl 0, hph.symm, ?_⟩
    · exact h.grades.append (h.answered ▸ hx) (Answer.grades_grade problem input now hle)
    · intro hcompleted
      cases hc.symm.trans hcompleted
  | stuck problem spent total session e hc hp hx hspent hrec hl ht hf =>
    have hlt := (List.getElem?_eq_some_iff.mp hx).1
    have hle := (Stopwatch.elapsed_bounds h.lap hspent).1
    obtain rfl := h.eq_withAnswer hc hx hrec
    refine ⟨h.few, h.total, h.length_withAnswer _, hlt, ?_, rfl, h.started, h.pauses, h.lap, h.phase,
      ?_⟩
    · exact h.grades.append (h.answered ▸ hx) (Answer.grades_grade problem input now hle)
    · intro hcompleted
      cases hc.symm.trans hcompleted
  | finished problem spent total session final hc hp hx hspent hrec hl ht hf =>
    have hlt := (List.getElem?_eq_some_iff.mp hx).1
    have hle := (Stopwatch.elapsed_bounds h.lap hspent).1
    obtain rfl := h.eq_withAnswer hc hx hrec
    obtain ⟨-, hnow, hmax, rfl⟩ := Session.finalize_eq_ok_iff.mp hf
    refine ⟨h.few, h.total, h.length_withAnswer _, hlt, ?_, rfl, h.started, h.pauses, h.lap, h.phase,
      fun _ => ?_⟩
    · exact h.grades.append (h.answered ▸ hx) (Answer.grades_grade problem input now hle)
    · have hlength := h.length_withAnswer (.grade problem input spent now)
      have hall : r.current + 1 = r.problems.length := by omega
      have hbounds := Stopwatch.elapsed_bounds h.pauses ht
      rw [h.started] at hbounds
      refine ⟨hall, ?_, now, rfl, Instant.le_of_not_lt hnow, hbounds⟩
      rw [← hall, ← hlength]
      exact hmax

/-- Whatever comes of a pause, the run stays consistent. -/
theorem Consistent.toggle {result : Except RunError RunStatus} (h : r.Consistent)
    (hs : r.Toggles now result r') : r'.Consistent := by
  cases hs with
  | closed => exact h
  | resumed sp qp sw qw hc hp hs hq =>
    obtain ⟨hstart, hsum, hrun⟩ := Stopwatch.resume_snd hs
    obtain ⟨-, hsum', hrun'⟩ := Stopwatch.resume_snd hq
    refine ⟨h.few, h.total, h.answered, h.within, h.grades, h.counted, hstart.trans h.started,
      Int.le_trans h.pauses hsum, Int.le_trans h.lap hsum', hrun'.trans hrun.symm, ?_⟩
    intro hcompleted
    cases hc.symm.trans hcompleted
  | stopped hc hp =>
    obtain ⟨hstart, hsum⟩ := r.sessionWatch.pause_snd now
    obtain ⟨-, hsum'⟩ := r.questionWatch.pause_snd now
    have hph := Stopwatch.isPaused_eq_false_iff.mp hp
    have hqh := h.phase.trans hph
    refine ⟨h.few, h.total, h.answered, h.within, h.grades, h.counted, hstart.trans h.started,
      hsum.symm ▸ h.pauses, hsum'.symm ▸ h.lap, ?_, ?_⟩
    · simp only [Stopwatch.pause, hph, hqh]
    · intro hcompleted
      cases hc.symm.trans hcompleted

/-- What a run records. -/
structure Orderly (r : Run) : Prop where
  answered : r.session.answers.length = r.current ∧ r.current ≤ r.problems.length ∧
    r.problems.length = r.session.total
  grades : Answer.InTurn r.session.answers r.problems
  watches : r.sessionWatch.isPaused = r.questionWatch.isPaused
  /-- The times of a session that starts in a leap second may count backwards up to its end; no time
  was spent on it then. -/
  completed : r.session.completed = true → r.session.answers.length = r.problems.length ∧
    ∃ ended, r.session.endedAt = some ended ∧ r.session.startedAt ≤ ended ∧
      0 ≤ r.session.totalTime.nanos ∧
      r.session.totalTime.nanos ≤ max (ended.since r.session.startedAt).nanos 0 ∧
      (r.session.startedAt.Regular →
        r.session.totalTime.nanos ≤ (ended.since r.session.startedAt).nanos)
  /-- While a problem waits, its session takes any answer. -/
  records : r.session.completed = false → r.problems[r.current]?.isSome = true →
    ∀ a, ∃ s, r.session.record a = .ok s

theorem Consistent.orderly (h : r.Consistent) : r.Orderly := by
  have hanswered := h.answered
  refine ⟨⟨hanswered, h.within, h.total.symm⟩, h.grades, ?_, ?_, ?_⟩
  · simp only [Stopwatch.isPaused, h.phase]
  · intro hc
    obtain ⟨hall, -, ended, hended, hstart, hzero, htotal⟩ := h.ended hc
    refine ⟨hanswered.trans hall, ended, hended, hstart, hzero, htotal, fun hregular => ?_⟩
    have hspan := Instant.since_nonneg_of_le hstart hregular
    omega
  · intro hc hx a
    obtain ⟨p, hp⟩ := Option.isSome_iff_exists.mp hx
    exact ⟨_, h.record hc (List.getElem?_eq_some_iff.mp hp).1 a⟩

theorem Consistent.correct_eq (h : r.Consistent) :
    r.session.correct = (r.session.answers.filter (·.isCorrect)).length := by
  rw [h.counted, Session.countCorrect, List.countP_eq_length_filter]

theorem Consistent.correct_add_wrong (h : r.Consistent) :
    r.session.correct + r.session.wrong = r.session.answers.length := by
  have hanswered := h.answered
  have hwithin := h.within
  have hfew := h.few
  have hle := h.countCorrect_le
  have hcounted := h.counted
  simp only [Session.wrong, Session.answered]
  omega

end Run

namespace Tracker

/-- What a holder tells of its run. -/
structure Orderly (t : Tracker) (r : Run) : Prop where
  run : r.Orderly
  currentIndex : t.currentIndex = r.session.answers.length
  correctCount : t.correctCount = (r.session.answers.filter (·.isCorrect)).length
  wrongCount : t.correctCount + t.wrongCount = r.session.answers.length

/-- Every run that operations lead to is consistent. -/
theorem Reachable.consistent {t : Tracker} (h : t.Reachable) :
    ∀ r, t.run = some r → r.Consistent := by
  refine h.keeps (P := fun t => ∀ r, t.run = some r → r.Consistent) ?_ ?_
  · intro r hr
    cases hr
  · intro t op result t' ht ho
    cases ho with
    | unstarted | absent => exact ht
    | started _ c problems now r hop hr =>
      intro r' hr'
      cases hr'
      exact Run.consistent_start hr
    | submitted input now r r' result hrun hs =>
      intro r₁ hr₁
      cases hr₁
      exact (ht r hrun).submit hs
    | toggled now r r' result hrun hs =>
      intro r₁ hr₁
      cases hr₁
      exact (ht r hrun).toggle hs
    | reset =>
      intro r hr
      cases hr
    | numbered id =>
      intro r hr
      obtain ⟨r₀, hr₀, rfl⟩ := Option.map_eq_some_iff.mp hr
      exact (ht r₀ hr₀).withSessionId id

/-- Whatever operations lead to a run, at times in any order: it has an answer to each problem
before the current one, which grades the text that was handed in; the holder counts the right and
the wrong ones; the stopwatches of the run stop and go on together; a problem that waits can be
answered; and a completed session has all answers, does not end before its start and took no longer
than from start to end, if it does not start in a leap second. -/
theorem orderly_of_reachable {t : Tracker} (h : t.Reachable) :
    ∀ r, t.run = some r → t.Orderly r := by
  intro r hr
  have hconsistent := h.consistent r hr
  refine ⟨hconsistent.orderly, ?_, ?_, ?_⟩
  · simp only [currentIndex, hr, hconsistent.answered]
  · simp only [correctCount, session?, hr, Option.map_some, Option.getD_some]
    exact hconsistent.correct_eq
  · simp only [correctCount, wrongCount, session?, hr, Option.map_some, Option.getD_some]
    exact hconsistent.correct_add_wrong

/-- A run that takes the place of another one is paused and completed while its clock is turned back
twice. -/
theorem orderly_of_turned_clock :
    let sum : Problem := ⟨.mixed, "1 + 1", "2", none, .epoch⟩
    let product : Problem := ⟨.mixed, "2 × 3", "6", none, .epoch⟩
    let ops : List Operation := [.startWith .mixed [sum] (second 50 (by decide)),
      .startWith .mixed [sum, product] (second 20 (by decide)), .withSessionId ⟨7⟩,
      .submit "3" (second 10 (by decide)), .togglePause (second 40 (by decide)),
      .submit "6" (second 41 (by decide)), .togglePause (second 30 (by decide)),
      .submit "6" (second 45 (by decide))]
    ∃ last, (follow ops empty).toOption = some last ∧
      last.2.session?.map (fun s => (s.completed, s.totalTime.nanos)) =
        some (true, 25000000000) ∧
      ∀ r, last.2.run = some r → last.2.Orderly r := by
  intro sum product ops
  have hend : (follow ops empty).toOption.map (fun last =>
      last.2.session?.map fun s => (s.completed, s.totalTime.nanos)) =
        some (some (true, 25000000000)) := by
    decide +kernel
  obtain ⟨last, hlast, hs⟩ := Option.map_eq_some_iff.mp hend
  have hreachable : last.2.Reachable := reachable_of_follow hlast
  exact ⟨last, hlast, hs, orderly_of_reachable hreachable⟩

/-- A session that starts in a leap second and is completed after it took no time, which is longer
than from its start to its end: by the counts, the end comes three tenths of a second before the
start. -/
theorem not_within_of_leap_second :
    let sum : Problem := ⟨.mixed, "1 + 1", "2", none, .epoch⟩
    let ops : List Operation := [.startWith .mixed [sum] .inLeapSecond, .submit "2" .afterLeapSecond]
    ∃ results t s ended, follow ops empty = .ok (results, t) ∧ t.session? = some s ∧
      s.completed = true ∧ s.endedAt = some ended ∧ s.startedAt ≤ ended ∧
      ¬s.totalTime.nanos ≤ (ended.since s.startedAt).nanos :=
  ⟨_, _, _, _, rfl, rfl, rfl, rfl, by decide, by decide⟩

end Tracker

end MentalMath
