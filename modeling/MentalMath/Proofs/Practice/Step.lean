import MentalMath.Practice.Tracker
import MentalMath.Proofs.Session

/-! What a step of a practice run can do. `Submits` and `Toggles` list the ways in which an answer
and a pause end, each with the facts that lead there, so that an invariant of runs is proved by going
through them. The holder of a run is followed in the same way, as far as its session goes. -/

namespace MentalMath

namespace Run

/-- A run starts exactly if there are problems, and no more than can be counted. -/
theorem start_eq_ok_iff {c : Category} {problems : List Problem} {now : Instant} {r : Run} :
    Run.start c problems now = .ok r ↔ (problems ≠ [] ∧ problems.length ≤ maxCount) ∧
      r = ⟨problems, 0, Session.start c problems.length now, Stopwatch.start now,
        Stopwatch.start now⟩ := by
  unfold Run.start
  split
  case isTrue h =>
    constructor
    · intro hr
      cases hr
    · rintro ⟨⟨hsome, hfew⟩, -⟩
      rcases h with h | h
      · exact absurd (List.isEmpty_iff.mp h) hsome
      · exact absurd hfew (Nat.not_le.mpr h)
  case isFalse h =>
    simp only [List.isEmpty_iff, not_or, Nat.not_lt] at h
    constructor
    · intro hr
      exact ⟨h, (Except.ok.inj hr).symm⟩
    · rintro ⟨-, rfl⟩
      rfl

/-- The ways in which handing a text in at an instant can end. -/
inductive Submits (r : Run) (input : String) (now : Instant) :
    Except RunError Submission → Run → Prop
  /-- The run is over. -/
  | closed (hc : r.session.completed = true) : Submits r input now (.error .completed) r
  /-- The run is paused. -/
  | paused (hc : r.session.completed = false) (hp : r.sessionWatch.isPaused = true) :
    Submits r input now (.error .paused) r
  /-- No problem waits for its answer. -/
  | exhausted (hc : r.session.completed = false) (hp : r.sessionWatch.isPaused = false)
      (hx : r.problems[r.current]? = none) : Submits r input now (.error .completed) r
  /-- The session refuses the answer. -/
  | refused (problem : Problem) (spent : Span) (e : SessionError)
      (hc : r.session.completed = false) (hp : r.sessionWatch.isPaused = false)
      (hx : r.problems[r.current]? = some problem) (hs : r.questionWatch.elapsed now = .ok spent)
      (hr : r.session.record (Answer.grade problem input spent now) = .error e) :
    Submits r input now (.error (.session e)) r
  /-- The answer is not the last one. -/
  | advanced (problem : Problem) (spent : Span) (session : Session)
      (hc : r.session.completed = false) (hp : r.sessionWatch.isPaused = false)
      (hx : r.problems[r.current]? = some problem) (hs : r.questionWatch.elapsed now = .ok spent)
      (hr : r.session.record (Answer.grade problem input spent now) = .ok session)
      (hl : r.current + 1 < r.problems.length) :
    Submits r input now (.ok ⟨Answer.grade problem input spent now, false⟩) (r.advance session now)
  /-- The answer is the last one, and the session refuses to be completed. -/
  | stuck (problem : Problem) (spent total : Span) (session : Session) (e : SessionError)
      (hc : r.session.completed = false) (hp : r.sessionWatch.isPaused = false)
      (hx : r.problems[r.current]? = some problem) (hs : r.questionWatch.elapsed now = .ok spent)
      (hr : r.session.record (Answer.grade problem input spent now) = .ok session)
      (hl : ¬r.current + 1 < r.problems.length) (ht : r.sessionWatch.elapsed now = .ok total)
      (hf : session.finalize now total = .error e) :
    Submits r input now (.error (.session e))
      { r with current := r.current + 1, session := session }
  /-- The answer is the last one and completes the session. -/
  | finished (problem : Problem) (spent total : Span) (session final : Session)
      (hc : r.session.completed = false) (hp : r.sessionWatch.isPaused = false)
      (hx : r.problems[r.current]? = some problem) (hs : r.questionWatch.elapsed now = .ok spent)
      (hr : r.session.record (Answer.grade problem input spent now) = .ok session)
      (hl : ¬r.current + 1 < r.problems.length) (ht : r.sessionWatch.elapsed now = .ok total)
      (hf : session.finalize now total = .ok final) :
    Submits r input now (.ok ⟨Answer.grade problem input spent now, true⟩)
      { r with current := r.current + 1, session := final }

/-- An answer that does not fault ends in one of the listed ways. -/
theorem submits_of_submit {r r' : Run} {input : String} {now : Instant}
    {result : Except RunError Submission} (h : r.submit input now = .ok (result, r')) :
    r.Submits input now result r' := by
  unfold submit at h
  split at h
  case isTrue hc =>
    cases h
    exact .closed hc
  case isFalse hc =>
  rw [Bool.not_eq_true] at hc
  split at h
  case isTrue hp =>
    cases h
    exact .paused hc hp
  case isFalse hp =>
  rw [Bool.not_eq_true] at hp
  split at h
  case h_1 hx =>
    cases h
    exact .exhausted hc hp hx
  case h_2 problem hx =>
  cases hs : r.questionWatch.elapsed now with
  | error f => simp [hs, bind, Except.bind] at h
  | ok spent =>
  simp only [hs, bind, Except.bind] at h
  split at h
  case h_1 e hr =>
    cases h
    exact .refused problem spent e hc hp hx hs hr
  case h_2 session hr =>
  split at h
  case isTrue hl =>
    cases h
    exact .advanced problem spent session hc hp hx hs hr hl
  case isFalse hl =>
  cases ht : r.sessionWatch.elapsed now with
  | error f => simp [ht] at h
  | ok total =>
  simp only [ht] at h
  split at h
  case h_1 e hf =>
    cases h
    exact .stuck problem spent total session e hc hp hx hs hr hl ht hf
  case h_2 final hf =>
    cases h
    exact .finished problem spent total session final hc hp hx hs hr hl ht hf

/-- The ways in which pausing a run or letting it go on can end. -/
inductive Toggles (r : Run) (now : Instant) : Except RunError RunStatus → Run → Prop
  /-- The run is over. -/
  | closed (hc : r.session.completed = true) : Toggles r now (.error .completed) r
  /-- Both stopwatches go on. -/
  | resumed (sessionPause questionPause : Option Span) (sessionWatch questionWatch : Stopwatch)
      (hc : r.session.completed = false) (hp : r.sessionWatch.isPaused = true)
      (hs : r.sessionWatch.resume now = .ok (sessionPause, sessionWatch))
      (hq : r.questionWatch.resume now = .ok (questionPause, questionWatch)) :
    Toggles r now (.ok .inProgress)
      { r with sessionWatch := sessionWatch, questionWatch := questionWatch }
  /-- Both stopwatches stop. -/
  | stopped (hc : r.session.completed = false) (hp : r.sessionWatch.isPaused = false) :
    Toggles r now (.ok .paused)
      { r with
        sessionWatch := (r.sessionWatch.pause now).2
        questionWatch := (r.questionWatch.pause now).2 }

theorem toggles_of_togglePause {r r' : Run} {now : Instant} {result : Except RunError RunStatus}
    (h : r.togglePause now = .ok (result, r')) : r.Toggles now result r' := by
  unfold togglePause at h
  split at h
  case isTrue hc =>
    cases h
    exact .closed hc
  case isFalse hc =>
  rw [Bool.not_eq_true] at hc
  split at h
  case isTrue hp =>
    cases hs : r.sessionWatch.resume now with
    | error f => simp [hs, bind, Except.bind] at h
    | ok resumed =>
    cases hq : r.questionWatch.resume now with
    | error f => simp [hs, hq, bind, Except.bind] at h
    | ok resumed' =>
    simp only [hs, hq, bind, Except.bind] at h
    cases h
    exact .resumed _ _ _ _ hc hp hs hq
  case isFalse hp =>
    cases h
    exact .stopped hc (by simpa using hp)

end Run

namespace Tracker

def answers (t : Tracker) : List Answer :=
  (t.session?.map Session.answers).getD []

@[simp]
theorem session?_withSessionId (t : Tracker) (id : SessionId) :
    (t.withSessionId id).session? = t.session?.map fun s => s.withId id := by
  cases t with | mk run =>
  cases run <;> rfl

@[simp]
theorem answers_withSessionId (t : Tracker) (id : SessionId) :
    (t.withSessionId id).answers = t.answers := by
  cases t with | mk run =>
  cases run <;> rfl

@[simp]
theorem status_withSessionId (t : Tracker) (id : SessionId) :
    (t.withSessionId id).status = t.status := by
  cases t with | mk run =>
  cases run <;> rfl

theorem completed_of_status {t : Tracker} {s : Session} (h : t.status = .completed)
    (hs : t.session? = some s) : s.completed = true := by
  cases t with | mk run =>
  cases run with
  | none => cases hs
  | some r =>
    cases hs
    cases hc : r.session.completed with
    | true => rfl
    | false =>
      cases hp : r.sessionWatch.isPaused <;> simp [status, Run.status, hc, hp] at h

/-- What an answer does to the answers of the run. -/
inductive Submits (t : Tracker) : Except RunError Submission → Tracker → Prop
  /-- It is refused. Only a session that cannot be completed holds it all the same. -/
  | refused (e : RunError) (t' : Tracker) (hid : t'.sessionId? = t.sessionId?)
      (hsub : t.answers.Sublist t'.answers) (hc : t.status = .completed → t' = t) :
    Submits t (.error e) t'
  /-- It is accepted by a run that is not completed. -/
  | accepted (s : Submission) (t' : Tracker) (hid : t'.sessionId? = t.sessionId?)
      (hanswers : t'.answers = t.answers ++ [s.answer]) (hopen : t.status ≠ .completed)
      (hc : s.isComplete = true → t'.status = .completed) : Submits t (.ok s) t'

theorem submits_of_submit {t t' : Tracker} {input : String} {now : Instant}
    {result : Except RunError Submission} (h : t.submit input now = .ok (result, t')) :
    t.Submits result t' := by
  cases t with | mk run =>
  cases run with
  | none =>
    cases h
    exact .refused _ _ rfl (List.Sublist.refl _) fun _ => rfl
  | some r =>
  simp only [submit] at h
  cases hr : r.submit input now with
  | error f => simp [hr, bind, Except.bind] at h
  | ok after =>
  obtain ⟨result', r'⟩ := after
  simp only [hr, bind, Except.bind] at h
  cases h
  cases Run.submits_of_submit hr with
  | closed | paused | exhausted | refused =>
    exact .refused _ _ rfl (List.Sublist.refl _) fun _ => rfl
  | advanced problem spent session hc hp hx hs hrec hl =>
    obtain ⟨-, -, rfl⟩ := Session.record_eq_ok_iff.mp hrec
    refine .accepted _ _ rfl rfl ?_ fun h' => nomatch h'
    simp [status, Run.status, hc, hp]
  | stuck problem spent total session e hc hp hx hs hrec hl ht hf =>
    obtain ⟨-, -, rfl⟩ := Session.record_eq_ok_iff.mp hrec
    refine .refused _ _ rfl (List.sublist_append_left _ _) fun h' => ?_
    simp [status, Run.status, hc, hp] at h'
  | finished problem spent total session final hc hp hx hs hrec hl ht hf =>
    obtain ⟨-, -, rfl⟩ := Session.record_eq_ok_iff.mp hrec
    obtain ⟨-, -, -, rfl⟩ := Session.finalize_eq_ok_iff.mp hf
    refine .accepted _ _ rfl rfl ?_ fun _ => rfl
    simp [status, Run.status, hc, hp]

/-- A pause keeps the session of the run. -/
theorem session?_of_togglePause {t t' : Tracker} {now : Instant} {result : Except RunError RunStatus}
    (h : t.togglePause now = .ok (result, t')) :
    t'.session? = t.session? ∧ (t.status = .completed → t' = t) := by
  cases t with | mk run =>
  cases run with
  | none =>
    cases h
    exact ⟨rfl, fun _ => rfl⟩
  | some r =>
  simp only [togglePause] at h
  cases hr : r.togglePause now with
  | error f => simp [hr, bind, Except.bind] at h
  | ok after =>
  obtain ⟨result', r'⟩ := after
  simp only [hr, bind, Except.bind] at h
  cases h
  cases Run.toggles_of_togglePause hr with
  | closed hc => exact ⟨rfl, fun _ => rfl⟩
  | resumed _ _ _ _ hc hp => exact ⟨rfl, fun h' => by simp [status, Run.status, hc, hp] at h'⟩
  | stopped hc hp => exact ⟨rfl, fun h' => by simp [status, Run.status, hc, hp] at h'⟩

/-- A run that was just started is not stored. -/
theorem sessionId?_of_start {c : Category} {problems : List Problem} {now : Instant} {r : Run}
    (h : Run.start c problems now = .ok r) : (Tracker.mk (some r)).sessionId? = none := by
  obtain ⟨-, rfl⟩ := Run.start_eq_ok_iff.mp h
  rfl

/-- The session of the run, if there is one, is coherent. -/
def Coherent (t : Tracker) : Prop :=
  ∀ s, t.session? = some s → s.Coherent

theorem coherent_empty : empty.Coherent :=
  fun _ hs => nomatch hs

theorem Coherent.submit {t t' : Tracker} {input : String} {now : Instant}
    {result : Except RunError Submission} (h : t.Coherent)
    (hs : t.submit input now = .ok (result, t')) : t'.Coherent := by
  cases t with | mk run =>
  cases run with
  | none =>
    cases hs
    exact h
  | some r =>
  simp only [Tracker.submit] at hs
  cases hr : r.submit input now with
  | error f => simp [hr, bind, Except.bind] at hs
  | ok after =>
  obtain ⟨result', r'⟩ := after
  simp only [hr, bind, Except.bind] at hs
  cases hs
  have hold : r.session.Coherent := h r.session rfl
  intro s hs
  cases hs
  have hgraded := Answer.isGraded_grade
  cases Run.submits_of_submit hr with
  | closed | paused | exhausted | refused => exact hold
  | advanced problem spent session hc hp hx hs hrec hl =>
    exact hold.record (hgraded problem input spent now) hrec
  | stuck problem spent total session e hc hp hx hs hrec hl ht hf =>
    exact hold.record (hgraded problem input spent now) hrec
  | finished problem spent total session final hc hp hx hs hrec hl ht hf =>
    exact (hold.record (hgraded problem input spent now) hrec).finalize hf

theorem Coherent.togglePause {t t' : Tracker} {now : Instant} {result : Except RunError RunStatus}
    (h : t.Coherent) (ht : t.togglePause now = .ok (result, t')) : t'.Coherent := by
  intro s hs
  rw [(session?_of_togglePause ht).1] at hs
  exact h s hs

theorem coherent_of_start {c : Category} {problems : List Problem} {now : Instant} {r : Run}
    (h : Run.start c problems now = .ok r) : (Tracker.mk (some r)).Coherent := by
  obtain ⟨⟨-, hfew⟩, rfl⟩ := Run.start_eq_ok_iff.mp h
  intro s hs
  cases hs
  exact Session.coherent_start hfew c now

end Tracker

end MentalMath
