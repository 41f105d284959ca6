import MentalMath.Proofs.Practice.Lifecycle
import MentalMath.Proofs.Practice.Recording
import MentalMath.Proofs.Shell.Script
import MentalMath.Shell.Terminal

/-! The practice command over a whole script of lines and ticks. Beside the run, the store holds its
session with the answers so far. One event after the other keeps this, up to the end of the script or of
the run; so one session is left in the store, with the answers that the script alone tells. -/

namespace MentalMath.Shell

open SessionTable LawfulSessionTable

/-! ### A run that waits -/

section Waits

variable {σ : Type} [SessionTable σ]

/-- A run that waits for the answer to its next problem, and a store that has kept up with it. -/
structure Waits (m : σ) (x : Exercise) (texts : List (String × Instant)) (last : Instant) (r : Run)
    (m' : σ) : Prop where
  few : x.problems.length ≤ Session.maxAnswers
  problems : r.problems = x.problems
  inTime : r.InTime texts.length last
  waiting : r.session.completed = false
  coherent : r.session.Coherent
  recorded : x.Recorded texts r.session
  stored : ∃ id, r.session.id = some id ∧ Added m id r.session m'

variable {m m' m'' : σ} {x : Exercise} {texts : List (String × Instant)} {last now : Instant} {r : Run}
  {id : SessionId} {p : Problem} {text : String} {spent : Span} {session : Session}

/-- The run of an exercise at its start. -/
def Exercise.begin (x : Exercise) : Run :=
  ⟨x.problems, 0, Session.start x.category x.problems.length x.start, Stopwatch.start x.start,
    Stopwatch.start x.start⟩

theorem Exercise.start_eq_begin (x : Exercise) (hsome : x.problems ≠ [])
    (hfew : x.problems.length ≤ Session.maxAnswers) :
    Run.start x.category x.problems x.start = .ok x.begin :=
  Run.start_eq_ok_iff.mpr ⟨⟨hsome, Nat.le_trans hfew (by decide)⟩, rfl⟩

/-- Once its session is stored, a run waits for the answer to its first problem. -/
theorem waits_begin {id : SessionId} (hsome : x.problems ≠ [])
    (hfew : x.problems.length ≤ Session.maxAnswers)
    (hadded : Added m id (x.begin.withSessionId id).session m') :
    Waits m x [] x.start (x.begin.withSessionId id) m' := by
  have hcount : x.problems.length ≤ maxCount := Nat.le_trans hfew (by decide)
  have hunanswered : x.Recorded [] (x.begin.withSessionId id).session := by
    refine ⟨rfl, rfl, rfl, List.zipWith_nil_right.symm, fun hc => (nomatch hc), fun hle => ?_⟩
    exact absurd (List.length_pos_iff.mpr hsome) (Nat.not_lt.mpr hle)
  exact {
    few := hfew
    problems := rfl
    inTime := (Run.inTime_start (x.start_eq_begin hsome hfew)).withSessionId id
    waiting := rfl
    coherent := (Session.coherent_start hcount x.category x.start).withId id
    recorded := hunanswered
    stored := ⟨id, rfl, hadded⟩ }

theorem Waits.later (h : Waits m x texts last r m') (hn : last ≤ now) : Waits m x texts now r m' :=
  { h with inTime := h.inTime.later hn }

theorem Waits.not_overfull (h : Waits m x texts last r m') : ¬r.Overfull := by
  rintro ⟨hmany, -⟩
  rw [h.problems] at hmany
  exact absurd h.few (Nat.not_le.mpr hmany)

theorem Waits.current (h : Waits m x texts last r m') : r.current = texts.length := by
  obtain ⟨-, hcurrent | ⟨-, hmany⟩⟩ := h.inTime.waiting h.waiting
  · exact hcurrent
  · rw [h.problems] at hmany
    exact absurd h.few (Nat.not_le.mpr hmany)

theorem Waits.exists_problem (h : Waits m x texts last r m') :
    ∃ p, r.problems[r.current]? = some p ∧ x.problems[texts.length]? = some p := by
  have hlt := h.inTime.lt h.waiting h.not_overfull
  have hx := List.getElem?_eq_getElem hlt
  exact ⟨_, hx, by rw [← h.problems, ← h.current, hx]⟩

theorem Waits.elapsed (h : Waits m x texts last r m') (now : Instant) :
    ∃ times, r.elapsed now = .ok times :=
  h.inTime.ordered.elapsed now

/-- A run that has taken an answer waits for the next one. -/
theorem Waits.advanced (h : Waits m x texts now r m')
    (hid : r.session.id = some id) (hx : x.problems[texts.length]? = some p)
    (hl : texts.length + 1 < x.problems.length)
    (hr : r.session.record (Answer.grade p (p.resolve text) spent now) = .ok session)
    (hin : (r.advance session now).InTime (texts.length + 1) now) (hadded : Added m id session m'') :
    Waits m x (texts ++ [(text, now)]) now (r.advance session now) m'' := by
  have hlength : (texts ++ [(text, now)]).length = texts.length + 1 := List.length_append
  rw [← hlength] at hin
  exact {
    few := h.few
    problems := h.problems
    inTime := hin
    waiting := (Session.completed_of_record hr).trans h.waiting
    coherent := h.coherent.record (Answer.isGraded_grade p (p.resolve text) spent now) hr
    recorded := h.recorded.record hx hl hr
    stored := ⟨id, (Session.id_of_record hr).trans hid, hadded⟩ }

end Waits

/-! ### What is printed -/

section Programs

variable {σ : Type} [Store σ] {m' m'' : σ} {id : SessionId} {sub : Submission} {now : Instant}
  {r r' : Run} {d : Desk} {text : String}

theorem submit_of_run (hd : d.tracker = ⟨some r⟩) {input : String}
    (hs : r.submit input now = .ok (.ok sub, r')) :
    Practice.submit d.tracker input now = .ok (do
      let (a, t) ← Practice.record ⟨some r'⟩ sub
      return (.ok a, t)) := by
  have hsubmit : d.tracker.submit input now = .ok (.ok sub, ⟨some r'⟩) := by
    simp only [hd, Tracker.submit, hs, bind, Except.bind]
    rfl
  simp only [Practice.submit, hsubmit, bind, Except.bind]
  rfl

/-- An answer that is not the last one is graded, and the next problem waits. -/
theorem run_answer_next {mistakeId : Option MistakeId} (hd : d.tracker = ⟨some r⟩)
    (hs : r.submit (d.resolve text) now = .ok (.ok sub, r'))
    (hrecord : (Practice.record ⟨some r'⟩ sub).run m' =
      ((⟨sub.answer, false, mistakeId, none⟩, ⟨some r'⟩), m'')) :
    (d.answer text now).run m' = (.waiting (Report.grade sub.answer ++ Report.problem ⟨some r'⟩)
      { d with tracker := ⟨some r'⟩ }, m'') := by
  simp only [Desk.answer, submit_of_run hd hs, Program.run_bind, hrecord, Program.run_pure,
    Bool.false_eq_true, if_false]

/-- The last answer is graded and followed by the summary. -/
theorem run_answer_last {mistakeId : Option MistakeId} (hd : d.tracker = ⟨some r⟩)
    (hs : r.submit (d.resolve text) now = .ok (.ok sub, r'))
    (hrecord : (Practice.record ⟨some r'⟩ sub).run m' =
      ((⟨sub.answer, true, mistakeId, some id⟩, ⟨some r'⟩), m'')) :
    (d.answer text now).run m' = (⟨textOf (Report.grade sub.answer) ++
      textOf (Report.summary r'.session), "", .exit 0⟩, m'') := by
  have hsummary : Desk.summary ⟨some r'⟩ = Report.summary r'.session := rfl
  simp only [Desk.answer, submit_of_run hd hs, Program.run_bind, hrecord, Program.run_pure, if_true,
    Desk.finish, hsummary, Reply.after, Reply.done]

theorem answer_of_paused (hd : d.tracker = ⟨some r⟩) (hopen : r.session.completed = false)
    (hp : r.sessionWatch.isPaused = true) :
    d.answer text now = return .waiting Report.paused { d with tracker := ⟨some r⟩ } := by
  have hs : d.tracker.submit (d.resolve text) now = .ok (.error .paused, ⟨some r⟩) := by
    simp only [hd, Tracker.submit, Run.submit, hopen, hp, bind, Except.bind]
    rfl
  simp only [Desk.answer, Practice.submit, hs, bind, Except.bind]
  rfl

end Programs

/-! ### Events -/

section Events

variable {σ : Type} [Store σ] [SessionTable σ]

/-- How a call that practices ends: with one more session in the store, which records the texts that
were handed in, is returned as it is shown, and is summed up last if it is completed. -/
structure Concludes (m : σ) (x : Exercise) (texts : List (String × Instant))
    (result : Outcome × σ) : Prop where
  code : result.1.code = 0
  err : result.1.err = ""
  stored : ∃ id s, Added m id s result.2 ∧ x.Recorded texts s ∧
    (Store.serve (.getSession id) result.2).1 = .ok ((shown σ s).withId id) ∧
    ∃ said, result.1.out = said ++ textOf (if s.completed then Report.summary s else Report.abandoned)

/-- What comes of an event while a run waits: it waits again, or the command is over. -/
inductive Proceeds (m : σ) (x : Exercise) (texts : List (String × Instant)) (paused : Bool)
    (e : Event) : Reply Desk × σ → Prop
  | waits (out : String) (d : Desk) (r : Run) (m' : σ) (more : List (String × Instant))
      (hd : d.tracker = ⟨some r⟩) (hw : Waits m x (texts ++ more) e.time r m')
      (hmore : ∀ events,
        heard paused (e :: events) = more ++ heard r.sessionWatch.isPaused events) :
    Proceeds m x texts paused e (⟨out, "", .waits d⟩, m')
  | ended (out : String) (m' : σ)
      (hc : ∀ events, Concludes m x (texts ++ heard paused (e :: events)) (⟨0, out, ""⟩, m')) :
    Proceeds m x texts paused e (⟨out, "", .exit 0⟩, m')

variable {m m' m'' : σ} {x : Exercise} {texts : List (String × Instant)} {last now : Instant} {r : Run}
  {d : Desk} {e : Event} {out text : String} {id : SessionId}

/-- An event that hands nothing in and leaves the run as it is. -/
theorem Waits.stays (h : Waits m x texts e.time r m') (hd : d.tracker = ⟨some r⟩)
    (hquiet : ∀ events, heard r.sessionWatch.isPaused (e :: events) =
      heard r.sessionWatch.isPaused events) :
    Proceeds m x texts r.sessionWatch.isPaused e (⟨out, "", .waits d⟩, m') :=
  .waits out d r m' [] hd (by rwa [List.append_nil]) hquiet

theorem Waits.tick (h : Waits m x texts now r m') (hd : d.tracker = ⟨some r⟩) :
    Proceeds m x texts r.sessionWatch.isPaused (.tick now) (d.tick now, m') := by
  obtain ⟨times, htimes⟩ := h.elapsed now
  have helapsed : d.tracker.elapsed now = .ok times := by
    rw [hd]
    exact htimes
  rw [Desk.tick, helapsed]
  split
  · exact h.stays hd fun _ => rfl
  · show Proceeds _ _ _ _ _ ((if d.target < times.session then _ else _ : Reply Desk), m')
    split
    · exact h.stays hd fun _ => rfl
    · exact h.stays hd fun _ => rfl

theorem Waits.showTimes (h : Waits m x texts e.time r m') (hd : d.tracker = ⟨some r⟩)
    (hquiet : ∀ events, heard r.sessionWatch.isPaused (e :: events) =
      heard r.sessionWatch.isPaused events) :
    Proceeds m x texts r.sessionWatch.isPaused e (d.showTimes e.time, m') := by
  obtain ⟨times, htimes⟩ := h.elapsed e.time
  have helapsed : d.tracker.elapsed e.time = .ok times := by
    rw [hd]
    exact htimes
  rw [Desk.showTimes, helapsed]
  exact h.stays hd hquiet

theorem Waits.togglePause (h : Waits m x texts e.time r m') (hd : d.tracker = ⟨some r⟩)
    (htoggle : ∀ events, heard r.sessionWatch.isPaused (e :: events) =
      heard (!r.sessionWatch.isPaused) events) :
    Proceeds m x texts r.sessionWatch.isPaused e (d.togglePause e.time, m') := by
  obtain ⟨result, r', hr, ht, hproblems, h'⟩ := h.inTime.toggle
  have htracker : d.tracker.togglePause e.time = .ok (result, ⟨some r'⟩) := by
    simp only [hd, Tracker.togglePause, hr, bind, Except.bind]
    rfl
  rw [Desk.togglePause, htracker]
  have hproceeds : r'.session = r.session → r'.sessionWatch.isPaused = !r.sessionWatch.isPaused →
      ∀ out, Proceeds m x texts r.sessionWatch.isPaused e
        (⟨out, "", .waits { d with tracker := ⟨some r'⟩ }⟩, m') := by
    intro hsession hpaused out
    refine .waits out _ r' m' [] rfl ?_ fun events => by rw [htoggle, hpaused]; rfl
    rw [List.append_nil]
    exact ⟨h.few, hproblems.trans h.problems, h', hsession ▸ h.waiting, hsession ▸ h.coherent,
      hsession ▸ h.recorded, hsession ▸ h.stored⟩
  cases ht with
  | closed hc => cases h.waiting.symm.trans hc
  | resumed sp qp sw qw hc hp hs hq =>
    obtain ⟨-, -, hrun⟩ := Stopwatch.resume_snd hs
    refine hproceeds rfl ?_ _
    rw [hp]
    exact Stopwatch.isPaused_eq_false_iff.mpr hrun
  | stopped hc hp =>
    refine hproceeds rfl ?_ _
    rw [hp]
    simp only [Stopwatch.pause, Stopwatch.isPaused_eq_false_iff.mp hp, Stopwatch.isPaused]
    rfl

variable [LawfulSessionTable σ]

/-- A run that is left keeps the answers so far. -/
theorem Waits.concludes (h : Waits m x texts last r m') :
    Concludes m x texts (⟨0, textOf Report.abandoned, ""⟩, m') := by
  obtain ⟨id, -, hadded⟩ := h.stored
  refine ⟨rfl, rfl, id, r.session, hadded, h.recorded, ?_, "", ?_⟩
  · exact get_of_holds hadded.sound hadded.holds h.coherent
  · rw [h.waiting]
    rfl

/-- A run that has taken its last answer is over, whatever comes after it. -/
theorem Waits.finished {p : Problem} {spent total : Span} {session final : Session}
    (h : Waits m x texts now r m') (hx : x.problems[texts.length]? = some p)
    (hl : ¬texts.length + 1 < x.problems.length)
    (hr : r.session.record (Answer.grade p (p.resolve text) spent now) = .ok session)
    (hf : session.finalize now total = .ok final) (hadded : Added m id final m'')
    (more : List (String × Instant)) (out : String) :
    Concludes m x (texts ++ (text, now) :: more)
      (⟨0, out ++ textOf (Report.summary final), ""⟩, m'') := by
  have hgraded := Answer.isGraded_grade p (p.resolve text) spent now
  have hcoherent := (h.coherent.record hgraded hr).finalize hf
  refine ⟨rfl, rfl, id, final, hadded, h.recorded.finalize hx hl hr hf more, ?_, out, ?_⟩
  · exact get_of_holds hadded.sound hadded.holds hcoherent
  · obtain ⟨-, -, -, rfl⟩ := Session.finalize_eq_ok_iff.mp hf
    rfl

variable [GrantingSessionTable σ]

/-- A text that is typed while the run is in progress is graded against the next problem. -/
theorem Waits.answer_of_running (hm : Sound m) (h : Waits m x texts e.time r m')
    (hd : d.tracker = ⟨some r⟩) (hp : r.sessionWatch.isPaused = false)
    (hheard : ∀ events, heard false (e :: events) = (text, e.time) :: heard false events) :
    Proceeds m x texts false e ((d.answer text e.time).run m') := by
  obtain ⟨id, hid, hadded⟩ := h.stored
  obtain ⟨p, hx, hx'⟩ := h.exists_problem
  have hresolve : d.resolve text = p.resolve text := by
    simp only [Desk.resolve, hd, Tracker.currentProblem?, Option.bind_some, hx]
  have hstatus : r.status = .inProgress := Run.status_eq_inProgress_iff.mpr ⟨h.waiting, hp⟩
  obtain ⟨sub, r', hs, -⟩ := h.inTime.accepts hstatus h.not_overfull (d.resolve text)
  have hsteps := Run.submits_of_submit hs
  obtain ⟨-, hin, -⟩ := h.inTime.submit hsteps
  rw [hresolve] at hsteps
  cases hsteps with
  | advanced q spent session hc _ hq hspent hr hl =>
    obtain rfl : p = q := Option.some.inj (hx.symm.trans hq)
    rw [h.current, h.problems] at hl
    have hsession : (Tracker.mk (some (r.advance session e.time))).sessionId? = some id :=
      (Session.id_of_record hr).trans hid
    obtain ⟨mistakeId, m'', hrecord, hadded'⟩ :=
      Practice.run_record_next hm hadded h.coherent.valid hsession hr
    rw [run_answer_next hd hs hrecord]
    refine .waits _ _ _ m'' [(text, e.time)] rfl (h.advanced hid hx' hl hr hin hadded') fun events => ?_
    rw [hheard]
    show _ = [(text, e.time)] ++ heard r.sessionWatch.isPaused events
    rw [hp]
    rfl
  | finished q spent total session final hc _ hq hspent hr hl ht hf =>
    obtain rfl : p = q := Option.some.inj (hx.symm.trans hq)
    rw [h.current, h.problems] at hl
    have hsession : (Tracker.mk (some { r with current := r.current + 1, session := final })).session? =
      some final := rfl
    have hid' : final.id = some id :=
      (Session.id_of_finalize hf).trans ((Session.id_of_record hr).trans hid)
    obtain ⟨mistakeId, m'', hrecord, hadded'⟩ := Practice.run_record_last hm hadded hsession hid'
    rw [run_answer_last hd hs hrecord]
    refine .ended _ m'' fun events => ?_
    rw [hheard]
    exact h.finished hx' hl hr hf hadded' (heard false events) _

theorem Waits.react (hm : Sound m) (h : Waits m x texts last r m')
    (hd : d.tracker = ⟨some r⟩) (hlast : last ≤ e.time) :
    Proceeds m x texts r.sessionWatch.isPaused e ((d.react e).run m') := by
  replace h := h.later hlast
  cases e with
  | tick now => exact h.tick hd
  | line line now =>
    have hheard := heard_line r.sessionWatch.isPaused line now
    rw [Desk.react]
    cases htyped : Typed.ofLine line with
    | blank =>
      simp only [htyped] at hheard
      exact h.stays hd hheard
    | leave =>
      simp only [htyped] at hheard
      refine .ended _ m' fun events => ?_
      rw [hheard, List.append_nil]
      exact h.concludes
    | pause =>
      simp only [htyped] at hheard
      exact h.togglePause hd hheard
    | time =>
      simp only [htyped] at hheard
      exact h.showTimes hd hheard
    | answer text =>
      simp only [htyped] at hheard
      show Proceeds _ _ _ _ _ ((d.answer text now).run m')
      cases hp : r.sessionWatch.isPaused with
      | true =>
        simp only [hp, if_true] at hheard
        rw [answer_of_paused hd h.waiting hp, ← hp]
        exact h.stays rfl fun events => by rw [hp, hheard]
      | false =>
        simp only [hp, Bool.false_eq_true, if_false] at hheard
        exact h.answer_of_running hm hd hp hheard

end Events

/-! ### Whole calls -/

theorem follow_of_exit {reply : Reply Waiting} {code : Nat} (h : reply.next = .exit code)
    (events : List Event) : follow reply events = return .ofCode reply code := by
  cases events <;> simp only [follow, h]

theorem follow_of_waits {reply : Reply Waiting} {w : Waiting} (h : reply.next = .waits w) (e : Event)
    (events : List Event) :
    follow reply (e :: events) = do return (← follow (← w.react e) events).after reply := by
  simp only [follow, h]

section Calls

variable {σ : Type} [Store σ] [SessionTable σ] {m m' : σ} {x : Exercise}
  {texts : List (String × Instant)} {last : Instant} {r : Run} {d : Desk} {events : List Event}

theorem Concludes.after {o : Outcome} (h : Concludes m x texts (o, m')) {reply : Reply Waiting}
    (herr : reply.err = "") : Concludes m x texts (o.after reply, m') := by
  obtain ⟨id, s, hadded, hrecorded, hget, said, hout⟩ := h.stored
  refine ⟨h.code, ?_, id, s, hadded, hrecorded, hget, reply.out ++ said, ?_⟩
  · show reply.err ++ o.err = ""
    rw [herr, h.err]
    rfl
  · show reply.out ++ o.out = _
    rw [hout, String.append_assoc]

/-- The run of an exercise at its start, whose session is stored under a number, at the terminal. -/
def Exercise.desk (x : Exercise) (id : SessionId) : Desk :=
  ⟨x.category.targetTime, ⟨some (x.begin.withSessionId id)⟩, false⟩

/-- What is said at the start of an exercise. -/
def Exercise.greeting (x : Exercise) (id : SessionId) : Reply Desk :=
  .waiting (Report.welcome x.category ++ Report.problem (x.desk id).tracker) (x.desk id)

/-- What a call asks for: so many problems, or as many as the preferences say. -/
inductive Asks (m : σ) (now : Instant) (n : Nat) : Option Nat → Prop
  | given : Asks m now n (some n)
  | preferred (p? : Option Preferences) (hp : (Store.serve .getPreferences m).1 = .ok p?)
      (hn : (p?.getD (Preferences.defaults now)).questions = n) : Asks m now n none

/-- The number of problems is found without a change to the store. -/
theorem run_runPractice [GrantingSessionTable σ] {g : Generator} {count : Option Nat}
    (h : Asks m x.start x.problems.length count) :
    (Command.runPractice x.category count g x.start).run m =
      (((Desk.start g x.category x.problems.length x.start).run m).1.map .practice,
        ((Desk.start g x.category x.problems.length x.start).run m).2) := by
  cases h with
  | given => simp only [Command.runPractice, Program.run_bind, Program.run_pure]
  | preferred p? hp hn =>
    have hserve : Store.serve .getPreferences m = (.ok p?, m) :=
      Prod.ext hp (GrantingSessionTable.serve_getPreferences m)
    have hload : (Preferences.questions <$> Settings.load x.start).run.run m =
        (.ok x.problems.length, m) := by
      rw [← hn]
      change Program.run (.ask .getPreferences _) m = _
      rw [Program.run, hserve]
      rfl
    simp only [Command.runPractice, Program.run_bind, Program.run_pure, hload]

variable [LawfulSessionTable σ]

theorem run_start {g g' : Generator} (hm : Sound m)
    (hg : g.generate x.category x.problems.length x.start = .ok (x.problems, g'))
    (hsome : x.problems ≠ []) (hfew : x.problems.length ≤ Session.maxAnswers)
    (hgrants : Grants m (.insertSession x.begin.session)) :
    ∃ id m', (Desk.start g x.category x.problems.length x.start).run m = (x.greeting id, m') ∧
      Waits m x [] x.start (x.begin.withSessionId id) m' := by
  obtain ⟨id, m', hregister, hadded⟩ := Practice.run_register hm hgrants
  have hpractice : Practice.start g x.category x.problems.length x.start =
      .ok (do return .ok (← Practice.register ⟨some x.begin⟩), g') := by
    rw [Practice.start, Tracker.start, if_neg (by simpa using hsome), hg]
    simp only [bind, Except.bind, Tracker.startWith, x.start_eq_begin hsome hfew]
    rfl
  refine ⟨id, m', ?_, waits_begin hsome hfew hadded⟩
  rw [Desk.start, hpractice]
  simp only [Program.run_bind, hregister, Program.run_pure]
  rfl

variable [GrantingSessionTable σ]

/-- A run that waits is followed to its end: it grades what the script hands in, and reads no further
once there is an answer to each problem. -/
theorem Waits.follow (hm : Sound m) (h : Waits m x texts last r m') (hd : d.tracker = ⟨some r⟩)
    (htimes : (last :: events.map Event.time).Pairwise (· ≤ ·)) {reply : Reply Waiting}
    (hnext : reply.next = .waits (.practice d)) (herr : reply.err = "") :
    Concludes m x (texts ++ heard r.sessionWatch.isPaused events)
      ((Shell.follow reply events).run m') ∧
    (x.problems.length ≤ (texts ++ heard r.sessionWatch.isPaused events).length → ∀ later,
      (Shell.follow reply (events ++ later)).run m' = (Shell.follow reply events).run m') := by
  -- The texts so far grow by what each event hands in, so that the end is told by the whole script.
  induction events generalizing texts last r d m' reply with
  | nil =>
    rw [heard, List.append_nil]
    constructor
    · simp only [Shell.follow, hnext]
      exact h.concludes.after herr
    · intro hfull
      have hopen := h.waiting
      rw [h.recorded.completed.mpr hfull] at hopen
      cases hopen
  | cons e events ih =>
    obtain ⟨hlast, htimes⟩ := List.pairwise_cons.mp htimes
    have hreact := h.react hm hd (hlast e.time List.mem_cons_self)
    have hrun : ∀ events, (Shell.follow reply (e :: events)).run m' =
        (((Shell.follow (((d.react e).run m').1.map .practice) events).run
            ((d.react e).run m').2).1.after reply,
          ((Shell.follow (((d.react e).run m').1.map .practice) events).run
            ((d.react e).run m').2).2) := by
      intro events
      rw [follow_of_waits hnext]
      simp only [Waiting.react, Program.run_bind, Program.run_pure]
    generalize (d.react e).run m' = step at hreact hrun
    cases hreact with
    | waits out d' r' m'' more hd' hw hmore =>
      have hnext' : (Reply.map Waiting.practice ⟨out, "", .waits d'⟩).next =
        .waits (.practice d') := rfl
      obtain ⟨hconcludes, hlater⟩ := ih hw hd' htimes hnext' rfl
      rw [hmore, ← List.append_assoc, hrun]
      refine ⟨hconcludes.after herr, fun hfull later => ?_⟩
      rw [List.cons_append, hrun, hlater hfull later]
    | ended out m'' hc =>
      have hexit : ∀ events, Shell.follow (Reply.map Waiting.practice ⟨out, "", .exit 0⟩) events =
          return ⟨0, out, ""⟩ := follow_of_exit rfl
      simp only [hexit, Program.run_pure] at hrun
      rw [hrun]
      refine ⟨(hc events).after herr, fun _ later => ?_⟩
      rw [List.cons_append, hrun]

/-- A call practices an exercise over a script: it ends as the script tells, and once there is an answer
to each problem it reads no further. -/
structure Practices (i : Invocation) (g : Generator) (x : Exercise) (events : List Event) (m : σ) :
    Prop where
  concludes : Concludes m x (heard false events) ((i.run g x.start events).run m)
  unread : x.problems.length ≤ (heard false events).length → ∀ later,
    (i.run g x.start (events ++ later)).run m = (i.run g x.start events).run m

/-- With nothing to stand in its way, a call to practice does so. -/
theorem practices_of_grants {i : Invocation} {g g' : Generator} {count : Option Nat}
    (hm : Sound m) (hcommand : i.command = .practice x.category count)
    (haddress : lacksPath i.address = false) (hasks : Asks m x.start x.problems.length count)
    (hg : g.generate x.category x.problems.length x.start = .ok (x.problems, g'))
    (hsome : x.problems ≠ []) (hfew : x.problems.length ≤ Session.maxAnswers)
    (hgrants : Grants m (.insertSession x.begin.session))
    (htimes : (x.start :: events.map Event.time).Pairwise (· ≤ ·)) : Practices i g x events m := by
  obtain ⟨id, m', hdesk, hwaits⟩ := run_start hm hg hsome hfew hgrants
  have hrun : ∀ script, (i.run g x.start script).run m =
      (Shell.follow ((x.greeting id).map .practice) script).run m' := by
    intro script
    rw [Invocation.run, Program.run_bind, Invocation.start, haddress, Bool.and_false,
      if_neg Bool.false_ne_true, hcommand, Command.start, run_runPractice hasks, hdesk]
  have hnext : ((x.greeting id).map Waiting.practice).next = .waits (.practice (x.desk id)) := rfl
  obtain ⟨hconcludes, hunread⟩ := hwaits.follow hm rfl htimes hnext rfl
  constructor
  · rw [hrun]
    exact hconcludes
  · intro hfull later
    rw [hrun, hrun]
    exact hunread hfull later

end Calls

/-- Over a store that holds its values as they are as over one made of tables, a call to practice leaves
exactly one session behind, whatever is typed and however the clock ticks. The session records the texts
that the script hands in, each with the option that it picks in its place and graded against the problem
at its place, up to the number of problems; it is completed exactly if there are as many, and then
nothing more is read. It is returned as it was stored, by tables with its times in whole milliseconds. -/
theorem practices_over_script {i : Invocation} {g g' : Generator} {x : Exercise} {count : Option Nat}
    {events : List Event} (hcommand : i.command = .practice x.category count)
    (haddress : lacksPath i.address = false)
    (hg : g.generate x.category x.problems.length x.start = .ok (x.problems, g'))
    (hsome : x.problems ≠ []) (hfew : x.problems.length ≤ Session.maxAnswers)
    (htimes : (x.start :: events.map Event.time).Pairwise (· ≤ ·)) :
    (∀ m : Memory, m.Sound → Asks m x.start x.problems.length count → Practices i g x events m) ∧
      ∀ db : Database, db.Sound → db.sessions.length < Text.maxSigned64 →
        Asks db x.start x.problems.length count → Practices i g x events db := by
  constructor
  · intro m hm hasks
    exact practices_of_grants hm hcommand haddress hasks hg hsome hfew ⟨_, rfl⟩ htimes
  · intro db hdb hroom hasks
    obtain ⟨db', hserve, -⟩ := hdb.serve_insertSession hroom x.begin.session
    have hgrants : Grants db (.insertSession x.begin.session) := ⟨_, congrArg Prod.fst hserve⟩
    exact practices_of_grants hdb hcommand haddress hasks hg hsome hfew hgrants htimes

/-- Four additions and a question with two options, in a script with a tick, a pause and a text that the
pause drops: the last of the texts that are handed in picks the second option. -/
theorem practices_of_pause :
    let sum : ProblemTemplate := ⟨"17 + 25", "42", none, none⟩
    let quotient : ProblemTemplate := ⟨"4830 ÷ 1610", "3", none, some ["2", "3"]⟩
    let g : Generator := .listed [sum, sum, sum, sum, quotient]
    let x : Exercise := ⟨.mixed, [sum, sum, sum, sum, quotient].map (·.problem .mixed .epoch), .epoch⟩
    let i : Invocation := ⟨":memory:", none, .practice .mixed (some 5)⟩
    let events : List Event := [.line " 42 " (Tracker.second 2 (by decide)),
      .line "P" (Tracker.second 3 (by decide)), .line "p" (Tracker.second 3 (by decide)),
      .line "41" (Tracker.second 4 (by decide)), .tick (Tracker.second 4 (by decide)),
      .line "pause" (Tracker.second 7 (by decide)), .line "42" (Tracker.second 9 (by decide)),
      .line "" (Tracker.second 9 (by decide)), .line "42" (Tracker.second 9 (by decide)),
      .line "2" (Tracker.second 12 (by decide))]
    heard false events = [("42", Tracker.second 2 (by decide)), ("P", Tracker.second 3 (by decide)),
      ("42", Tracker.second 9 (by decide)), ("42", Tracker.second 9 (by decide)),
      ("2", Tracker.second 12 (by decide))] ∧
    (graded x.problems (heard false events)).map (fun a => (a.userAnswer, a.isCorrect)) =
      [("42", true), ("P", false), ("42", true), ("42", true), ("3", true)] ∧
    Practices i g x events Memory.empty ∧ Practices i g x events Database.empty := by
  intro sum quotient g x i events
  have hcommand : i.command = .practice x.category (some 5) := rfl
  have haddress : lacksPath i.address = false := by decide +kernel
  have hg : g.generate x.category x.problems.length x.start = .ok (x.problems, g) := rfl
  have htimes : (x.start :: events.map Event.time).Pairwise (· ≤ ·) := by decide
  obtain ⟨hmemory, hdatabase⟩ :=
    practices_over_script hcommand haddress hg (by decide) (by decide) htimes
  refine ⟨by decide +kernel, by decide +kernel, hmemory .empty (Memory.sound_of_nil rfl) .given, ?_⟩
  exact hdatabase .empty (Database.sound_of_nil rfl rfl) (by decide) .given

end MentalMath.Shell
