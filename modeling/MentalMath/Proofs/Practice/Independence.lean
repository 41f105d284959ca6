import MentalMath.Proofs.Practice.Call
import MentalMath.Proofs.Practice.Step
import MentalMath.Proofs.Program

/-! The store never influences a practice run. What a client sees of its calls, apart from the
numbers that the store gives out, is what a run without any store shows; so it is the same on any
two stores, whatever they answer. -/

namespace MentalMath

/-- The session without its number. -/
def Session.withoutId (s : Session) : Session :=
  { s with id := none }

theorem Session.record_withoutId (s : Session) (a : Answer) :
    s.withoutId.record a = (s.record a).map Session.withoutId := by
  simp only [record, apply_ite (Except.map Session.withoutId)]
  rfl

theorem Session.finalize_withoutId (s : Session) (now : Instant) (d : Span) :
    s.withoutId.finalize now d = (s.finalize now d).map Session.withoutId := by
  simp only [finalize, apply_ite (Except.map Session.withoutId)]
  rfl

namespace Run

/-- The run whose session has no number. -/
def withoutId (r : Run) : Run :=
  { r with session := r.session.withoutId }

theorem withoutId_of_start {c : Category} {problems : List Problem} {now : Instant} {r : Run}
    (h : start c problems now = .ok r) : r.withoutId = r := by
  unfold start at h
  split at h
  · cases h
  · cases h
    rfl

/-- Grading looks at everything but the number of the session. -/
theorem submit_withoutId (r : Run) (input : String) (now : Instant) :
    r.withoutId.submit input now = (r.submit input now).map (Prod.map id withoutId) := by
  simp only [submit, apply_ite (Except.map (Prod.map id withoutId))]
  congr 1
  congr 1
  have hproblem : r.withoutId.problems[r.withoutId.current]? = r.problems[r.current]? := rfl
  rw [hproblem]
  cases r.problems[r.current]? with
  | none => rfl
  | some problem =>
  show (r.questionWatch.elapsed now >>= _) = _
  cases r.questionWatch.elapsed now with
  | error f => rfl
  | ok spent =>
  have h := r.session.record_withoutId (Answer.grade problem input spent now)
  cases hr : r.session.record (Answer.grade problem input spent now) with
  | error e => simp [hr, h, withoutId, bind, Except.bind, Except.map, pure, Except.pure]
  | ok session =>
  simp only [hr, h, withoutId, bind, Except.bind, Except.map]
  by_cases hl : r.current + 1 < r.problems.length
  · simp [hl, advance, pure, Except.pure]
    rfl
  simp only [hl, if_false]
  cases r.sessionWatch.elapsed now with
  | error f => rfl
  | ok total =>
  have h' := session.finalize_withoutId now total
  cases hf : session.finalize now total with
  | error e =>
    simp [hf, h', Except.map, pure, Except.pure]
    rfl
  | ok final =>
    simp [hf, h', Except.map, pure, Except.pure]
    rfl

theorem togglePause_withoutId (r : Run) (now : Instant) :
    r.withoutId.togglePause now = (r.togglePause now).map (Prod.map id withoutId) := by
  simp only [togglePause, apply_ite (Except.map (Prod.map id withoutId))]
  congr 1
  congr 1
  show (r.sessionWatch.resume now >>= _) = _
  cases r.sessionWatch.resume now with
  | error f => rfl
  | ok first =>
  show (r.questionWatch.resume now >>= _) = Except.map _ (r.questionWatch.resume now >>= _)
  cases r.questionWatch.resume now <;> rfl

end Run

namespace Tracker

/-- The holder whose session has no number. -/
def withoutId (t : Tracker) : Tracker :=
  ⟨t.run.map Run.withoutId⟩

@[simp]
theorem withoutId_withSessionId (t : Tracker) (id : SessionId) :
    (t.withSessionId id).withoutId = t.withoutId := by
  cases t with
  | mk run => cases run <;> rfl

@[simp]
theorem status_withoutId (t : Tracker) : t.withoutId.status = t.status := by
  cases t with
  | mk run => cases run <;> rfl

theorem startWith_withoutId (t : Tracker) (c : Category) (problems : List Problem)
    (now : Instant) :
    t.withoutId.startWith c problems now = Prod.map id withoutId (t.startWith c problems now) := by
  unfold startWith
  cases h : Run.start c problems now with
  | error e => rfl
  | ok r => simp [withoutId, Run.withoutId_of_start h]

theorem start_withoutId (t : Tracker) (g : Generator) (c : Category) (count : Nat)
    (now : Instant) :
    t.withoutId.start g c count now =
      (t.start g c count now).map (Prod.map (Prod.map id withoutId) id) := by
  by_cases h : count = 0
  · simp [start, h, Except.map]
  simp only [start, h, if_false]
  cases g.generate c count now with
  | error f => rfl
  | ok made =>
    simp only [bind, Except.bind, startWith_withoutId]
    rfl

theorem submit_withoutId (t : Tracker) (input : String) (now : Instant) :
    t.withoutId.submit input now = (t.submit input now).map (Prod.map id withoutId) := by
  cases t with
  | mk run =>
  cases run with
  | none => rfl
  | some r =>
  simp only [withoutId, submit, Option.map_some, Run.submit_withoutId]
  cases r.submit input now <;> rfl

theorem togglePause_withoutId (t : Tracker) (now : Instant) :
    t.withoutId.togglePause now = (t.togglePause now).map (Prod.map id withoutId) := by
  cases t with
  | mk run =>
  cases run with
  | none => rfl
  | some r =>
  simp only [withoutId, togglePause, Option.map_some, Run.togglePause_withoutId]
  cases r.togglePause now <;> rfl

theorem session?_withoutId (t : Tracker) :
    t.withoutId.session? = t.session?.map Session.withoutId := by
  cases t with | mk run =>
  cases run <;> rfl

/-- The number of its session is all that a run can differ in from the run without it. -/
theorem eq_of_withoutId {t t' : Tracker} (h : t'.withoutId = t.withoutId)
    (hid : t'.sessionId? = t.sessionId?) : t' = t := by
  cases t with | mk run =>
  cases t' with | mk run' =>
  cases run with
  | none =>
    cases run' with
    | none => rfl
    | some r' => simp [withoutId] at h
  | some r =>
    cases run' with
    | none => simp [withoutId] at h
    | some r' =>
      cases r with | mk problems current session sessionWatch questionWatch =>
      cases r' with | mk problems' current' session' sessionWatch' questionWatch' =>
      cases session
      cases session'
      simp [withoutId, Run.withoutId, Session.withoutId, sessionId?, session?] at h hid
      simp [h, hid]

theorem Coherent.of_withoutId {t t' : Tracker} (h : t.Coherent)
    (ht : t'.withoutId = t.withoutId) : t'.Coherent := by
  intro s' hs'
  have hsession := congrArg session? ht
  rw [session?_withoutId, session?_withoutId, hs', Option.map_some] at hsession
  obtain ⟨s, hs, hsame⟩ := Option.map_eq_some_iff.mp hsession.symm
  obtain ⟨hfew, hroom, hcounted, hgraded, hordered⟩ := h s hs
  have hc : s'.withoutId.Coherent := hsame ▸ ⟨hfew, hroom, hcounted, hgraded, hordered⟩
  exact ⟨hc.few, hc.room, hc.counted, hc.graded, hc.ordered⟩

end Tracker

/-! ### What a client sees -/

/-- What a call is answered with, apart from the numbers that the store gives out and from whether
it can store a completed session. -/
inductive Graded where
  /-- Whether the run was started. -/
  | started (result : Except RunError Unit)
  /-- The graded answer and whether it is the last one. -/
  | answered (result : Except RunError Submission)
  /-- Where the run stands after a pause. -/
  | toggled (result : Except RunError RunStatus)
  /-- Why the session is not to be stored, if the run is not completed. -/
  | finalized (refusal : Option PracticeError)

/-- Why the session of a run that stands somewhere is not to be stored. -/
def RunStatus.refusal? : RunStatus → Option PracticeError
  | .notStarted => some (.run .notStarted)
  | .inProgress | .paused => some .inProgress
  | .completed => none

namespace Report

/-- The part of a report that is graded. -/
def graded : Report → Graded
  | .started result => .started result
  | .answered result => .answered (result.map fun a => ⟨a.answer, a.isComplete⟩)
  | .toggled result => .toggled result
  | .finalized (.ok _) => .finalized none
  | .finalized (.error (.storage _)) => .finalized none
  | .finalized (.error e) => .finalized (some e)

/-- What a client sees of a report and the run after it. -/
def seen (answer : Report × Tracker) : Graded × Tracker :=
  (answer.1.graded, answer.2.withoutId)

end Report

namespace Practice

theorem insertSession_ends (t : Tracker) (s : Session) :
    (insertSession t s).Ends fun result => result.2.withoutId = t.withoutId := by
  intro reply
  cases reply with
  | ok id => exact Tracker.withoutId_withSessionId t id
  | error e => exact rfl

theorem persist_ends (t : Tracker) :
    (persist t).Ends fun result => result.2.withoutId = t.withoutId := by
  unfold persist
  split
  · exact rfl
  split
  · exact insertSession_ends t _
  · intro reply
    cases reply with
    | ok _ => exact rfl
    | error e =>
      cases e with
      | notFound => exact insertSession_ends t _
      | conflict | connection | serialization => exact rfl

theorem register_ends (t : Tracker) :
    (register t).Ends fun t' => t'.withoutId = t.withoutId := by
  unfold register
  split
  · exact rfl
  · exact .bind (insertSession_ends t _)

theorem saveCompleted_ends (t : Tracker) (s : Submission) :
    (saveCompleted t s).Ends fun result => result.2.withoutId = t.withoutId := by
  unfold saveCompleted
  split
  · exact .bind ((persist_ends t).mono fun result h => h)
  · exact rfl

/-- What an answer brings about in the store changes neither its grade nor the run. -/
theorem record_ends (t : Tracker) (s : Submission) :
    (record t s).Ends fun result =>
      result.1.answer = s.answer ∧ result.1.isComplete = s.isComplete ∧
        result.2.withoutId = t.withoutId := by
  refine .bind ((Program.Ends.trivial (appendAnswer t s)).mono fun _ _ => ?_)
  refine .bind ((Program.Ends.trivial (noteMiss s)).mono fun mistakeId _ => ?_)
  exact .bind ((saveCompleted_ends t s).mono fun result h => ⟨rfl, rfl, h⟩)

theorem finalize_ends (t : Tracker) :
    (finalize t).Ends fun result =>
      (Report.finalized result.1).graded = .finalized t.status.refusal? ∧
        result.2.withoutId = t.withoutId := by
  unfold finalize
  cases t.status with
  | completed =>
    refine .bind ((persist_ends t).mono fun result h => ⟨?_, h⟩)
    rcases result with ⟨result, t'⟩
    cases result <;> rfl
  | _ => exact ⟨rfl, rfl⟩

end Practice

namespace Call

variable {call : Call} {t : Tracker} {u : Underway}

/-- The rest of a call changes at most the number of the session. -/
theorem Begins.ends (h : Begins t call u) :
    u.program.Ends fun result => result.2.withoutId = u.standing.withoutId := by
  cases h with
  | unstarted | refused | toggled => exact rfl
  | started c count now problems r hr =>
    exact .bind (.bind ((Practice.register_ends ⟨some r⟩).mono fun t' ht => ht))
  | accepted input now sub t' hs =>
    exact .map (.bind ((Practice.record_ends t' sub).mono fun result hr => hr.2.2))
  | finalized => exact .map ((Practice.finalize_ends t).mono fun result hr => hr.2)

theorem Begins.coherent (h : Begins t call u) (ht : t.Coherent) : u.standing.Coherent := by
  cases h with
  | unstarted | finalized => exact ht
  | started c count now problems r hr => exact Tracker.coherent_of_start hr
  | refused input now e t' hs => exact ht.submit hs
  | accepted input now sub t' hs => exact ht.submit hs
  | toggled now result t' hs => exact ht.togglePause hs

/-- A completed run stays as it is. -/
theorem Begins.standing_of_completed (h : Begins t call u) (hcall : call.GoesOn)
    (hc : t.status = .completed) : u.standing = t := by
  cases h with
  | unstarted | started => cases hcall
  | refused input now e t' hs =>
    cases Tracker.submits_of_submit hs with
    | refused _ _ hid hsub hstays => exact hstays hc
  | accepted input now sub t' hs =>
    cases Tracker.submits_of_submit hs with
    | accepted _ _ hid hanswers hopen _ => exact absurd hc hopen
  | toggled now result t' hs => exact (Tracker.session?_of_togglePause hs).2 hc
  | finalized => rfl

/-- The grading of a call, which needs no store. -/
def grade (call : Call) (g : Generator) (t : Tracker) :
    Checked ((Graded × Tracker) × Generator) :=
  match call with
  | .start c count now => do
    let ((result, t), g) ← t.start g c count now
    return ((.started result, t), g)
  | .submit input now => do
    let (result, t) ← t.submit input now
    return ((.answered result, t), g)
  | .togglePause now => do
    let (result, t) ← t.togglePause now
    return ((.toggled result, t), g)
  | .finalize => return ((.finalized t.status.refusal?, t), g)

/-- The gradings of calls one after the other, each with the run after it. -/
def gradeAll : List Call → Generator → Tracker → Checked (List (Graded × Tracker))
  | [], _, _ => .ok []
  | call :: calls, g, t => do
    let (answer, g) ← call.grade g t
    return answer :: (← gradeAll calls g answer.2)

theorem grade_withoutId (call : Call) (g : Generator) (t : Tracker) :
    call.grade g t.withoutId =
      (call.grade g t).map (Prod.map (Prod.map id Tracker.withoutId) id) := by
  cases call with
  | start c count now =>
    simp only [grade, Tracker.start_withoutId]
    cases t.start g c count now <;> rfl
  | submit input now =>
    simp only [grade, Tracker.submit_withoutId]
    cases t.submit input now <;> rfl
  | togglePause now =>
    simp only [grade, Tracker.togglePause_withoutId]
    cases t.togglePause now <;> rfl
  | finalize => simp [grade, Except.map, pure, Except.pure]

/-- A start begins unless the generator faults; its program ends with the new run, or with the run
before it when the new one is refused. -/
theorem begin_start (c : Category) (count : Nat) (now : Instant) (g : Generator) (t : Tracker) :
    match t.start g c count now with
    | .error f => (Call.start c count now).begin g t = .error f
    | .ok ((result, t'), g') => ∃ program, (Call.start c count now).begin g t =
        .ok (⟨t', program⟩, g') ∧ program.Ends fun answer =>
          answer.1 = .started result ∧ answer.2.withoutId = t'.withoutId := by
  by_cases h : count = 0
  · simp only [begin, Practice.start, Tracker.start, h, if_true]
    exact ⟨_, rfl, rfl, rfl⟩
  simp only [begin, Practice.start, Tracker.start, h, if_false]
  cases g.generate c count now with
  | error f => rfl
  | ok made =>
  simp only [bind, Except.bind, Tracker.startWith]
  cases Run.start c made.1 now with
  | error e => exact ⟨_, rfl, rfl, rfl⟩
  | ok r =>
    refine ⟨_, rfl, ?_⟩
    refine .bind (.bind ((Practice.register_ends ⟨some r⟩).mono fun t' h => ?_))
    exact ⟨rfl, h⟩

/-- A call begins exactly if it can be graded, and whatever the store answers, what the client sees
is the grading. -/
theorem begin_grade (call : Call) (g : Generator) (t : Tracker) :
    match call.grade g t with
    | .error f => call.begin g t = .error f
    | .ok ((graded, t'), g') => ∃ underway, call.begin g t = .ok (underway, g') ∧
        underway.program.Ends fun answer => Report.seen answer = (graded, t'.withoutId) := by
  cases call with
  | start c count now =>
    have h := begin_start c count now g t
    simp only [grade]
    cases hs : t.start g c count now with
    | error f =>
      simp only [hs] at h
      exact h
    | ok made =>
      simp only [hs] at h
      obtain ⟨program, hb, hp⟩ := h
      refine ⟨_, hb, hp.mono fun answer ha => ?_⟩
      simp [Report.seen, ha.1, ha.2, Report.graded]
  | submit input now =>
    simp only [grade, begin, Practice.submit]
    cases t.submit input now with
    | error f => rfl
    | ok step =>
    rcases step with ⟨result, t'⟩
    refine ⟨_, rfl, .map ?_⟩
    cases result with
    | error e => exact rfl
    | ok s =>
      refine .bind ((Practice.record_ends t' s).mono fun outcome ho => ?_)
      exact Prod.ext (by simp [Report.seen, Report.graded, Except.map, ho]) ho.2.2
  | togglePause now =>
    simp only [grade, begin]
    cases t.togglePause now with
    | error f => rfl
    | ok step => exact ⟨_, rfl, rfl⟩
  | finalize =>
    refine ⟨_, rfl, .map ((Practice.finalize_ends t).mono fun result hr => ?_)⟩
    exact Prod.ext hr.1 hr.2

/-- On any store, what a client sees of its calls is their gradings. -/
theorem follow_seen {σ : Type} [Store σ] (calls : List Call) (g : Generator) (t : Tracker)
    (store : σ) :
    (follow calls g t store).map (List.map Report.seen) = gradeAll calls g t.withoutId := by
  induction calls generalizing g t store with
  | nil => rfl
  | cons call calls ih =>
    have h := begin_grade call g t
    simp only [follow, gradeAll, grade_withoutId]
    cases hg : call.grade g t with
    | error f =>
      simp only [hg] at h
      simp [h, Except.map, bind, Except.bind]
    | ok graded =>
    rcases graded with ⟨⟨graded, t'⟩, g'⟩
    simp only [hg] at h
    obtain ⟨underway, hb, he⟩ := h
    have hseen := he.run store
    have hrest := ih g' (underway.program.run store).1.2 (underway.program.run store).2
    have ht : (underway.program.run store).1.2.withoutId = t'.withoutId :=
      congrArg Prod.snd hseen
    rw [ht] at hrest
    simp only [hb, bind, Except.bind, Except.map, Prod.map, id] at hrest ⊢
    cases hf : follow calls g' (underway.program.run store).1.2 (underway.program.run store).2 with
    | error f =>
      rw [hf] at hrest
      simp [← hrest]
    | ok rest =>
      rw [hf] at hrest
      simp [← hrest, hseen, pure, Except.pure]

/-- On any two stores, whatever they answer to whichever request, a client that makes the same calls
at the same times with the same generator sees the same: each call faults on both or on neither, is
accepted or refused alike with the same graded answer, and leaves the same run but for the number of
its session. It is what a run without any store shows. -/
theorem follow_any_store {σ₁ σ₂ : Type} [Store σ₁] [Store σ₂] (calls : List Call) (g : Generator)
    (store₁ : σ₁) (store₂ : σ₂) :
    (follow calls g Tracker.empty store₁).map (List.map Report.seen) =
        (follow calls g Tracker.empty store₂).map (List.map Report.seen) ∧
      (follow calls g Tracker.empty store₁).map (List.map Report.seen) =
        gradeAll calls g Tracker.empty := by
  have h₁ := follow_seen calls g Tracker.empty store₁
  have h₂ := follow_seen calls g Tracker.empty store₂
  exact ⟨h₁.trans h₂.symm, h₁⟩

end Call

end MentalMath
