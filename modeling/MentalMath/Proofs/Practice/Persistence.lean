import MentalMath.Proofs.Practice.Independence
import MentalMath.Proofs.Practice.Ledger
import MentalMath.Proofs.Storage.Memory
import MentalMath.Proofs.Storage.Relational.Requests

/-! A practice run beside the other users of its store, request by request. However many requests of
the run fail, it has at most one session in the store, whose answers are among those of the run in
their order; and when the run says that its session is stored, the store holds it exactly. -/

namespace MentalMath

open SessionTable LawfulSessionTable

variable {σ : Type} [Store σ] [SessionTable σ] {l : Ledger σ} {t : Tracker} {s : Session}
  {id : SessionId}

/-- The ledger after an attempt to store the session of a run. -/
structure Ledger.Persisted (t : Tracker) (result : Except StorageError SessionId × Tracker)
    (l : Ledger σ) : Prop where
  follows : l.Follows result.2
  answers : result.2.answers = t.answers
  status : result.2.status = t.status
  records : ∀ id, result.1 = .ok id → l.Records result.2 id

omit [Store σ] in
theorem Ledger.Persisted.settled {result : Except StorageError SessionId × Tracker}
    (h : Persisted t result l) (hc : t.status = .completed) (hid : result.1 = .ok id) :
    Settled result.2 id l :=
  ⟨h.follows.sound, h.status.trans hc, h.records id hid⟩

/-- The ledger at the end of a call. -/
structure Call.Ended (standing : Tracker) (result : Report × Tracker) (l : Ledger σ) : Prop where
  follows : l.Follows result.2
  answers : result.2.answers = standing.answers
  settled : ∀ id, result.1.savedId? = some id → Ledger.Settled result.2 id l

section Calls

variable [LawfulSessionTable σ]

namespace Practice

open Ledger Program

theorem insertSession_always (hf : l.Follows t) (hs : t.session? = some s)
    (hid : s.id = none) :
    (insertSession t s).Always Turn (Owns t.answers) (Persisted t) l := by
  have hnone : t.sessionId? = none := by simp [Tracker.sessionId?, hs, hid]
  have hkeeps := hf.keeps
  rw [hnone] at hkeeps
  cases hkeeps with
  | nothing hown =>
  refine ⟨hf.owns, fun reply l' ht => ?_⟩
  obtain ⟨hsound, ⟨id, rfl, hown', hholds⟩ | ⟨e, rfl, hown'⟩⟩ := ht.insertSession hf.sound hown
  · have hrecords : l'.Records (t.withSessionId id) id :=
      ⟨hown', s.withId id, by simp [hs], rfl, holds_withId id hholds⟩
    refine ⟨hrecords.follows hsound, by simp, by simp, fun i hi => ?_⟩
    cases hi
    exact hrecords
  · refine ⟨⟨hsound, ?_⟩, rfl, rfl, fun i hi => by cases hi⟩
    rw [hnone]
    exact .nothing hown'

/-- The session under a number is written, or it stays as it was stored. -/
theorem saveSession_always {stored : Session} {inv : Ledger σ → Prop} (hinv : inv l)
    (hl : Sound l.store) (hown : l.own = [id]) (hs : t.session? = some s) (hid : s.id = some id)
    (hholds : Holds l.store id stored) :
    (persist t).Always Turn inv (fun result l' => result.2 = t ∧ Sound l'.store ∧ l'.own = [id] ∧
      (result.1 = .ok id ∧ Holds l'.store id s ∨
        ∃ e, result.1 = .error e ∧ Holds l'.store id stored)) l := by
  simp only [persist, hs, hid]
  refine ⟨hinv, fun reply l' ht => ?_⟩
  obtain ⟨hsound, hown', ⟨rfl, hholds'⟩ | ⟨e, rfl, hne, hholds'⟩⟩ :=
    ht.saveSession hl hown hid hholds
  · exact ⟨rfl, hsound, hown', .inl ⟨rfl, hholds'⟩⟩
  · cases e with
    | notFound => exact absurd rfl hne
    | conflict => exact ⟨rfl, hsound, hown', .inr ⟨_, rfl, hholds'⟩⟩
    | connection => exact ⟨rfl, hsound, hown', .inr ⟨_, rfl, hholds'⟩⟩
    | serialization => exact ⟨rfl, hsound, hown', .inr ⟨_, rfl, hholds'⟩⟩

theorem persist_always (hf : l.Follows t) :
    (persist t).Always Turn (Owns t.answers) (Persisted t) l := by
  cases hs : t.session? with
  | none =>
    simp only [persist, hs]
    exact ⟨hf, rfl, rfl, fun i hi => by cases hi⟩
  | some s =>
    cases hid : s.id with
    | none =>
      simp only [persist, hs, hid]
      exact insertSession_always hf hs hid
    | some id =>
      have hsome : t.sessionId? = some id := by simp [Tracker.sessionId?, hs, hid]
      have hanswers : t.answers = s.answers := by simp [Tracker.answers, hs]
      have hkeeps := hf.keeps
      rw [hsome] at hkeeps
      cases hkeeps with
      | session _ stored hown hholds hsub =>
      apply (saveSession_always hf.owns hf.sound hown hs hid hholds).mono
      rintro ⟨reply, t'⟩ l' ⟨rfl, hsound, hown', ⟨rfl, hholds'⟩ | ⟨e, rfl, hholds'⟩⟩
      · have hrecords : l'.Records t' id := ⟨hown', s, hs, hid, hholds'⟩
        refine ⟨hrecords.follows hsound, rfl, rfl, fun i hi => ?_⟩
        cases hi
        exact hrecords
      · refine ⟨⟨hsound, ?_⟩, rfl, rfl, fun i hi => by cases hi⟩
        rw [hsome]
        exact .session id stored hown' hholds' hsub

/-- Storing a stored session again keeps it stored under its number. -/
theorem persist_settled (h : Settled t id l) :
    (persist t).Always Turn (Settled t id) (fun result l' => result.2 = t ∧ Settled t id l' ∧
      ∀ i, result.1 = .ok i → i = id) l := by
  obtain ⟨s, hs, hid, hholds⟩ := h.records.session
  apply (saveSession_always h h.sound h.records.own hs hid hholds).mono
  rintro ⟨reply, t'⟩ l' ⟨rfl, hsound, hown, ⟨rfl, hholds'⟩ | ⟨e, rfl, hholds'⟩⟩
  · refine ⟨rfl, ⟨hsound, h.completed, hown, s, hs, hid, hholds'⟩, fun i hi => ?_⟩
    cases hi
    rfl
  · exact ⟨rfl, ⟨hsound, h.completed, hown, s, hs, hid, hholds'⟩, fun i hi => by cases hi⟩

theorem register_always (hf : l.Follows t) (hid : t.sessionId? = none) :
    (register t).Always Turn (Owns t.answers)
      (fun t' l' => l'.Follows t' ∧ t'.answers = t.answers) l := by
  cases hs : t.session? with
  | none =>
    simp only [register, hs]
    exact ⟨hf, rfl⟩
  | some s =>
    simp only [register, hs]
    have hid' : s.id = none := by simpa [Tracker.sessionId?, hs] using hid
    exact .bind ((insertSession_always hf hs hid').mono fun result l' h => ⟨h.follows, h.answers⟩)

/-- The store takes the last answer or goes without it. -/
theorem appendAnswer_always {sub : Submission} {answers : List Answer} (hl : Sound l.store)
    (hkeeps : l.Keeps answers t.sessionId?) (hanswers : t.answers = answers ++ [sub.answer]) :
    (appendAnswer t sub).Always Turn (Owns t.answers) (fun _ l' => l'.Follows t) l := by
  have hmono : l.Keeps t.answers t.sessionId? :=
    hkeeps.mono (by rw [hanswers]; exact List.sublist_append_left _ _)
  have hf : l.Follows t := ⟨hl, hmono⟩
  unfold appendAnswer
  split
  case h_1 id hc hid =>
    rw [hid] at hkeeps
    cases hkeeps with
    | session _ stored hown hholds hsub =>
    refine ⟨hf.owns, fun reply l' ht => ?_⟩
    obtain ⟨hsound, hown', s', hholds', hsub'⟩ := ht.appendAnswer hl hown hholds
    refine ⟨hsound, ?_⟩
    rw [hid, hanswers]
    exact .session id s' hown' hholds' (hsub'.trans (hsub.append (List.Sublist.refl _)))
  case h_2 => exact hf

/-- The notebook does not touch the sessions. -/
theorem noteMiss_always {sub : Submission} (hf : l.Follows t) :
    (noteMiss sub).Always Turn (Owns t.answers) (fun _ l' => l'.Follows t) l := by
  refine noteMiss_keeps hf (fun _ h => h.owns) fun hf ht hr => ?_
  obtain ⟨hown, ho⟩ := ht.others hf.sound hr
  have hafter := hf.others ho
  rwa [← hown] at hafter

theorem saveCompleted_always {sub : Submission} (hf : l.Follows t)
    (hc : sub.isComplete = true → t.status = .completed) :
    (saveCompleted t sub).Always Turn (Owns t.answers) (fun result l' => l'.Follows result.2 ∧
      result.2.answers = t.answers ∧ ∀ id, result.1 = some id → Settled result.2 id l') l := by
  unfold saveCompleted
  split
  case isTrue hcomplete =>
    refine .bind ((persist_always hf).mono ?_)
    rintro ⟨reply, t'⟩ l' h
    refine ⟨h.follows, h.answers, fun id hid => h.settled (hc hcomplete) ?_⟩
    cases reply with
    | error e => cases hid
    | ok i =>
      cases hid
      rfl
  case isFalse => exact ⟨hf, rfl, fun id hid => by cases hid⟩

/-- What the store is asked after an accepted answer. -/
theorem record_always {sub : Submission} {answers : List Answer} (hl : Sound l.store)
    (hkeeps : l.Keeps answers t.sessionId?) (hanswers : t.answers = answers ++ [sub.answer])
    (hc : sub.isComplete = true → t.status = .completed) :
    (record t sub).Always Turn (Owns t.answers) (fun result l' => l'.Follows result.2 ∧
      result.2.answers = t.answers ∧
        ∀ id, result.1.savedId = some id → Settled result.2 id l') l := by
  refine .bind ((appendAnswer_always hl hkeeps hanswers).mono fun _ l₁ h₁ => ?_)
  refine .bind ((noteMiss_always h₁).mono fun mistakeId l₂ h₂ => ?_)
  exact .bind ((saveCompleted_always h₂ hc).mono fun result l₃ h₃ => h₃)

theorem finalize_always (hf : l.Follows t) :
    (finalize t).Always Turn (Owns t.answers) (fun result l' => l'.Follows result.2 ∧
      result.2.answers = t.answers ∧ ∀ id, result.1 = .ok id → Settled result.2 id l') l := by
  unfold finalize
  cases hstatus : t.status with
  | completed =>
    refine .bind ((persist_always hf).mono ?_)
    rintro ⟨reply, t'⟩ l' h
    refine ⟨h.follows, h.answers, fun id hid => h.settled hstatus ?_⟩
    cases reply with
    | error e => cases hid
    | ok i =>
      cases hid
      rfl
  | _ => exact ⟨hf, rfl, fun id hid => by cases hid⟩

theorem finalize_settled (h : Settled t id l) :
    (finalize t).Always Turn (Settled t id) (fun result l' => result.2 = t ∧ Settled t id l' ∧
      ∀ i, result.1 = .ok i → i = id) l := by
  simp only [finalize, h.completed]
  refine .bind ((persist_settled h).mono ?_)
  rintro ⟨reply, t'⟩ l' ⟨rfl, h', hid⟩
  refine ⟨rfl, h', fun i hi => ?_⟩
  cases reply with
  | error e => cases hi
  | ok j =>
    cases hi
    exact hid i rfl

end Practice

namespace Call

open Ledger

theorem begin_always {call : Call} {g g' : Generator} {u : Underway} (hf : l.Follows t)
    (hcall : call.GoesOn) (hb : call.begin g t = .ok (u, g')) :
    u.program.Always Turn (Owns u.standing.answers) (Ended u.standing) l := by
  cases begins_of_begin hb with
  | unstarted | started => cases hcall
  | refused input now e t' hs =>
    cases Tracker.submits_of_submit hs with
    | refused _ _ hid hsub hc =>
      have hkeeps := hf.keeps.mono hsub
      rw [← hid] at hkeeps
      exact ⟨⟨hf.sound, hkeeps⟩, rfl, fun id hid => by cases hid⟩
  | accepted input now sub t' hs =>
    cases Tracker.submits_of_submit hs with
    | accepted _ _ hid hanswers hopen hc =>
      refine .map (.bind ?_)
      have hkeeps := hf.keeps
      rw [← hid] at hkeeps
      apply (Practice.record_always hf.sound hkeeps hanswers hc).mono
      rintro result l' ⟨hf', ha, hsettled⟩
      exact ⟨hf', ha, hsettled⟩
  | toggled now result t' hs =>
    have hsession := (Tracker.session?_of_togglePause hs).1
    refine ⟨⟨hf.sound, ?_⟩, rfl, fun id hid => by cases hid⟩
    have hkeeps := hf.keeps
    simpa only [Tracker.answers, Tracker.sessionId?, hsession] using hkeeps
  | finalized =>
    refine .map ((Practice.finalize_always hf).mono ?_)
    rintro ⟨reply, t'⟩ l' ⟨hf', ha, hsettled⟩
    refine ⟨hf', ha, fun id hid => hsettled id ?_⟩
    cases reply with
    | error e => cases hid
    | ok i =>
      cases hid
      rfl

/-- A call on a run whose session is stored leaves both as they are. -/
theorem begin_settled {call : Call} {g g' : Generator} {u : Underway} (h : Settled t id l)
    (hcall : call.GoesOn) (hb : call.begin g t = .ok (u, g')) :
    u.standing = t ∧ u.program.Always Turn (Settled t id) (fun result l' => result.2 = t ∧
      Settled t id l' ∧ ∀ i, result.1.savedId? = some i → i = id) l := by
  cases begins_of_begin hb with
  | unstarted | started => cases hcall
  | refused input now e t' hs =>
    cases Tracker.submits_of_submit hs with
    | refused _ _ hid hsub hc =>
      obtain rfl := hc h.completed
      exact ⟨rfl, rfl, h, fun i hi => by cases hi⟩
  | accepted input now sub t' hs =>
    cases Tracker.submits_of_submit hs with
    | accepted _ _ hid hanswers hopen hc => exact absurd h.completed hopen
  | toggled now result t' hs =>
    obtain rfl := (Tracker.session?_of_togglePause hs).2 h.completed
    exact ⟨rfl, rfl, h, fun i hi => by cases hi⟩
  | finalized =>
    refine ⟨rfl, .map ((Practice.finalize_settled h).mono ?_)⟩
    rintro ⟨reply, t'⟩ l' ⟨rfl, h', hid⟩
    refine ⟨rfl, h', fun i hi => hid i ?_⟩
    cases reply with
    | error e => cases hi
    | ok j =>
      cases hi
      rfl

/-- The first call of a run. -/
theorem start_always {g g' : Generator} {c : Category} {count : Nat} {now : Instant} {u : Underway}
    (hl : Sound l.store) (hown : l.own = [])
    (hb : (Call.start c count now).begin g Tracker.empty = .ok (u, g')) :
    u.program.Always Turn (Owns u.standing.answers) (Ended u.standing) l := by
  have hf : ∀ t : Tracker, t.sessionId? = none → l.Follows t := by
    intro t hid
    refine ⟨hl, ?_⟩
    rw [hid]
    exact .nothing hown
  cases begins_of_begin hb with
  | unstarted _ _ _ e => exact ⟨hf _ rfl, rfl, fun i hi => by cases hi⟩
  | started _ _ _ problems r hr =>
    have hid := Tracker.sessionId?_of_start hr
    refine .bind (.bind ((Practice.register_always (hf _ hid) hid).mono ?_))
    rintro t' l' ⟨hf', ha⟩
    exact ⟨hf', ha, fun i hi => by cases hi⟩

end Call

end Calls

/-- A practice run beside the other users of its store. -/
structure Scene (σ : Type) where
  ledger : Ledger σ
  tracker : Tracker
  /-- What is left of the call that the client waits for. -/
  pending : Option (Program (Report × Tracker))
  /-- What the calls were answered with. -/
  reports : List Report

namespace Scene

/-- What can happen next. -/
inductive Step : Scene σ → Scene σ → Prop
  /-- Another user asks the store and leaves the sessions of the run alone. -/
  | other (c : Scene σ) (r : Request) (hr : r.Spares c.ledger.own) :
    Step c { c with ledger := ⟨(Store.serve r c.ledger.store).2, c.ledger.own⟩ }
  /-- The store serves a request of the run. -/
  | served (c : Scene σ) (r : Request) (next : Except StorageError r.Reply → Program (Report × Tracker))
      (hp : c.pending = some (.ask r next)) :
    Step c { c with
      ledger := (c.ledger.serve r).2
      pending := some (next (c.ledger.serve r).1) }
  /-- A request of the run fails and leaves the store as it is. -/
  | failed (c : Scene σ) (r : Request) (next : Except StorageError r.Reply → Program (Report × Tracker))
      (hp : c.pending = some (.ask r next)) (e : StorageError) (he : r.MayFail e) :
    Step c { c with pending := some (next (.error e)) }
  /-- The call is answered. -/
  | returned (c : Scene σ) (report : Report) (t : Tracker)
      (hp : c.pending = some (.done (report, t))) :
    Step c { c with tracker := t, pending := none, reports := c.reports ++ [report] }
  /-- The client makes a call that goes on with the run. -/
  | called (c : Scene σ) (call : Call) (hcall : call.GoesOn) (hp : c.pending = none)
      (g g' : Generator) (u : Underway) (hb : call.begin g c.tracker = .ok (u, g')) :
    Step c { c with tracker := u.standing, pending := some u.program }

/-- What a run can come to, from its start over any store that requests lead to. -/
inductive Reachable : Scene σ → Prop
  | start (m : σ) (hm : Others [] empty m) (category : Category) (count : Nat) (now : Instant)
      (g g' : Generator) (u : Underway)
      (hb : (Call.start category count now).begin g Tracker.empty = .ok (u, g')) :
    Reachable ⟨⟨m, []⟩, u.standing, some u.program, []⟩
  | step {a b : Scene σ} (ha : Reachable a) (hs : Step a b) : Reachable b

/-- Serves what is left of a call, with no failure and nobody else in between. -/
def serveAll {α : Type} : Program α → Ledger σ → α × Ledger σ
  | .done a, l => (a, l)
  | .ask r next, l => serveAll (next (l.serve r).1) (l.serve r).2

/-- A call that is served without failures is one of the things that can happen. -/
theorem Reachable.answered {c : Scene σ} (h : c.Reachable) {p : Program (Report × Tracker)}
    (hp : c.pending = some p) :
    ({ ledger := (serveAll p c.ledger).2
       tracker := (serveAll p c.ledger).1.2
       pending := none
       reports := c.reports ++ [(serveAll p c.ledger).1.1] } : Scene σ).Reachable := by
  induction p generalizing c with
  | done result => exact .step h (.returned c result.1 result.2 hp)
  | ask r next ih => exact ih _ (.step h (.served c r next hp)) rfl

/-- A call between two others that is served without failures. -/
theorem Reachable.next {c : Scene σ} (h : c.Reachable) (hp : c.pending = none) (call : Call)
    (hcall : call.GoesOn) (g : Generator) {g' : Generator} {u : Underway}
    (hb : call.begin g c.tracker = .ok (u, g')) :
    ({ ledger := (serveAll u.program c.ledger).2
       tracker := (serveAll u.program c.ledger).1.2
       pending := none
       reports := c.reports ++ [(serveAll u.program c.ledger).1.1] } : Scene σ).Reachable :=
  (Reachable.step h (.called c call hcall hp g g' u hb)).answered rfl

/-- The numbers under which the calls said that the session is stored. -/
def saved (c : Scene σ) : List SessionId :=
  c.reports.filterMap Report.savedId?

/-- Where a run stands: between two calls or in one of them, before or after its session was said to
be stored. -/
inductive Standing (c : Scene σ) : Prop
  | idle (hnone : c.saved = []) (hp : c.pending = none) (hf : c.ledger.Follows c.tracker)
  | busy (hnone : c.saved = []) (p : Program (Report × Tracker)) (hp : c.pending = some p)
      (ha : p.Always Turn (Ledger.Owns c.tracker.answers) (Call.Ended c.tracker) c.ledger)
  | settled (id : SessionId) (hids : ∀ i ∈ c.saved, i = id)
      (hs : Ledger.Settled c.tracker id c.ledger)
      (hp : ∀ p, c.pending = some p → p.Always Turn (Ledger.Settled c.tracker id)
        (fun result l => result.2 = c.tracker ∧ Ledger.Settled c.tracker id l ∧
          ∀ i, result.1.savedId? = some i → i = id) c.ledger)

/-- What holds at a request and at the end holds now. -/
theorem now_of_always {α : Type} {inv Q : Ledger σ → Prop} {post : α → Ledger σ → Prop}
    {p : Program α} (h : p.Always Turn inv post l) (hinv : ∀ l, inv l → Q l)
    (hpost : ∀ a l, post a l → Q l) : Q l := by
  cases p with
  | done a => exact hpost a l h
  | ask r next => exact hinv l h.1

/-- A turn of a request of the run goes on with the call. -/
theorem Standing.turn {c : Scene σ} (h : c.Standing) {r : Request}
    {next : Except StorageError r.Reply → Program (Report × Tracker)}
    (hpending : c.pending = some (.ask r next)) {reply : Except StorageError r.Reply}
    {l : Ledger σ} (ht : Turn r c.ledger reply l) :
    ({ c with ledger := l, pending := some (next reply) } : Scene σ).Standing := by
  cases h with
  | idle hnone hp hf => cases hp.symm.trans hpending
  | busy hnone p hp ha =>
    obtain rfl := Option.some.inj (hp.symm.trans hpending)
    exact .busy hnone (next reply) rfl (ha.2 reply l ht)
  | settled id hids hs hp =>
    have ha := (hp _ hpending).2 reply l ht
    refine .settled id hids (now_of_always ha (fun _ h => h) fun _ _ h => h.2.1) fun p hp' => ?_
    cases hp'
    exact ha

theorem Standing.returned {c : Scene σ} (h : c.Standing) {report : Report} {t : Tracker}
    (hpending : c.pending = some (.done (report, t))) :
    ({ c with tracker := t, pending := none, reports := c.reports ++ [report] } :
      Scene σ).Standing := by
  cases h with
  | idle hnone hp hf => cases hp.symm.trans hpending
  | busy hnone p hp ha =>
    obtain rfl := Option.some.inj (hp.symm.trans hpending)
    have hended : Call.Ended c.tracker (report, t) c.ledger := ha
    cases hid : report.savedId? with
    | none =>
      refine .idle ?_ rfl hended.follows
      simpa [saved, hid] using hnone
    | some id =>
      refine .settled id (fun i hi => ?_) (hended.settled id hid) fun p hp' => by cases hp'
      have hnone : c.reports.filterMap Report.savedId? = [] := hnone
      simpa [saved, hid, hnone] using hi
  | settled id hids hs hp =>
    obtain ⟨rfl, hs', hid⟩ := hp _ hpending
    refine .settled id (fun i hi => ?_) hs' fun p hp' => by cases hp'
    simp only [saved, List.filterMap_append, List.mem_append] at hi
    cases hi with
    | inl hi => exact hids i hi
    | inr hi =>
      apply hid i
      simpa using hi

theorem Standing.settled_of_mem {c : Scene σ} (h : c.Standing) {report : Report}
    (hr : report ∈ c.reports) (hid : report.savedId? = some id) :
    Ledger.Settled c.tracker id c.ledger := by
  have hmem : id ∈ c.saved := List.mem_filterMap.mpr ⟨report, hr, hid⟩
  cases h with
  | idle hnone hp hf =>
    rw [hnone] at hmem
    cases hmem
  | busy hnone p hp ha =>
    rw [hnone] at hmem
    cases hmem
  | settled i hids hs hp =>
    obtain rfl := hids id hmem
    exact hs

theorem Standing.owns {c : Scene σ} (h : c.Standing) : Ledger.Owns c.tracker.answers c.ledger := by
  cases h with
  | idle hnone hp hf => exact hf.owns
  | busy hnone p hp ha =>
    refine now_of_always ha (fun _ h => h) fun result l h => ?_
    rw [← h.answers]
    exact h.follows.owns
  | settled id hids hs hp => exact (hs.records.follows hs.sound).owns

/-- The session of the run is coherent, and what is left of a call changes at most its number. -/
structure Steady (c : Scene σ) : Prop where
  coherent : c.tracker.Coherent
  rest : ∀ p, c.pending = some p → p.Ends fun result => result.2.withoutId = c.tracker.withoutId

theorem Steady.step {a b : Scene σ} (h : a.Steady) (hs : Step a b) : b.Steady := by
  cases hs with
  | other r hr => exact ⟨h.coherent, h.rest⟩
  | served r next hp =>
    exact ⟨h.coherent, fun p hp' => Option.some.inj hp' ▸ h.rest _ hp _⟩
  | failed r next hp e he =>
    exact ⟨h.coherent, fun p hp' => Option.some.inj hp' ▸ h.rest _ hp _⟩
  | returned report t hp => exact ⟨h.coherent.of_withoutId (h.rest _ hp), fun p hp' => by cases hp'⟩
  | called call hcall hp g g' u hb =>
    have hbegins := Call.begins_of_begin hb
    exact ⟨hbegins.coherent h.coherent, fun p hp' => Option.some.inj hp' ▸ hbegins.ends⟩

theorem Reachable.steady {c : Scene σ} (h : Reachable c) : c.Steady := by
  induction h with
  | start m hm category count now g g' u hb =>
    have hbegins := Call.begins_of_begin hb
    exact ⟨hbegins.coherent Tracker.coherent_empty, fun p hp => Option.some.inj hp ▸ hbegins.ends⟩
  | step ha hs ih => exact ih.step hs

variable [LawfulSessionTable σ]

theorem standing_start {m : σ} (hm : Others [] empty m) {category : Category} {count : Nat}
    {now : Instant} {g g' : Generator} {u : Underway}
    (hb : (Call.start category count now).begin g Tracker.empty = .ok (u, g')) :
    (Scene.mk ⟨m, []⟩ u.standing (some u.program) []).Standing := by
  have hsound : Sound m := hm.sound sound_empty
  exact .busy rfl u.program rfl (Call.start_always hsound rfl hb)

theorem Standing.other {c : Scene σ} (h : c.Standing) {r : Request} (hr : r.Spares c.ledger.own) :
    ({ c with ledger := ⟨(Store.serve r c.ledger.store).2, c.ledger.own⟩ } : Scene σ).Standing := by
  have ho : Others c.ledger.own c.ledger.store (Store.serve r c.ledger.store).2 :=
    .step r hr (.refl _)
  cases h with
  | idle hnone hp hf => exact .idle hnone hp (hf.others ho)
  | busy hnone p hp ha =>
    refine .busy hnone p hp (ha.others ho (fun h => h.others ho) fun result h => ?_)
    exact ⟨h.follows.others ho, h.answers, fun id hid => (h.settled id hid).others ho⟩
  | settled id hids hs hp =>
    refine .settled id hids (hs.others ho) fun p hpending => ?_
    refine (hp p hpending).others ho (fun h => h.others ho) fun result h => ?_
    exact ⟨h.1, h.2.1.others ho, h.2.2⟩

theorem Standing.called {c : Scene σ} (h : c.Standing) {call : Call} (hcall : call.GoesOn)
    (hpending : c.pending = none) {g g' : Generator} {u : Underway}
    (hb : call.begin g c.tracker = .ok (u, g')) :
    ({ c with tracker := u.standing, pending := some u.program } : Scene σ).Standing := by
  cases h with
  | idle hnone hp hf => exact .busy hnone u.program rfl (Call.begin_always hf hcall hb)
  | busy hnone p hp ha => cases hp.symm.trans hpending
  | settled id hids hs hp =>
    obtain ⟨hstanding, ha⟩ := Call.begin_settled hs hcall hb
    refine .settled id hids ?_ fun p hp' => ?_
    · rw [hstanding]
      exact hs
    · cases hp'
      rw [hstanding]
      exact ha

theorem Standing.step {a b : Scene σ} (h : a.Standing) (hs : Step a b) : b.Standing := by
  cases hs with
  | other r hr => exact h.other hr
  | served r next hp => exact h.turn hp (.served a.ledger.store (.refl _))
  | failed r next hp e he => exact h.turn hp (.failed a.ledger.store (.refl _) e he)
  | returned report t hp => exact h.returned hp
  | called call hcall hp g g' u hb => exact h.called hcall hp hb

theorem Reachable.standing {c : Scene σ} (h : Reachable c) : c.Standing := by
  induction h with
  | start m hm category count now g g' u hb => exact standing_start hm hb
  | step ha hs ih => exact ih.step hs

/-- The store agrees with the run and with what the client was told. -/
structure Faithful (c : Scene σ) : Prop where
  /-- At most one session was added, and its answers are among those of the run in their order. -/
  single : c.ledger.own.length ≤ 1
  answers : ∀ id ∈ c.ledger.own, ∃ s, Holds c.ledger.store id s ∧
    s.answers.Sublist c.tracker.answers
  /-- A session that is said to be stored is the one session, and is stored and read exactly. -/
  saved : ∀ report ∈ c.reports, ∀ id, report.savedId? = some id → c.ledger.own = [id] ∧
    ∃ s, c.tracker.session? = some s ∧ s.id = some id ∧ s.completed = true ∧
      Holds c.ledger.store id s ∧
      (Store.serve (.getSession id) c.ledger.store).1 = .ok ((shown σ s).withId id)
  /-- Storing it again leads to the same number and to the same replies. -/
  again : ∀ report ∈ c.reports, ∀ id, report.savedId? = some id →
    ∃ m, (Practice.finalize c.tracker).run c.ledger.store = ((.ok id, c.tracker), m) ∧
      SameReplies c.ledger.store m

/-- Storing a stored session again, with no request that fails, changes no reply. -/
theorem finalize_of_settled (h : Ledger.Settled t id l) :
    ∃ m, (Practice.finalize t).run l.store = ((.ok id, t), m) ∧ SameReplies l.store m := by
  obtain ⟨s, hs, hid, hholds⟩ := h.records.session
  obtain ⟨hok, hsame⟩ := saves_again h.sound hholds hid
  refine ⟨_, ?_, hsame⟩
  have hrun : (Program.request (.saveSession s)).run l.store =
      (.ok (), (Store.serve (.saveSession s) l.store).2) := Prod.ext hok rfl
  simp only [Practice.finalize, h.completed, Practice.persist, hs, hid, Program.run_bind, hrun]
  rfl

theorem Standing.faithful {c : Scene σ} (h : c.Standing) (ht : c.tracker.Coherent) :
    c.Faithful := by
  obtain ⟨id?, hkeeps⟩ := h.owns.keeps
  refine ⟨?_, fun id hid => ?_, fun report hr id hid => ?_, fun report hr id hid => ?_⟩
  · cases hkeeps with
    | nothing hown => simp [hown]
    | session id s hown hholds hsub => simp [hown]
  · cases hkeeps with
    | nothing hown =>
      rw [hown] at hid
      cases hid
    | session i s hown hholds hsub =>
      rw [hown, List.mem_singleton] at hid
      exact hid ▸ ⟨s, hholds, hsub⟩
  · have hsettled := h.settled_of_mem hr hid
    obtain ⟨s, hs, hid', hholds⟩ := hsettled.records.session
    refine ⟨hsettled.records.own, s, hs, hid', ?_, hholds, ?_⟩
    · exact Tracker.completed_of_status hsettled.completed hs
    · exact get_of_holds hsettled.sound hholds (ht s hs)
  · exact finalize_of_settled (h.settled_of_mem hr hid)

end Scene

/-- Over a store that holds its values as they are as over one made of tables, and whatever fails:
at most one session is stored for a run, with answers of the run in their order; a session that is
said to be stored is stored exactly, and storing it again changes nothing. -/
theorem Scene.stored_faithfully :
    (∀ c : Scene Memory, c.Reachable → c.Faithful) ∧
      ∀ c : Scene Database, c.Reachable → c.Faithful :=
  ⟨fun _ h => h.standing.faithful h.steady.coherent,
    fun _ h => h.standing.faithful h.steady.coherent⟩

/-- A run of three problems whose first answer does not reach the store, and one of two problems
whose session does not reach it before its end. -/
theorem Scene.stored_faithfully_of_completed :
    (∃ c : Scene Memory, c.Reachable ∧ c.saved = [⟨1⟩] ∧ c.tracker.answers.length = 3 ∧
      c.Faithful) ∧
      ∃ c : Scene Database, c.Reachable ∧ c.saved = [⟨1⟩] ∧ c.tracker.answers.length = 2 ∧
        c.Faithful := by
  constructor
  case left =>
    have hstart : (Scene.mk _ _ _ _ : Scene Memory).Reachable :=
      .start empty (.refl _) .mixed 3 .epoch
        (.listed [⟨"1 + 1", "2", none, none⟩, ⟨"2 + 2", "4", none, none⟩,
          ⟨"3 + 3", "6", none, none⟩]) _ _ rfl
    have hsubmit : (Scene.mk _ _ _ _ : Scene Memory).Reachable :=
      .step (hstart.answered rfl)
        (.called _ (.submit "2" .epoch) True.intro rfl (.listed []) _ _ rfl)
    have hfailed : (Scene.mk _ _ _ _ : Scene Memory).Reachable :=
      .step hsubmit (.failed _ _ _ rfl (.connection .offline) fun h => by cases h)
    have hsecond := (hfailed.answered rfl).next rfl (.submit "5" .epoch) True.intro (.listed []) rfl
    have hdone := hsecond.next rfl (.submit "6" .epoch) True.intro (.listed []) rfl
    exact ⟨_, hdone, rfl, rfl, Scene.stored_faithfully.1 _ hdone⟩
  case right =>
    have hstart : (Scene.mk _ _ _ _ : Scene Database).Reachable :=
      .start empty (.refl _) .mixed 2 .epoch
        (.listed [⟨"1 + 1", "2", none, none⟩, ⟨"2 + 2", "4", none, none⟩]) _ _ rfl
    have hfailed : (Scene.mk _ _ _ _ : Scene Database).Reachable :=
      .step hstart (.failed _ _ _ rfl (.connection .offline) fun h => by cases h)
    have hfirst := (hfailed.answered rfl).next rfl (.submit "3" .epoch) True.intro (.listed []) rfl
    have hdone := hfirst.next rfl (.submit "4" .epoch) True.intro (.listed []) rfl
    exact ⟨_, hdone, by decide +kernel, by decide +kernel, Scene.stored_faithfully.2 _ hdone⟩

end MentalMath
