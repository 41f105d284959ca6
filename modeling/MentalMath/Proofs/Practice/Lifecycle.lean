import MentalMath.Proofs.Practice.Consistency
import MentalMath.Proofs.Practice.Independence
import MentalMath.Proofs.Practice.Refusal
import MentalMath.Proofs.Practice.Timing

/-! What the status of a run decides while the time does not go back. It is not kept but read off
the session and a stopwatch, and still says which operations are refused and why. A run over `n`
problems is completed by the `n`-th answer that it accepts, and by nothing else, and then stays as
it is. -/

namespace MentalMath

namespace Run

/-- At most one problem is left of more than an average can be taken over. -/
def Overfull (r : Run) : Prop :=
  Session.maxAnswers < r.problems.length ∧ r.problems.length ≤ r.current + 1

/-- Up to an instant, the operations on the run came in the order of their times, and it accepted
that many answers. The answer that an overfull run refuses takes the last problem all the same. -/
structure InTime (r : Run) (accepted : Nat) (last : Instant) : Prop where
  ordered : r.Ordered last
  closed : r.session.completed = true → accepted = r.problems.length
  waiting : r.session.completed = false → accepted < r.problems.length ∧
    (r.current = accepted ∨ r.current = r.problems.length ∧ Session.maxAnswers < r.problems.length)

variable {r r' : Run} {k : Nat} {last now : Instant} {input : String}

theorem status_eq_completed_iff : r.status = .completed ↔ r.session.completed = true := by
  cases hc : r.session.completed <;> cases hp : r.sessionWatch.isPaused <;> simp [status, hc, hp]

theorem status_eq_paused_iff :
    r.status = .paused ↔ r.session.completed = false ∧ r.sessionWatch.isPaused = true := by
  cases hc : r.session.completed <;> cases hp : r.sessionWatch.isPaused <;> simp [status, hc, hp]

theorem status_ne_notStarted (r : Run) : r.status ≠ .notStarted := by
  cases hc : r.session.completed <;> cases hp : r.sessionWatch.isPaused <;> simp [status, hc, hp]

theorem inTime_start {c : Category} {problems : List Problem} (h : start c problems now = .ok r) :
    r.InTime 0 now := by
  have hordered := ordered_start h
  obtain ⟨⟨hsome, -⟩, rfl⟩ := start_eq_ok_iff.mp h
  refine ⟨hordered, ?_, ?_⟩
  · intro hc
    cases hc
  · intro _
    exact ⟨List.length_pos_iff.mpr hsome, Or.inl rfl⟩

theorem InTime.later (h : r.InTime k last) (hn : last ≤ now) : r.InTime k now :=
  { h with ordered := h.ordered.later hn }

theorem InTime.withSessionId (h : r.InTime k last) (id : SessionId) :
    (r.withSessionId id).InTime k last :=
  ⟨h.ordered.withSessionId id, h.closed, h.waiting⟩

/-- A run that is neither completed nor overfull waits for an answer. -/
theorem InTime.lt (h : r.InTime k last) (hc : r.session.completed = false) (ho : ¬r.Overfull) :
    r.current < r.problems.length := by
  obtain ⟨hk, hcurrent⟩ := h.waiting hc
  rcases hcurrent with hcurrent | ⟨hcurrent, hmany⟩
  · omega
  · exact absurd ⟨hmany, by omega⟩ ho

theorem InTime.currentProblem (h : r.InTime k last) (ho : ¬r.Overfull) :
    r.problems[r.current]?.isSome = true ↔ r.session.completed = false := by
  cases hc : r.session.completed with
  | false =>
    rw [List.getElem?_eq_getElem (h.lt hc ho)]
    exact ⟨fun _ => rfl, fun _ => rfl⟩
  | true =>
    rw [List.getElem?_eq_none (Nat.le_of_eq (h.ordered.consistent.ended hc).all.symm)]
    simp

/-- What an answer does to a run that is in time: only an accepted one counts, and it completes the
run exactly if it is the last. -/
theorem InTime.submit {result : Except RunError Submission} (h : r.InTime k now)
    (hs : r.Submits input now result r') :
    r'.problems = r.problems ∧
      match result with
      | .ok s => r'.InTime (k + 1) now ∧ (s.isComplete = true ↔ k + 1 = r.problems.length)
      | .error _ => r'.InTime k now := by
  have hordered := h.ordered.of_submits hs
  cases hs with
  | closed | paused | exhausted | refused => exact ⟨rfl, h⟩
  | advanced problem spent session hc hp hx hspent hrec hl =>
    obtain ⟨-, hcurrent⟩ := h.waiting hc
    obtain rfl := h.ordered.consistent.eq_withAnswer hc hx hrec
    have hk : r.current = k := by omega
    refine ⟨rfl, ⟨hordered, ?_, ?_⟩, ?_⟩
    · intro hcompleted
      cases hc.symm.trans hcompleted
    · intro _
      exact ⟨by rw [← hk]; exact hl, Or.inl (congrArg (· + 1) hk)⟩
    · constructor
      · intro hcomplete
        cases hcomplete
      · intro hlast
        omega
  | stuck problem spent total session e hc hp hx hspent hrec hl ht hf =>
    obtain ⟨hlt, -⟩ := h.waiting hc
    have hx' := (List.getElem?_eq_some_iff.mp hx).1
    obtain rfl := h.ordered.consistent.eq_withAnswer hc hx hrec
    have hall : r.current + 1 = r.problems.length := by omega
    refine ⟨rfl, hordered, ?_, ?_⟩
    · intro hcompleted
      cases hc.symm.trans hcompleted
    · intro _
      exact ⟨hlt, Or.inr ⟨hall, (h.ordered.many_of_finalize hc hall hf).1⟩⟩
  | finished problem spent total session final hc hp hx hspent hrec hl ht hf =>
    obtain ⟨-, hcurrent⟩ := h.waiting hc
    have hx' := (List.getElem?_eq_some_iff.mp hx).1
    obtain rfl := h.ordered.consistent.eq_withAnswer hc hx hrec
    obtain ⟨-, -, -, rfl⟩ := Session.finalize_eq_ok_iff.mp hf
    have hall : k + 1 = r.problems.length := by omega
    refine ⟨rfl, ⟨hordered, fun _ => hall, ?_⟩, ?_⟩
    · intro hcompleted
      cases hcompleted
    · exact ⟨fun _ => hall, fun _ => rfl⟩

theorem InTime.toggle (h : r.InTime k now) :
    ∃ result r', r.togglePause now = .ok (result, r') ∧ r.Toggles now result r' ∧
      r'.problems = r.problems ∧ r'.InTime k now := by
  obtain ⟨result, r', hr, hs, hordered, hproblems⟩ := h.ordered.togglePause
  refine ⟨result, r', hr, hs, hproblems, hordered, ?_, ?_⟩
  · cases hs with
    | closed => exact h.closed
    | resumed | stopped => exact h.closed
  · cases hs with
    | closed => exact h.waiting
    | resumed | stopped => exact h.waiting

theorem Toggles.of_inProgress {result : Except RunError RunStatus} (hs : r.Toggles now result r')
    (hp : r.status = .inProgress) : result = .ok .paused ∧ r'.status = .paused := by
  obtain ⟨hopen, hrunning⟩ := status_eq_inProgress_iff.mp hp
  cases hs with
  | closed hc => cases hopen.symm.trans hc
  | resumed _ _ _ _ _ hw => cases hrunning.symm.trans hw
  | stopped hc hw =>
    have hstopped : (r.sessionWatch.pause now).2.isPaused = true := by
      simp only [Stopwatch.pause, Stopwatch.isPaused_eq_false_iff.mp hw, Stopwatch.isPaused]
    exact ⟨rfl, status_eq_paused_iff.mpr ⟨hc, hstopped⟩⟩

theorem Toggles.of_paused {result : Except RunError RunStatus} (hs : r.Toggles now result r')
    (hp : r.status = .paused) : result = .ok .inProgress ∧ r'.status = .inProgress := by
  obtain ⟨hopen, hstanding⟩ := status_eq_paused_iff.mp hp
  cases hs with
  | closed hc => cases hopen.symm.trans hc
  | stopped _ hw => cases hstanding.symm.trans hw
  | resumed sp qp sw qw hc _ hsw hqw =>
    obtain ⟨-, -, hrun⟩ := Stopwatch.resume_snd hsw
    exact ⟨rfl, status_eq_inProgress_iff.mpr ⟨hc, Stopwatch.isPaused_eq_false_iff.mpr hrun⟩⟩

/-- In progress, a run accepts any answer, and stays in progress unless the answer is the last one.
-/
theorem InTime.accepts (h : r.InTime k now) (hp : r.status = .inProgress) (ho : ¬r.Overfull)
    (input : String) :
    ∃ s r', r.submit input now = .ok (.ok s, r') ∧
      r'.status = if s.isComplete then .completed else .inProgress := by
  obtain ⟨hopen, -⟩ := status_eq_inProgress_iff.mp hp
  obtain ⟨result, r', hr, -, ht⟩ := h.ordered.takes hp (h.lt hopen ho) input
  cases ht with
  | advanced problem spent hl => exact ⟨_, _, hr, hp⟩
  | finished problem spent final hl hfew hc => exact ⟨_, _, hr, status_eq_completed_iff.mpr hc⟩
  | overrun problem spent hspent hl hmany => exact absurd ⟨hmany, Nat.le_of_eq hl.symm⟩ ho

/-- An overfull run accepts no answer: its last one would complete the session. -/
theorem Consistent.not_accepts {s : Submission} (h : r.Consistent) (ho : r.Overfull) :
    ¬r.Submits input now (.ok s) r' := by
  obtain ⟨hmany, hlast⟩ := ho
  intro hs
  cases hs with
  | advanced problem spent session hc hp hx hspent hrec hl => omega
  | finished problem spent total session final hc hp hx hspent hrec hl ht hf =>
    obtain rfl := h.eq_withAnswer hc hx hrec
    obtain ⟨-, -, hfew, -⟩ := Session.finalize_eq_ok_iff.mp hf
    have hlength := h.length_withAnswer (.grade problem input spent now)
    omega

end Run

namespace Tracker

def Overfull (t : Tracker) : Prop :=
  ∃ r, t.run = some r ∧ r.Overfull

/-- The status alone tells, at an instant, whether an answer is accepted and a pause is switched,
why they are refused, and whether a problem waits. -/
structure Decides (t : Tracker) (now : Instant) : Prop where
  submit : ∀ input, match t.status with
    | .notStarted => t.submit input now = .ok (.error .notStarted, t)
    | .paused => t.submit input now = .ok (.error .paused, t)
    | .completed => t.submit input now = .ok (.error .completed, t)
    | .inProgress => ∃ s t', t.submit input now = .ok (.ok s, t') ∧
      t'.status = if s.isComplete then .completed else .inProgress
  togglePause : match t.status with
    | .notStarted => t.togglePause now = .ok (.error .notStarted, t)
    | .completed => t.togglePause now = .ok (.error .completed, t)
    | .inProgress => ∃ t', t.togglePause now = .ok (.ok .paused, t') ∧ t'.status = .paused
    | .paused => ∃ t', t.togglePause now = .ok (.ok .inProgress, t') ∧ t'.status = .inProgress
  currentProblem : t.currentProblem?.isSome = true ↔ t.status = .inProgress ∨ t.status = .paused

theorem decides_empty (now : Instant) : empty.Decides now :=
  ⟨fun _ => rfl, rfl, by simp [currentProblem?, status, empty]⟩

theorem submit_of_completed {r : Run} (hc : r.session.completed = true) (input : String)
    (now : Instant) : (mk (some r)).submit input now = .ok (.error .completed, ⟨some r⟩) := by
  simp [Tracker.submit, Run.submit, hc, bind, Except.bind]
  rfl

theorem togglePause_of_completed {r : Run} (hc : r.session.completed = true) (now : Instant) :
    (mk (some r)).togglePause now = .ok (.error .completed, ⟨some r⟩) := by
  simp [Tracker.togglePause, Run.togglePause, hc, bind, Except.bind]
  rfl

theorem decides_of_inTime {r : Run} {k : Nat} {now : Instant} (h : r.InTime k now)
    (ho : ¬r.Overfull) : (mk (some r)).Decides now := by
  have hstatus : (mk (some r)).status = r.status := rfl
  have hcurrent : (mk (some r)).currentProblem?.isSome = true ↔ r.session.completed = false :=
    h.currentProblem ho
  obtain ⟨result, r', hr, hs, -, -⟩ := h.toggle
  have htoggle : (mk (some r)).togglePause now = .ok (result, ⟨some r'⟩) := by
    simp [Tracker.togglePause, hr, bind, Except.bind]
    rfl
  cases hp : r.status with
  | notStarted => exact absurd hp r.status_ne_notStarted
  | inProgress =>
    obtain ⟨hc, -⟩ := Run.status_eq_inProgress_iff.mp hp
    obtain ⟨rfl, hafter⟩ := hs.of_inProgress hp
    refine ⟨fun input => ?_, ?_, ?_⟩
    · obtain ⟨s, r₁, hr₁, hafter₁⟩ := h.accepts hp ho input
      simp only [hstatus, hp]
      refine ⟨s, ⟨some r₁⟩, ?_, hafter₁⟩
      simp only [Tracker.submit, hr₁, bind, Except.bind]
      rfl
    · simp only [hstatus, hp]
      exact ⟨⟨some r'⟩, htoggle, hafter⟩
    · simp [hcurrent, hstatus, hp, hc]
  | paused =>
    obtain ⟨hc, hw⟩ := Run.status_eq_paused_iff.mp hp
    obtain ⟨rfl, hafter⟩ := hs.of_paused hp
    refine ⟨fun input => ?_, ?_, ?_⟩
    · simp only [hstatus, hp]
      simp [Tracker.submit, Run.submit, hc, hw, bind, Except.bind]
      rfl
    · simp only [hstatus, hp]
      exact ⟨⟨some r'⟩, htoggle, hafter⟩
    · simp [hcurrent, hstatus, hp, hc]
  | completed =>
    have hc := Run.status_eq_completed_iff.mp hp
    refine ⟨fun input => ?_, ?_, ?_⟩
    · simp only [hstatus, hp]
      exact submit_of_completed hc input now
    · simp only [hstatus, hp]
      exact togglePause_of_completed hc now
    · simp [hcurrent, hstatus, hp, hc]

/-! ### Whole runs -/

/-- Whatever run it finds, the operation leaves it in place: it does not drop it, and if it is to
start another one, it is refused. -/
def Operation.Stays (op : Operation) : Prop :=
  op ≠ .reset ∧
    ∀ now, op.startsAt? = some now → ∀ t : Tracker, ∃ e, t.operate op = .ok (.error e, t)

/-- The answer that an operation had accepted. -/
def accepted? : Except RunError Yield → Option Submission
  | .ok (.answered s) => some s
  | _ => none

/-- What operations on a run of `n` problems show, and where they leave it: it is completed exactly
if as many answers were accepted as it has problems, and that is said of the last one and of no
other. -/
structure Completes (n : Nat) (results : List (Except RunError Yield)) (t : Tracker) : Prop where
  problems : t.problems.length = n
  within : (results.filterMap accepted?).length ≤ n
  completed : t.status = .completed ↔ (results.filterMap accepted?).length = n
  reported : ∀ i s, (results.filterMap accepted?)[i]? = some s →
    (s.isComplete = true ↔ i + 1 = n)

variable {t : Tracker} {r : Run} {k : Nat} {last : Instant} {op : Operation} {ops : List Operation}

/-- The first operation on a run that is in time never faults, keeps the run in time and counts the
answer that it had accepted. -/
theorem operate_inTime (h : r.InTime k last) (hop : op.Stays)
    (hlast : ∀ now, op.worksAt? = some now → last ≤ now) :
    ∃ result r', (mk (some r)).operate op = .ok (result, ⟨some r'⟩) ∧
      r'.problems = r.problems ∧
      r'.InTime (k + (accepted? result).toList.length) (op.worksAt?.getD last) ∧
      ∀ s, accepted? result = some s → (s.isComplete = true ↔ k + 1 = r.problems.length) := by
  -- Whatever is not an accepted answer says nothing about the completion of the run.
  have hsilent : ∀ result : Except RunError Yield, accepted? result = none →
      ∀ s, accepted? result = some s → (s.isComplete = true ↔ k + 1 = r.problems.length) := by
    intro result hnone s hs
    cases hnone.symm.trans hs
  cases op with
  | start g c count now =>
    obtain ⟨e, he⟩ := hop.2 now rfl ⟨some r⟩
    exact ⟨.error e, r, he, rfl, h, hsilent _ rfl⟩
  | startWith c problems now =>
    obtain ⟨e, he⟩ := hop.2 now rfl ⟨some r⟩
    exact ⟨.error e, r, he, rfl, h, hsilent _ rfl⟩
  | reset => exact absurd rfl hop.1
  | withSessionId id =>
    exact ⟨.ok .done, r.withSessionId id, rfl, rfl, h.withSessionId id, hsilent _ rfl⟩
  | togglePause now =>
    obtain ⟨result, r', hr, -, hproblems, h'⟩ := (h.later (hlast now rfl)).toggle
    have hnone : accepted? (result.map .toggled) = none := by
      cases result <;> rfl
    refine ⟨result.map .toggled, r', ?_, hproblems, ?_, hsilent _ hnone⟩
    · simp only [operate, Tracker.togglePause, hr, bind, Except.bind]
      rfl
    · rw [hnone]
      exact h'
  | submit input now =>
    have hnow := h.later (hlast now rfl)
    obtain ⟨result, r', hr, hs⟩ := hnow.ordered.submit input
    obtain ⟨hproblems, h'⟩ := hnow.submit hs
    refine ⟨result.map .answered, r', ?_, hproblems, ?_⟩
    · simp only [operate, Tracker.submit, hr, bind, Except.bind]
      rfl
    · cases result with
      | error e => exact ⟨h', hsilent _ rfl⟩
      | ok s =>
        refine ⟨h'.1, fun s' hs' => ?_⟩
        cases hs'
        exact h'.2

/-- Times that do not go back do not go back after the first operation. -/
theorem pairwise_worksAt (h : (last :: (op :: ops).filterMap Operation.worksAt?).Pairwise (· ≤ ·)) :
    (∀ now, op.worksAt? = some now → last ≤ now) ∧
      (op.worksAt?.getD last :: ops.filterMap Operation.worksAt?).Pairwise (· ≤ ·) := by
  cases hw : op.worksAt? with
  | none =>
    rw [List.filterMap_cons_none hw] at h
    refine ⟨fun now hnow => ?_, h⟩
    cases hnow
  | some now =>
    rw [List.filterMap_cons_some hw, List.pairwise_cons] at h
    refine ⟨fun now' hnow => ?_, h.2⟩
    cases hnow
    exact h.1 now List.mem_cons_self

/-- Operations at times that do not go back never fault, and count the answers that they had
accepted. -/
theorem follow_inTime (h : r.InTime k last) (hops : ∀ op ∈ ops, op.Stays)
    (htimes : (last :: ops.filterMap Operation.worksAt?).Pairwise (· ≤ ·)) :
    ∃ results r' last', follow ops ⟨some r⟩ = .ok (results, ⟨some r'⟩) ∧
      r'.problems = r.problems ∧ r'.InTime (k + (results.filterMap accepted?).length) last' ∧
      last' ∈ last :: ops.filterMap Operation.worksAt? ∧
      ∀ i s, (results.filterMap accepted?)[i]? = some s →
        (s.isComplete = true ↔ k + i + 1 = r.problems.length) := by
  induction ops generalizing r k last with
  | nil => exact ⟨[], r, last, rfl, rfl, h, List.mem_cons_self, fun i s hs => nomatch hs⟩
  | cons op ops ih =>
    obtain ⟨hhead, htail⟩ := List.forall_mem_cons.mp hops
    obtain ⟨hlast, hrest⟩ := pairwise_worksAt htimes
    obtain ⟨result, r₁, ho, hproblems₁, h₁, hreport₁⟩ := operate_inTime h hhead hlast
    obtain ⟨results, r', last', hf, hproblems, h', hmem, hreport⟩ := ih h₁ htail hrest
    refine ⟨result :: results, r', last', follow_cons_eq_ok.mpr ⟨result, _, results, ho, hf, rfl⟩,
      hproblems.trans hproblems₁, ?_, ?_, ?_⟩
    · rw [Nat.add_assoc] at h'
      cases hs : accepted? result with
      | none => simpa [List.filterMap_cons_none hs, hs] using h'
      | some s =>
        rw [hs, Option.toList_some, List.length_singleton, Nat.add_comm 1] at h'
        rw [List.filterMap_cons_some hs, List.length_cons]
        exact h'
    · cases hw : op.worksAt? with
      | none => simpa [List.filterMap_cons_none hw, hw] using hmem
      | some now =>
        rw [List.filterMap_cons_some hw]
        rw [hw, Option.getD_some] at hmem
        exact List.mem_cons_of_mem last hmem
    · intro i s hi
      rw [hproblems₁] at hreport
      cases hs : accepted? result with
      | none =>
        rw [List.filterMap_cons_none hs] at hi
        rw [hs] at hreport
        exact hreport i s hi
      | some s₁ =>
        rw [List.filterMap_cons_some hs] at hi
        rw [hs, Option.toList_some, List.length_singleton] at hreport
        cases i with
        | zero =>
          cases hi
          exact hreport₁ s hs
        | succ i =>
          have hsucc := hreport i s hi
          rw [Nat.add_assoc k 1 i, Nat.add_comm 1 i] at hsucc
          exact hsucc

theorem operate_of_completed (h : t.status = .completed) (hop : op.Stays) :
    ∃ result t', t.operate op = .ok (result, t') ∧ t'.withoutId = t.withoutId := by
  cases t with | mk run =>
  cases run with
  | none => cases h
  | some r =>
  have hc := Run.status_eq_completed_iff.mp h
  cases op with
  | start g c count now =>
    obtain ⟨e, he⟩ := hop.2 now rfl ⟨some r⟩
    exact ⟨.error e, _, he, rfl⟩
  | startWith c problems now =>
    obtain ⟨e, he⟩ := hop.2 now rfl ⟨some r⟩
    exact ⟨.error e, _, he, rfl⟩
  | reset => exact absurd rfl hop.1
  | withSessionId id => exact ⟨.ok .done, _, rfl, withoutId_withSessionId _ id⟩
  | submit input now =>
    refine ⟨.error .completed, _, ?_, rfl⟩
    simp only [operate, submit_of_completed hc, bind, Except.bind]
    rfl
  | togglePause now =>
    refine ⟨.error .completed, _, ?_, rfl⟩
    simp only [operate, togglePause_of_completed hc, bind, Except.bind]
    rfl

theorem follow_of_completed (h : t.status = .completed) (hops : ∀ op ∈ ops, op.Stays) :
    ∃ results t', follow ops t = .ok (results, t') ∧ t'.withoutId = t.withoutId := by
  induction ops generalizing t with
  | nil => exact ⟨[], t, rfl, rfl⟩
  | cons op ops ih =>
    obtain ⟨hhead, htail⟩ := List.forall_mem_cons.mp hops
    obtain ⟨result, t₁, ho, hsame₁⟩ := operate_of_completed h hhead
    have h₁ : t₁.status = .completed := by
      rw [← status_withoutId, hsame₁, status_withoutId, h]
    obtain ⟨results, t', hf, hsame⟩ := ih h₁ htail
    exact ⟨result :: results, t', follow_cons_eq_ok.mpr ⟨result, t₁, results, ho, hf, rfl⟩,
      hsame.trans hsame₁⟩

/-- The run of a holder is completed and stays so, whatever operations leave it in place, at times
in any order. -/
structure StaysCompleted (t : Tracker) : Prop where
  status : t.status = .completed
  unchanged : ∀ ops : List Operation, (∀ op ∈ ops, op.Stays) →
    ∃ results t', follow ops t = .ok (results, t') ∧ t'.status = .completed ∧
      t'.withoutId = t.withoutId

theorem staysCompleted_of_status (h : t.status = .completed) : t.StaysCompleted := by
  refine ⟨h, fun ops hops => ?_⟩
  obtain ⟨results, t', hf, hsame⟩ := follow_of_completed h hops
  have hstatus : t'.status = .completed := by
    rw [← status_withoutId, hsame, status_withoutId, h]
  exact ⟨results, t', hf, hstatus, hsame⟩

theorem completes_of_inTime {results : List (Except RunError Yield)} {n : Nat}
    (h : r.InTime (results.filterMap accepted?).length last) (hn : r.problems.length = n)
    (hreport : ∀ i s, (results.filterMap accepted?)[i]? = some s →
      (s.isComplete = true ↔ i + 1 = n)) : (mk (some r)).Completes n results := by
  subst hn
  refine ⟨rfl, ?_, ?_, hreport⟩
  · cases hc : r.session.completed with
    | true => exact Nat.le_of_eq (h.closed hc)
    | false => exact Nat.le_of_lt (h.waiting hc).1
  · show r.status = .completed ↔ _
    rw [Run.status_eq_completed_iff]
    cases hc : r.session.completed with
    | true => exact ⟨fun _ => h.closed hc, fun _ => rfl⟩
    | false =>
      have hlt := (h.waiting hc).1
      constructor
      · intro hcompleted
        cases hcompleted
      · intro hall
        omega

/-- However operations go on with a run at times that do not go back, its status decides what comes
of the next one, as it does before any run. The run is completed by the last of as many accepted
answers as it has problems, which alone says so, and then stays completed until it is dropped or
another one is started. The one exception is an overfull run, which accepts no answer and is never
completed: a session with that many answers refuses to be. -/
theorem status_decides {t₀ t : Tracker} {begins : Operation} {start : Instant} {ops : List Operation}
    (hbegins : begins.startsAt? = some start) (hstart : t₀.operate begins = .ok (.ok .done, t))
    (hops : ∀ op ∈ ops, op.Stays)
    (htimes : (start :: ops.filterMap Operation.worksAt?).Pairwise (· ≤ ·)) :
    ∃ results t', follow ops t = .ok (results, t') ∧
      (∀ now, (∀ earlier ∈ start :: ops.filterMap Operation.worksAt?, earlier ≤ now) →
        empty.Decides now ∧ (¬t'.Overfull → t'.Decides now)) ∧
      t'.Completes t.problems.length results ∧
      (t'.status = .completed → t'.StaysCompleted) ∧
      (t'.Overfull → t'.status ≠ .completed ∧
        ∀ input now s t'', t'.submit input now ≠ .ok (.ok s, t'')) := by
  generalize hresult : Except.ok Yield.done = result at hstart
  have ho := operates_of_operate hstart
  cases ho with
  | unstarted | absent => cases hresult
  | submitted _ _ _ _ result => cases result <;> cases hresult
  | toggled _ _ _ result => cases result <;> cases hresult
  | reset | numbered => cases hbegins
  | started _ c problems now r hop hr =>
    obtain rfl : now = start := Option.some.inj (hop.symm.trans hbegins)
    obtain ⟨results, r', last, hf, hproblems, h', hlast, hreport⟩ :=
      follow_inTime (Run.inTime_start hr) hops htimes
    simp only [Nat.zero_add] at h' hreport
    refine ⟨results, ⟨some r'⟩, hf, fun now hnow => ⟨decides_empty now, fun hfull => ?_⟩, ?_, ?_, ?_⟩
    · have ho : ¬r'.Overfull := fun ho => hfull ⟨r', rfl, ho⟩
      exact decides_of_inTime (h'.later (hnow last hlast)) ho
    · exact completes_of_inTime h' (congrArg List.length hproblems) hreport
    · exact staysCompleted_of_status
    · rintro ⟨r₁, hr₁, hfull⟩
      cases hr₁
      refine ⟨fun hcompleted => ?_, fun input now s t'' hsubmit => ?_⟩
      · have hended := h'.ordered.consistent.ended (Run.status_eq_completed_iff.mp hcompleted)
        exact absurd hended.few (Nat.not_le.mpr hfull.1)
      · obtain ⟨⟨result, r₁⟩, hs, hafter⟩ := Checked.bind_eq_ok.mp hsubmit
        cases hafter
        exact h'.ordered.consistent.not_accepts hfull (Run.submits_of_submit hs)

/-- A run of two problems refuses an answer while it is paused and another start without problems,
and is completed by its second answer. -/
theorem status_decides_of_pause :
    let sum : Problem := ⟨.mixed, "1 + 1", "2", none, .epoch⟩
    let product : Problem := ⟨.mixed, "2 × 3", "6", none, .epoch⟩
    let begins : Operation := .startWith .mixed [sum, product] .epoch
    let t := (empty.startWith .mixed [sum, product] .epoch).2
    let ops : List Operation := [.togglePause (second 2 (by decide)), .submit "2" (second 4 (by decide)),
      .startWith .mixed [] .epoch, .togglePause (second 5 (by decide)),
      .submit "3" (second 7 (by decide)), .withSessionId ⟨7⟩, .submit "6" (second 9 (by decide)),
      .submit "6" (second 9 (by decide))]
    empty.operate begins = .ok (.ok .done, t) ∧
    (Instant.epoch :: ops.filterMap Operation.worksAt?).Pairwise (· ≤ ·) ∧
    ∃ results t', follow ops t = .ok (results, t') ∧ ¬t'.Overfull ∧
      t'.Decides (second 9 (by decide)) ∧ t'.Completes 2 results ∧ t'.StaysCompleted := by
  intro sum product begins t ops
  have hops : ∀ op ∈ ops, op.Stays := by
    have hstays : ∀ op : Operation, op ≠ .reset → op.startsAt? = none → op.Stays :=
      fun op hop hnone => ⟨hop, fun now hnow => by cases hnone.symm.trans hnow⟩
    have hempty : (Operation.startWith .mixed [] .epoch).Stays :=
      ⟨fun h => (by cases h), fun _ _ t => ⟨.empty, rfl⟩⟩
    simp only [ops, List.forall_mem_cons]
    refine ⟨?_, ?_, hempty, ?_, ?_, ?_, ?_, ?_, fun _ h => nomatch h⟩ <;>
      exact hstays _ (fun h => by cases h) rfl
  have htimes : (Instant.epoch :: ops.filterMap Operation.worksAt?).Pairwise (· ≤ ·) := by decide
  have hbegins : begins.startsAt? = some .epoch := rfl
  have hstart : empty.operate begins = .ok (.ok .done, t) := rfl
  have hlast : ∀ earlier ∈ Instant.epoch :: ops.filterMap Operation.worksAt?,
      earlier ≤ second 9 (by decide) := by decide
  obtain ⟨results, t', hf, hdecides, hcompletes, hstays, hfull⟩ :=
    status_decides hbegins hstart hops htimes
  have hend : (follow ops t).toOption.map (fun last => last.2.status) = some .completed := by
    decide +kernel
  rw [hf] at hend
  have hstatus : t'.status = .completed := Option.some.inj hend
  have hnot : ¬t'.Overfull := fun h => (hfull h).1 hstatus
  exact ⟨hstart, htimes, results, t', hf, hnot, (hdecides _ hlast).2 hnot, hcompletes, hstays hstatus⟩

/-- Any number of answers at one instant are accepted as long as they leave a problem. -/
theorem follow_replicate {n : Nat} {now : Instant} (h : r.Ordered now) (hp : r.status = .inProgress)
    (hn : r.current + n < r.problems.length) (input : String) :
    ∃ results r', follow (List.replicate n (.submit input now)) ⟨some r⟩ = .ok (results, ⟨some r'⟩) ∧
      r'.Ordered now ∧ r'.status = .inProgress ∧ r'.problems = r.problems ∧
      r'.current = r.current + n := by
  induction n generalizing r with
  | zero => exact ⟨[], r, rfl, h, hp, rfl, rfl⟩
  | succ n ih =>
    obtain ⟨s, r₁, hr, h₁, hp₁, hproblems₁, hcurrent₁⟩ := h.advances hp (by omega) input
    have ho : (mk (some r)).operate (.submit input now) = .ok (.ok (.answered s), ⟨some r₁⟩) := by
      simp only [operate, Tracker.submit, hr, bind, Except.bind]
      rfl
    obtain ⟨results, r', hf, h', hp', hproblems, hcurrent⟩ :=
      ih h₁ hp₁ (by rw [hproblems₁, hcurrent₁]; omega)
    refine ⟨_, r', follow_cons_eq_ok.mpr ⟨_, _, results, ho, hf, rfl⟩, h', hp',
      hproblems.trans hproblems₁, by omega⟩

/-- A run with more problems than an average can be taken over is in progress before its last answer
and refuses it; then it is in progress and no problem waits. -/
theorem refuses_of_many {n : Nat} (hmany : Session.maxAnswers < n) (hfew : n ≤ maxCount) (p : Problem)
    (input : String) :
    ∃ t results t' t'', empty.operate (.startWith .mixed (List.replicate n p) .epoch) =
        .ok (.ok .done, t) ∧
      (Instant.epoch :: (List.replicate (n - 1) (.submit input .epoch)).filterMap
        Operation.worksAt?).Pairwise (· ≤ ·) ∧
      follow (List.replicate (n - 1) (.submit input .epoch)) t = .ok (results, t') ∧
      t'.status = .inProgress ∧
      t'.submit input .epoch = .ok (.error (.session (.overflow n)), t'') ∧
      t''.status = .inProgress ∧ t''.currentProblem? = none := by
  obtain ⟨r₀, hr₀, hlength, hcurrent₀, hp₀⟩ := Run.start_replicate (by omega) hfew p .epoch
  have hstart : empty.operate (.startWith .mixed (List.replicate n p) .epoch) =
      .ok (.ok .done, ⟨some r₀⟩) := by
    simp only [operate, startWith, hr₀]
    rfl
  have htimes : (Instant.epoch :: (List.replicate (n - 1) (.submit input .epoch)).filterMap
      Operation.worksAt?).Pairwise (· ≤ ·) := by
    have hworks : (Operation.submit input .epoch).worksAt? = some Instant.epoch := rfl
    rw [List.filterMap_replicate_of_some hworks, ← List.replicate_succ]
    exact List.pairwise_replicate.mpr (Or.inr (Instant.le_refl _))
  obtain ⟨results, r, hf, h, hp, hproblems, hcurrent⟩ := follow_replicate (n := n - 1)
    (Run.ordered_start hr₀) hp₀ (by omega) input
  have hn : r.problems.length = n := by rw [hproblems, hlength]
  obtain ⟨problem, spent, -, hr⟩ := h.overruns hp (by omega) (by omega) input
  rw [hn] at hr
  have hexhausted : r.problems[r.current + 1]? = none := List.getElem?_eq_none (by omega)
  refine ⟨_, results, ⟨some r⟩, ⟨some { r with
    current := r.current + 1
    session := r.session.withAnswer (Answer.grade problem input spent .epoch) }⟩, hstart, htimes, hf,
    hp, ?_, hp, hexhausted⟩
  simp only [Tracker.submit, hr, bind, Except.bind]
  rfl

/-- The status alone does not decide what comes of the last answer of a run over 2147483648
problems. -/
theorem not_status_decides :
    let sum : Problem := ⟨.mixed, "1 + 1", "2", none, .epoch⟩
    let begins : Operation := .startWith .mixed (List.replicate 2147483648 sum) .epoch
    let ops : List Operation := List.replicate 2147483647 (.submit "2" .epoch)
    ∃ t results t' t'', empty.operate begins = .ok (.ok .done, t) ∧
      (Instant.epoch :: ops.filterMap Operation.worksAt?).Pairwise (· ≤ ·) ∧
      follow ops t = .ok (results, t') ∧ t'.status = .inProgress ∧
      t'.submit "2" .epoch = .ok (.error (.session (.overflow 2147483648)), t'') ∧
      t''.status = .inProgress ∧ t''.currentProblem? = none :=
  refuses_of_many (n := 2147483648) (by decide) (by decide) _ "2"

end Tracker

end MentalMath
