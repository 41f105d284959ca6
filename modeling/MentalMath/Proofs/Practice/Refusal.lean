import MentalMath.Proofs.Practice.Consistency

/-! What a refused operation leaves. It leaves the holder as it was, but for one case: the last answer
of a run is recorded before its session is completed, so when the session cannot be completed, the
answer is refused and stays. The run is stranded then: it is in progress and no problem waits. -/

namespace MentalMath

namespace Run

/-- Only the last problem of a run in progress waits, and at an instant its session cannot be
completed: the instant is before its start, or it has more answers than an average can be taken
over. -/
structure Strands (r : Run) (now : Instant) : Prop where
  status : r.status = .inProgress
  last : r.current + 1 = r.problems.length
  refused : now < r.session.startedAt ∨ Session.maxAnswers < r.problems.length

/-- A run that was refused its last answer and holds it all the same. -/
structure Stranded (r r' : Run) (e : RunError) : Prop where
  error : e = .session .invalidTimeRange ∨ e = .session (.overflow r.problems.length)
  recorded : ∃ a, r'.session.answers = r.session.answers ++ [a]
  status : r'.status = .inProgress
  exhausted : r'.problems[r'.current]? = none

variable {r r' : Run} {input : String} {now : Instant} {e : RunError}

theorem status_eq_inProgress_iff :
    r.status = .inProgress ↔ r.session.completed = false ∧ r.sessionWatch.isPaused = false := by
  cases hc : r.session.completed <;> cases hp : r.sessionWatch.isPaused <;> simp [status, hc, hp]

/-- With its last answer a session is refused its completion only for its time or for the number of its
answers. -/
theorem Consistent.finalize_error_cases (h : r.Consistent) {a : Answer} {d : Span} {e : SessionError}
    (hc : r.session.completed = false) (hlast : r.current + 1 = r.problems.length)
    (hf : (r.session.withAnswer a).finalize now d = .error e) :
    now < r.session.startedAt ∧ e = .invalidTimeRange ∨
      Session.maxAnswers < r.problems.length ∧ e = .overflow r.problems.length := by
  have hopen : (r.session.withAnswer a).completed = false := hc
  have hlength := (h.length_withAnswer a).trans hlast
  simp only [Session.finalize, hopen, hlength, Bool.false_eq_true, if_false] at hf
  split at hf
  case isTrue hnow =>
    cases hf
    exact Or.inl ⟨hnow, rfl⟩
  case isFalse =>
    split at hf
    case isTrue hmany =>
      cases hf
      exact Or.inr ⟨hmany, rfl⟩
    case isFalse => cases hf

/-- An answer is refused and leaves the run as it was, or it strands the run. -/
theorem Consistent.refused_cases (h : r.Consistent) (hs : r.Submits input now (.error e) r') :
    r' = r ∧ ¬r.Strands now ∨ r.Strands now ∧ r.Stranded r' e := by
  cases hs with
  | closed hc =>
    refine Or.inl ⟨rfl, fun hst => ?_⟩
    cases hc.symm.trans (status_eq_inProgress_iff.mp hst.status).1
  | paused hc hp =>
    refine Or.inl ⟨rfl, fun hst => ?_⟩
    cases hp.symm.trans (status_eq_inProgress_iff.mp hst.status).2
  | exhausted hc hp hx =>
    refine Or.inl ⟨rfl, fun hst => ?_⟩
    have hlast := hst.last
    have hge := List.getElem?_eq_none_iff.mp hx
    omega
  | refused problem spent e hc hp hx hspent hrec =>
    have hlt := (List.getElem?_eq_some_iff.mp hx).1
    rw [h.record hc hlt] at hrec
    cases hrec
  | stuck problem spent total session e hc hp hx hspent hrec hl ht hf =>
    have hlt := (List.getElem?_eq_some_iff.mp hx).1
    have hlast : r.current + 1 = r.problems.length := by omega
    obtain rfl := h.eq_withAnswer hc hx hrec
    have hcases := h.finalize_error_cases hc hlast hf
    refine Or.inr ⟨⟨status_eq_inProgress_iff.mpr ⟨hc, hp⟩, hlast, ?_⟩, ⟨?_, ⟨_, rfl⟩, ?_, ?_⟩⟩
    · exact hcases.imp And.left And.left
    · rcases hcases with ⟨-, he⟩ | ⟨-, he⟩
      · exact Or.inl (congrArg RunError.session he)
      · exact Or.inr (congrArg RunError.session he)
    · exact status_eq_inProgress_iff.mpr ⟨hc, hp⟩
    · exact List.getElem?_eq_none_iff.mpr (Nat.le_of_eq hlast.symm)

/-- A stranded run differs from the one before, by the answer it holds. -/
theorem Stranded.ne (h : r.Stranded r' e) : r' ≠ r := by
  intro heq
  obtain ⟨a, ha⟩ := h.recorded
  rw [heq] at ha
  exact List.cons_ne_nil a [] (List.self_eq_append_right.mp ha)

/-- A stranded run refuses every answer, as a completed one does. -/
theorem Stranded.submit (h : r.Stranded r' e) (input : String) (now : Instant) :
    r'.submit input now = .ok (.error .completed, r') := by
  obtain ⟨hc, hp⟩ := status_eq_inProgress_iff.mp h.status
  simp [Run.submit, hc, hp, h.exhausted]

end Run

namespace Tracker

/-- The operation hands in the last answer of a run at an instant at which its session cannot be
completed. -/
def Strands (t : Tracker) (op : Operation) : Prop :=
  ∃ input now r, op = .submit input now ∧ t.run = some r ∧ r.Strands now

/-- What a refused operation leaves: the holder as it was, or a stranded run, which is in progress,
holds the answer that was refused, and refuses every further one. -/
structure Leaves (t : Tracker) (op : Operation) (e : RunError) (t' : Tracker) : Prop where
  unchanged : t' = t ↔ ¬t.Strands op
  stranded : t.Strands op → ∃ r r', t.run = some r ∧ t'.run = some r' ∧ r.Stranded r' e ∧
    ∀ input now, t'.submit input now = .ok (.error .completed, t')

section

variable {t : Tracker} {r r' : Run} {op : Operation} {input : String} {now : Instant} {e : RunError}

theorem strands_submit_iff (hrun : t.run = some r) :
    t.Strands (.submit input now) ↔ r.Strands now := by
  constructor
  · rintro ⟨input', now', r₁, hop, hr₁, hst⟩
    cases hop
    cases hrun.symm.trans hr₁
    exact hst
  · intro hst
    exact ⟨input, now, r, rfl, hrun, hst⟩

theorem leaves_of_not_strands (h : ¬t.Strands op) : t.Leaves op e t :=
  ⟨⟨fun _ => h, fun _ => rfl⟩, fun hst => absurd hst h⟩

theorem leaves_of_stranded (hrun : t.run = some r) (hst : r.Strands now) (h : r.Stranded r' e) :
    t.Leaves (.submit input now) e ⟨some r'⟩ := by
  have hstrands : t.Strands (.submit input now) := (strands_submit_iff hrun).mpr hst
  refine ⟨⟨fun heq => ?_, fun hnot => absurd hstrands hnot⟩, fun _ => ?_⟩
  · have hrun' := congrArg Tracker.run heq
    rw [hrun] at hrun'
    exact absurd (Option.some.inj hrun') h.ne
  · refine ⟨r, r', hrun, rfl, h, fun input now => ?_⟩
    simp only [Tracker.submit, h.submit, bind, Except.bind]
    rfl

end

/-- A refused operation leaves the holder as it was, exactly if it does not hand in the last answer of
a run in progress at an instant before the start of its session, or with more answers than an average
can be taken over. -/
theorem unchanged_unless_stranded {t t' : Tracker} {op : Operation} {e : RunError}
    (ht : t.Reachable) (h : t.operate op = .ok (.error e, t')) : t.Leaves op e t' := by
  have ho := operates_of_operate h
  generalize hresult : Except.error e = result at ho
  cases ho with
  | unstarted _ now hop =>
    refine leaves_of_not_strands ?_
    rintro ⟨input, now', r, rfl, -⟩
    cases hop
  | started | reset | numbered => cases hresult
  | absent _ now hop hrun =>
    refine leaves_of_not_strands ?_
    rintro ⟨input, now', r, -, hr, -⟩
    cases hrun.symm.trans hr
  | submitted input now r r' result hrun hs =>
    cases result with
    | ok s => cases hresult
    | error e' =>
      cases hresult
      rcases (ht.consistent r hrun).refused_cases hs with ⟨rfl, hnot⟩ | ⟨hst, hafter⟩
      · cases t with | mk run =>
        cases hrun
        exact leaves_of_not_strands fun hst => hnot ((strands_submit_iff rfl).mp hst)
      · exact leaves_of_stranded hrun hst hafter
  | toggled now r r' result hrun hs =>
    cases hs with
    | resumed | stopped => cases hresult
    | closed hc =>
      cases t with | mk run =>
      cases hrun
      refine leaves_of_not_strands ?_
      rintro ⟨input, now', r₁, hop, -⟩
      cases hop

/-- The only answer of a run comes a second before its start. -/
theorem unchanged_unless_stranded_of_turned_clock :
    let sum : Problem := ⟨.mixed, "1 + 1", "2", none, .epoch⟩
    let start : Instant := ⟨1, 0, by decide, by decide⟩
    let t := (empty.startWith .mixed [sum] start).2
    ∃ t', t.Reachable ∧
      t.operate (.submit "2" .epoch) = .ok (.error (.session .invalidTimeRange), t') ∧
      t'.currentIndex = 1 ∧
      t.Leaves (.submit "2" .epoch) (.session .invalidTimeRange) t' := by
  intro sum start t
  have hreachable : t.Reachable := ⟨[.startWith .mixed [sum] start], [.ok .done], rfl⟩
  have hend : ∃ t', t.operate (.submit "2" .epoch) =
      .ok (.error (.session .invalidTimeRange), t') ∧ t'.currentIndex = 1 := ⟨_, rfl, rfl⟩
  obtain ⟨t', hop, hindex⟩ := hend
  exact ⟨t', hreachable, hop, hindex, unchanged_unless_stranded hreachable hop⟩

/-- Not every refused operation leaves the holder as it was: the answer that comes before the start of
its run is refused, and the run has gone on to the place after its only problem. -/
theorem not_unchanged_of_turned_clock :
    ¬∀ (t t' : Tracker) (op : Operation) (e : RunError),
      t.Reachable → t.operate op = .ok (.error e, t') → t' = t := by
  intro h
  let sum : Problem := ⟨.mixed, "1 + 1", "2", none, .epoch⟩
  let start : Instant := ⟨1, 0, by decide, by decide⟩
  let t := (empty.startWith .mixed [sum] start).2
  have hreachable : t.Reachable := ⟨[.startWith .mixed [sum] start], [.ok .done], rfl⟩
  have hend : ∃ t', t.operate (.submit "2" .epoch) =
      .ok (.error (.session .invalidTimeRange), t') ∧ t'.currentIndex = 1 := ⟨_, rfl, rfl⟩
  obtain ⟨t', hop, hindex⟩ := hend
  rw [h t t' _ _ hreachable hop] at hindex
  exact absurd hindex (by decide)

end Tracker

end MentalMath
