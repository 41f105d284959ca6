import MentalMath.Proofs.Practice.Step

/-! The operations of the holder of a run, in any order. `Operates` lists the ways in which an
operation can end, and `Reachable` is about the holders that operations lead to from the empty one, as
long as no calculation leaves its range. -/

namespace MentalMath.Tracker

inductive Operation where
  | start (g : Generator) (c : Category) (count : Nat) (now : Instant)
  | startWith (c : Category) (problems : List Problem) (now : Instant)
  | submit (input : String) (now : Instant)
  | togglePause (now : Instant)
  | reset
  | withSessionId (id : SessionId)

/-- What an operation yields that is not refused. -/
inductive Yield where
  | done
  | answered (s : Submission)
  | toggled (status : RunStatus)
  deriving DecidableEq, Repr

namespace Operation

/-- When a run is to start, if the operation starts one. -/
def startsAt? : Operation → Option Instant
  | .start _ _ _ now | .startWith _ _ now => some now
  | _ => none

/-- When the operation works on the run that it finds, if it needs one. -/
def worksAt? : Operation → Option Instant
  | .submit _ now | .togglePause now => some now
  | _ => none

end Operation

/-- What an operation yields, and the holder after it. A reset drops the run. -/
def operate (t : Tracker) : Operation → Checked (Outcome Yield)
  | .start g c count now => do
    let ((result, t), _) ← t.start g c count now
    return (result.map fun _ => .done, t)
  | .startWith c problems now =>
    let (result, t) := t.startWith c problems now
    .ok (result.map fun _ => .done, t)
  | .submit input now => do
    let (result, t) ← t.submit input now
    return (result.map .answered, t)
  | .togglePause now => do
    let (result, t) ← t.togglePause now
    return (result.map .toggled, t)
  | .reset => .ok (.ok .done, empty)
  | .withSessionId id => .ok (.ok .done, t.withSessionId id)

/-- What operations yield one after the other, and the holder after them. -/
def follow : List Operation → Tracker → Checked (List (Except RunError Yield) × Tracker)
  | [], t => .ok ([], t)
  | op :: ops, t => do
    let (result, t) ← t.operate op
    let (results, t) ← follow ops t
    return (result :: results, t)

/-- The instant some seconds after the start of 1970, within the first hour. -/
def second (n : Nat) (h : n < 3600) : Instant :=
  ⟨n, 0, by omega, Or.inl (by decide)⟩

def Reachable (t : Tracker) : Prop :=
  ∃ ops results, follow ops empty = .ok (results, t)

/-- The ways in which an operation can end. -/
inductive Operates (t : Tracker) : Operation → Except RunError Yield → Tracker → Prop
  | unstarted (op : Operation) (now : Instant) (hop : op.startsAt? = some now) :
    Operates t op (.error .empty) t
  | started (op : Operation) (c : Category) (problems : List Problem) (now : Instant) (r : Run)
      (hop : op.startsAt? = some now) (hr : Run.start c problems now = .ok r) :
    Operates t op (.ok .done) ⟨some r⟩
  | absent (op : Operation) (now : Instant) (hop : op.worksAt? = some now) (hrun : t.run = none) :
    Operates t op (.error .notStarted) t
  | submitted (input : String) (now : Instant) (r r' : Run) (result : Except RunError Submission)
      (hrun : t.run = some r) (hs : r.Submits input now result r') :
    Operates t (.submit input now) (result.map .answered) ⟨some r'⟩
  | toggled (now : Instant) (r r' : Run) (result : Except RunError RunStatus)
      (hrun : t.run = some r) (hs : r.Toggles now result r') :
    Operates t (.togglePause now) (result.map .toggled) ⟨some r'⟩
  | reset : Operates t .reset (.ok .done) empty
  | numbered (id : SessionId) : Operates t (.withSessionId id) (.ok .done) (t.withSessionId id)

variable {t t' : Tracker} {op : Operation} {result : Except RunError Yield}

theorem operates_startWith (c : Category) (problems : List Problem) (now : Instant)
    (hop : op.startsAt? = some now) :
    t.Operates op ((t.startWith c problems now).1.map fun _ => .done)
      (t.startWith c problems now).2 := by
  unfold Tracker.startWith
  cases hr : Run.start c problems now with
  | ok r => exact .started op c problems now r hop hr
  | error e =>
    have he : e = .empty := by
      unfold Run.start at hr
      split at hr
      · exact (Except.error.inj hr).symm
      · cases hr
    subst he
    exact .unstarted op now hop

/-- An operation that does not fault ends in one of the listed ways. -/
theorem operates_of_operate (h : t.operate op = .ok (result, t')) : t.Operates op result t' := by
  cases op with
  | start g c count now =>
    obtain ⟨⟨⟨started, after⟩, g'⟩, hstart, h⟩ := Checked.bind_eq_ok.mp h
    cases h
    unfold Tracker.start at hstart
    split at hstart
    · cases hstart
      exact .unstarted _ now rfl
    · obtain ⟨made, -, hmade⟩ := Checked.bind_eq_ok.mp hstart
      have hsame : (started, t') = t.startWith c made.1 now :=
        congrArg Prod.fst (Except.ok.inj hmade).symm
      have ho : t.Operates (.start g c count now) ((t.startWith c made.1 now).1.map fun _ => .done)
          (t.startWith c made.1 now).2 := operates_startWith c made.1 now rfl
      rw [← hsame] at ho
      exact ho
  | startWith c problems now =>
    cases h
    exact operates_startWith c problems now rfl
  | submit input now =>
    obtain ⟨step, hsubmit, h⟩ := Checked.bind_eq_ok.mp h
    cases h
    cases hrun : t.run with
    | none =>
      simp only [Tracker.submit, hrun] at hsubmit
      cases hsubmit
      exact .absent _ now rfl hrun
    | some r =>
      simp only [Tracker.submit, hrun] at hsubmit
      obtain ⟨after, hs, hafter⟩ := Checked.bind_eq_ok.mp hsubmit
      cases hafter
      exact .submitted input now r after.2 after.1 hrun (Run.submits_of_submit hs)
  | togglePause now =>
    obtain ⟨step, htoggle, h⟩ := Checked.bind_eq_ok.mp h
    cases h
    cases hrun : t.run with
    | none =>
      simp only [Tracker.togglePause, hrun] at htoggle
      cases htoggle
      exact .absent _ now rfl hrun
    | some r =>
      simp only [Tracker.togglePause, hrun] at htoggle
      obtain ⟨after, hs, hafter⟩ := Checked.bind_eq_ok.mp htoggle
      cases hafter
      exact .toggled now r after.2 after.1 hrun (Run.toggles_of_togglePause hs)
  | reset =>
    cases h
    exact .reset
  | withSessionId id =>
    cases h
    exact .numbered id

/-- Operations that lead on are one operation and then the rest. -/
theorem follow_cons_eq_ok {ops : List Operation} {results : List (Except RunError Yield)} :
    follow (op :: ops) t = .ok (results, t') ↔ ∃ result t₁ rest,
      t.operate op = .ok (result, t₁) ∧ follow ops t₁ = .ok (rest, t') ∧
        results = result :: rest := by
  constructor
  · intro h
    obtain ⟨⟨result, t₁⟩, ho, h⟩ := Checked.bind_eq_ok.mp h
    obtain ⟨⟨rest, t₂⟩, hf, h⟩ := Checked.bind_eq_ok.mp h
    cases h
    exact ⟨result, t₁, rest, ho, hf, rfl⟩
  · rintro ⟨result, t₁, rest, ho, hf, rfl⟩
    exact Checked.bind_eq_ok.mpr ⟨(result, t₁), ho, Checked.bind_eq_ok.mpr ⟨(rest, t'), hf, rfl⟩⟩

theorem reachable_of_follow {ops : List Operation} {last : List (Except RunError Yield) × Tracker}
    (h : (follow ops empty).toOption = some last) : last.2.Reachable := by
  cases hf : follow ops empty with
  | error f =>
    rw [hf] at h
    cases h
  | ok found =>
    rw [hf] at h
    cases h
    exact ⟨ops, last.1, hf⟩

/-- What every operation keeps holds after any of them. -/
theorem Reachable.keeps {P : Tracker → Prop} (h : t.Reachable) (hempty : P empty)
    (hop : ∀ t op result t', P t → Operates t op result t' → P t') : P t := by
  obtain ⟨ops, results, hf⟩ := h
  have hrun : ∀ (ops : List Operation) (t₀ : Tracker) (results : List (Except RunError Yield)),
      P t₀ → follow ops t₀ = .ok (results, t) → P t := by
    intro ops
    induction ops with
    | nil =>
      intro t₀ results h₀ hf
      cases hf
      exact h₀
    | cons op ops ih =>
      intro t₀ results h₀ hf
      obtain ⟨result, t₁, rest, ho, hrest, -⟩ := follow_cons_eq_ok.mp hf
      exact ih t₁ rest (hop t₀ op result t₁ h₀ (operates_of_operate ho)) hrest
  exact hrun ops empty results hempty hf

end MentalMath.Tracker
