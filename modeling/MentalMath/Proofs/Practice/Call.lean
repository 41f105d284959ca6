import MentalMath.Proofs.Program
import MentalMath.Proofs.Storage.Sessions
import MentalMath.Service.Practice

/-! The calls by which a client drives its practice run. A call first moves the run and then asks
the store, request by request, so a call that has begun is the run as it stands together with the
program that is left. -/

namespace MentalMath

/-- A call that drives a practice run. -/
inductive Call where
  | start (c : Category) (count : Nat) (now : Instant)
  | submit (input : String) (now : Instant)
  | togglePause (now : Instant)
  | finalize
  deriving DecidableEq, Repr

/-- What a call is answered with. -/
inductive Report where
  /-- Whether the run was started. -/
  | started (result : Except RunError Unit)
  /-- What comes of the answer. -/
  | answered (result : Except RunError PracticeAnswer)
  /-- Where the run stands after a pause. -/
  | toggled (result : Except RunError RunStatus)
  /-- The number of the stored session. -/
  | finalized (result : Except PracticeError SessionId)

namespace Report

/-- The number under which a report says that the completed session is stored. -/
def savedId? : Report → Option SessionId
  | .answered (.ok a) => a.savedId
  | .finalized (.ok id) => some id
  | _ => none

end Report

/-- A call that has begun. -/
structure Underway where
  /-- The run as it stands while the store is asked. -/
  standing : Tracker
  /-- What is left to do: requests, and at the end the report and the run after the call. -/
  program : Program (Report × Tracker)

namespace Call

/-- The start of a run in place of the run before it, which stays if the new one is refused. -/
def startProgram (t : Tracker) (program : Program (Except RunError Tracker)) :
    Program (Report × Tracker) := do
  match ← program with
  | .error e => return (.started (.error e), t)
  | .ok t => return (.started (.ok ()), t)

/-- Begins a call on a run. -/
def begin (call : Call) (g : Generator) (t : Tracker) : Checked (Underway × Generator) :=
  match call with
  | .start c count now => do
    let ((_, standing), _) ← t.start g c count now
    let (program, g) ← Practice.start g c count now
    return (⟨standing, startProgram t program⟩, g)
  | .submit input now => do
    let (_, standing) ← t.submit input now
    let program ← Practice.submit t input now
    return (⟨standing, Prod.map .answered id <$> program⟩, g)
  | .togglePause now => do
    let (result, t) ← t.togglePause now
    return (⟨t, return (.toggled result, t)⟩, g)
  | .finalize => return (⟨t, Prod.map .finalized id <$> Practice.finalize t⟩, g)

/-- Makes calls one after the other on a store. The outcome lists the reports, each with the run
after it. -/
def follow {σ : Type} [Store σ] : List Call → Generator → Tracker → σ →
    Checked (List (Report × Tracker))
  | [], _, _, _ => .ok []
  | call :: calls, g, t, store => do
    let (underway, g) ← call.begin g t
    let (answer, store) := underway.program.run store
    return answer :: (← follow calls g answer.2 store)

end Call

/-- Whether a call goes on with the run instead of starting one. -/
def Call.GoesOn : Call → Prop
  | .start _ _ _ => False
  | _ => True

/-- The ways in which a call begins: where the run stands then, and what is left to do. -/
inductive Call.Begins (t : Tracker) : Call → Underway → Prop
  /-- No run is started. -/
  | unstarted (c : Category) (count : Nat) (now : Instant) (e : RunError) :
    Begins t (.start c count now) ⟨t, startProgram t (return .error e)⟩
  /-- A run is started and goes on to be stored. -/
  | started (c : Category) (count : Nat) (now : Instant) (problems : List Problem) (r : Run)
      (hr : Run.start c problems now = .ok r) :
    Begins t (.start c count now)
      ⟨⟨some r⟩, startProgram t (do return .ok (← Practice.register ⟨some r⟩))⟩
  /-- An answer is refused. -/
  | refused (input : String) (now : Instant) (e : RunError) (t' : Tracker)
      (hs : t.submit input now = .ok (.error e, t')) :
    Begins t (.submit input now)
      ⟨t', Prod.map .answered id <$> (return (.error e, t') : Program _)⟩
  /-- An answer is accepted and goes on to be stored. -/
  | accepted (input : String) (now : Instant) (s : Submission) (t' : Tracker)
      (hs : t.submit input now = .ok (.ok s, t')) :
    Begins t (.submit input now)
      ⟨t', Prod.map .answered id <$> do
        let (a, t) ← Practice.record t' s
        return (.ok a, t)⟩
  /-- A pause begins or ends, or is refused. -/
  | toggled (now : Instant) (result : Except RunError RunStatus) (t' : Tracker)
      (hs : t.togglePause now = .ok (result, t')) :
    Begins t (.togglePause now) ⟨t', return (.toggled result, t')⟩
  /-- The session is to be stored. -/
  | finalized : Begins t .finalize ⟨t, Prod.map .finalized id <$> Practice.finalize t⟩

/-- A call that does not fault begins in one of the listed ways. -/
theorem Call.begins_of_begin {call : Call} {g g' : Generator} {t : Tracker} {u : Underway}
    (h : call.begin g t = .ok (u, g')) : Begins t call u := by
  cases call with
  | start c count now =>
    by_cases hcount : count = 0
    · simp only [begin, Practice.start, Tracker.start, hcount, if_true] at h
      cases h
      exact .unstarted c count now .empty
    simp only [begin, Practice.start, Tracker.start, hcount, if_false] at h
    cases hg : g.generate c count now with
    | error f => simp [hg, bind, Except.bind] at h
    | ok made =>
    simp only [hg, bind, Except.bind, Tracker.startWith] at h
    cases hr : Run.start c made.1 now with
    | error e =>
      simp only [hr] at h
      cases h
      exact .unstarted c count now e
    | ok r =>
      simp only [hr] at h
      cases h
      exact .started c count now made.1 r hr
  | submit input now =>
    cases hs : t.submit input now with
    | error f => simp [begin, hs, bind, Except.bind] at h
    | ok step =>
    obtain ⟨result, t'⟩ := step
    simp only [begin, Practice.submit, hs, bind, Except.bind] at h
    cases h
    cases result with
    | error e => exact .refused input now e t' hs
    | ok s => exact .accepted input now s t' hs
  | togglePause now =>
    cases hs : t.togglePause now with
    | error f => simp [begin, hs, bind, Except.bind] at h
    | ok step =>
    obtain ⟨result, t'⟩ := step
    simp only [begin, hs, bind, Except.bind] at h
    cases h
    exact .toggled now result t' hs
  | finalize =>
    cases h
    exact .finalized

/-- What the requests keep that write no session, the notebook keeps. -/
theorem Practice.noteMiss_keeps {S : Type}
    {turn : (r : Request) → S → Except StorageError r.Reply → S → Prop} {inv P : S → Prop} {s : S}
    {sub : Submission} (h : P s) (hinv : ∀ s, P s → inv s)
    (hP : ∀ {s s' : S} {r : Request} {reply : Except StorageError r.Reply}, P s →
      turn r s reply s' → r.kind.writesSessions = false → P s') :
    (noteMiss sub).Always turn inv (fun _ s' => P s') s := by
  unfold noteMiss
  split
  case isFalse => exact h
  refine ⟨hinv s h, fun reply s₁ ht₁ => ?_⟩
  have h₁ := hP h ht₁ rfl
  cases reply with
  | error e => exact h₁
  | ok known => exact ⟨hinv s₁ h₁, fun reply s₂ ht₂ => hP h₁ ht₂ rfl⟩

end MentalMath
