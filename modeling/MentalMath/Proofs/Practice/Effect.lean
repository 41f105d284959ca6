import MentalMath.Proofs.Practice.Independence
import MentalMath.Proofs.Practice.Step
import MentalMath.Proofs.Storage.Journal

/-! What a whole call of a practice run does to the sessions of a store that serves its requests. It
adds a session only if the store does not hold the one that the run knows of; it writes a session again
only under the number that the run knows; and all other sessions stay as they were. -/

namespace MentalMath

open SessionTable
open Program (Served)

variable {σ : Type} [SessionTable σ] {m : σ} {j j' : Journal σ} {held now : Option SessionId}
  {t t' : Tracker} {s : Session} {id : SessionId}

/-- What was done to the sessions of a store for a run, given the number that it knew and the one that
it knows now. -/
inductive Touches (m : σ) (held now : Option SessionId) (j : Journal σ) : Prop
  /-- Nothing. -/
  | quiet (hq : j.Quiet m) (hid : now = held)
  /-- Its session was added. -/
  | inserted (id : SessionId) (hi : j.Inserted m id) (hid : now = some id)
      (hgone : ∀ l, held = some l → l ∉ numbers m)
  /-- The session under its number was written. -/
  | rewritten (id : SessionId) (hr : j.Rewritten m id) (hheld : held = some id) (hid : now = held)

namespace Touches

theorem sound (h : Touches m held now j) : Sound j.store := by
  cases h with
  | quiet hq hid => exact hq.sound
  | inserted id hi hid hgone => exact hi.sound
  | rewritten id hr hheld hid => exact hr.sound

/-- The store holds what it held and what was written. -/
theorem mem_numbers_iff (h : Touches m held now j) :
    id ∈ numbers j.store ↔ id ∈ numbers m ∨ id ∈ j.written := by
  cases h with
  | quiet hq hid =>
    rw [hq.kept, hq.written]
    exact ⟨Or.inl, fun hor => hor.elim (fun hmem => hmem) fun hnil => by cases hnil⟩
  | inserted l hi hid hgone => rw [hi.added, hi.written, List.mem_append]
  | rewritten l hr hheld hid =>
    rw [hr.kept, hr.written]
    refine ⟨Or.inl, fun hor => hor.elim (fun hmem => hmem) fun hmem => ?_⟩
    rw [List.mem_singleton.mp hmem]
    exact hr.there

/-- What was not written is as it was. -/
theorem holds (h : Touches m held now j) (hnot : id ∉ j.written) (hs : Holds m id s) :
    Holds j.store id s := by
  cases h with
  | quiet hq hid => exact hq.holds id s hs
  | inserted l hi hid hgone => exact hi.holds id s hs
  | rewritten l hr hheld hid =>
    refine hr.holds id s (fun heq => hnot ?_) hs
    rw [hr.written, heq]
    exact List.mem_singleton_self l

/-- A run knows the number under which its session was written. -/
theorem now_of_written (h : Touches m held now j) (hmem : id ∈ j.written) : now = some id := by
  cases h with
  | quiet hq hid =>
    rw [hq.written] at hmem
    cases hmem
  | inserted l hi hid hgone =>
    rw [hi.written] at hmem
    rw [hid, List.mem_singleton.mp hmem]
  | rewritten l hr hheld hid =>
    rw [hr.written] at hmem
    rw [hid, hheld, List.mem_singleton.mp hmem]

/-- A run keeps the number of a stored session. -/
theorem now_of_mem (h : Touches m (some id) now j) (hmem : id ∈ numbers m) : now = some id := by
  cases h with
  | quiet hq hid => exact hid
  | inserted l hi hid hgone => exact absurd hmem (hgone id rfl)
  | rewritten l hr hheld hid => exact hid

/-- A number that a run did not know before is new, and its session was written under it. -/
theorem held_or_new (h : Touches m held now j) (hnow : now = some id) :
    held = some id ∨ id ∈ j.written ∧ id ∉ numbers m := by
  cases h with
  | quiet hq hid => exact Or.inl (hid.symm.trans hnow)
  | inserted l hi hid hgone =>
    obtain rfl : id = l := Option.some.inj (hnow.symm.trans hid)
    exact Or.inr ⟨hi.written ▸ List.mem_singleton_self id, hi.new⟩
  | rewritten l hr hheld hid => exact Or.inl (hid.symm.trans hnow)

end Touches

/-- The session of a run is stored under a number, where it was written last. -/
structure Stored (t : Tracker) (id : SessionId) (j : Journal σ) : Prop where
  written : j.written = [id]
  session : ∃ s, t.session? = some s ∧ s.id = some id ∧ Holds j.store id s

/-- What a program does that tries to store the session of a run. It tells whether it did. -/
structure Attempts (m : σ) (t : Tracker) (saved? : Option SessionId) (t' : Tracker)
    (j : Journal σ) : Prop where
  touches : Touches m t.sessionId? t'.sessionId? j
  status : t'.status = t.status
  stored : ∀ id, saved? = some id → Stored t' id j
  told : ∀ id ∈ j.written, saved? = some id

theorem attempts_nothing (hq : j.Quiet m) : Attempts m t none t j := by
  refine ⟨.quiet hq rfl, rfl, fun _ hi => (by cases hi), fun id hid => ?_⟩
  rw [hq.written] at hid
  cases hid

theorem Attempts.of_stored (htouches : Touches m t.sessionId? t'.sessionId? j)
    (hstatus : t'.status = t.status) (h : Stored t' id j) : Attempts m t (some id) t' j := by
  refine ⟨htouches, hstatus, fun i hi => Option.some.inj hi ▸ h, fun i hi => ?_⟩
  rw [h.written] at hi
  rw [List.mem_singleton.mp hi]

/-- What a whole call does to the sessions of a store, for the run that makes it. A run that was
completed before can only store its session again, and is told so. -/
structure Call.Does (m : σ) (t : Tracker) (result : Report × Tracker) (j : Journal σ) : Prop where
  touches : Touches m t.sessionId? result.2.sessionId? j
  saved : ∀ id, result.1.savedId? = some id → result.2.status = .completed ∧ Stored result.2 id j
  told : t.status = .completed → ∀ id ∈ j.written, result.1.savedId? = some id

theorem Call.does_nothing {result : Report × Tracker} (hq : j.Quiet m)
    (hid : result.2.sessionId? = t.sessionId?) (hsaved : result.1.savedId? = none) :
    Does m t result j := by
  refine ⟨.quiet hq hid, fun id hi => (by cases hsaved.symm.trans hi), fun _ id hi => ?_⟩
  rw [hq.written] at hi
  cases hi

variable [Store σ] [LawfulSessionTable σ]

open LawfulSessionTable

theorem Touches.other {r : Request} {reply : Except StorageError r.Reply} (h : Touches m held now j)
    (ht : Served r j reply j') (hr : r.kind.writesSessions = false) : Touches m held now j' := by
  cases h with
  | quiet hq hid => exact .quiet (hq.other ht hr) hid
  | inserted id hi hid hgone => exact .inserted id (hi.other ht hr) hid hgone
  | rewritten id hr' hheld hid => exact .rewritten id (hr'.other ht hr) hheld hid

namespace Practice

theorem insertSession_attempts (hq : j.Quiet m) (hs : t.session? = some s)
    (hgone : ∀ l, t.sessionId? = some l → l ∉ numbers m) :
    (insertSession t s).Always Served (fun _ => True)
      (fun result j' => Attempts m t result.1.toOption result.2 j') j := by
  refine ⟨True.intro, fun reply j' ht => ?_⟩
  obtain ⟨id, rfl, hi, hholds⟩ | ⟨e, rfl, hq'⟩ := hq.insertSession ht
  · have hsession : (t.withSessionId id).session? = some (s.withId id) := by simp [hs]
    have hid : (t.withSessionId id).sessionId? = some id := by simp [Tracker.sessionId?, hsession]
    refine .of_stored (.inserted id hi hid hgone) (by simp) ⟨hi.written, ?_⟩
    exact ⟨s.withId id, hsession, rfl, holds_withId id hholds⟩
  · exact attempts_nothing hq'

theorem persist_attempts (hq : j.Quiet m) (t : Tracker) :
    (persist t).Always Served (fun _ => True)
      (fun result j' => Attempts m t result.1.toOption result.2 j') j := by
  cases hs : t.session? with
  | none =>
    simp only [persist, hs]
    exact attempts_nothing hq
  | some s =>
    cases hid : s.id with
    | none =>
      have hnone : t.sessionId? = none := by simp [Tracker.sessionId?, hs, hid]
      simp only [persist, hs, hid]
      exact insertSession_attempts hq hs fun l hl => by cases hnone.symm.trans hl
    | some id =>
      have hsome : t.sessionId? = some id := by simp [Tracker.sessionId?, hs, hid]
      simp only [persist, hs, hid]
      refine ⟨True.intro, fun reply j' ht => ?_⟩
      obtain ⟨rfl, hr, hholds⟩ | ⟨e, rfl, hmissing, hq'⟩ := hq.saveSession hid ht
      · exact .of_stored (.rewritten id hr hsome rfl) rfl ⟨hr.written, s, hs, hid, hholds⟩
      · cases e with
        | notFound =>
          refine insertSession_attempts hq' hs fun l hl => ?_
          rw [hsome] at hl
          exact Option.some.inj hl ▸ hmissing rfl
        | conflict | connection | serialization => exact attempts_nothing hq'

theorem register_touches (hq : j.Quiet m) (hnone : t.sessionId? = none) :
    (register t).Always Served (fun _ => True)
      (fun t' j' => Touches m none t'.sessionId? j') j := by
  cases hs : t.session? with
  | none =>
    simp only [register, hs]
    exact .quiet hq hnone
  | some s =>
    simp only [register, hs]
    have hgone : ∀ l, t.sessionId? = some l → l ∉ numbers m :=
      fun l hl => by cases hnone.symm.trans hl
    exact .bind ((insertSession_attempts hq hs hgone).mono fun result j' h => hnone ▸ h.touches)

/-- What an accepted answer does. -/
structure Records (m : σ) (t : Tracker) (sub : Submission) (result : PracticeAnswer × Tracker)
    (j : Journal σ) : Prop where
  touches : Touches m t.sessionId? result.2.sessionId? j
  status : result.2.status = t.status
  stored : ∀ id, result.1.savedId = some id → sub.isComplete = true ∧ Stored result.2 id j

/-- The last answer stores the session, any other one is added to it. -/
theorem record_does (hq : j.Quiet m) (t : Tracker) (sub : Submission) :
    (record t sub).Always Served (fun _ => True) (Records m t sub) j := by
  cases hc : sub.isComplete with
  | true =>
    have hlast : appendAnswer t sub = return () := by
      unfold appendAnswer
      rw [hc]
    unfold record
    rw [hlast, Program.pure_bind]
    refine .bind ((noteMiss_keeps hq (fun _ _ => True.intro) Journal.Quiet.other).mono ?_)
    intro mistakeId j₁ hq₁
    unfold saveCompleted
    rw [if_pos hc]
    refine .bind (.bind ((persist_attempts hq₁ t).mono fun result j₂ h => ?_))
    exact ⟨h.touches, h.status, fun id hi => ⟨hc, h.stored id hi⟩⟩
  | false =>
    have happend : (appendAnswer t sub).Always Served (fun _ => True)
        (fun _ j' => Touches m t.sessionId? t.sessionId? j') j := by
      unfold appendAnswer
      rw [hc]
      cases hid : t.sessionId? with
      | none => exact .quiet hq rfl
      | some id =>
        refine ⟨True.intro, fun reply j₁ ht => ?_⟩
        rcases hq.appendAnswer ht with hr | hq₁
        · exact .rewritten id hr rfl rfl
        · exact .quiet hq₁ rfl
    refine .bind (happend.mono fun _ j₁ h₁ => ?_)
    refine .bind ((noteMiss_keeps h₁ (fun _ _ => True.intro) Touches.other).mono ?_)
    intro mistakeId j₂ h₂
    unfold saveCompleted
    rw [hc]
    exact ⟨h₂, rfl, fun _ hi => by cases hi⟩

theorem finalize_attempts (hq : j.Quiet m) (t : Tracker) :
    (finalize t).Always Served (fun _ => True) (fun result j' =>
      Attempts m t result.1.toOption result.2 j' ∧
        (result.1.toOption ≠ none → t.status = .completed)) j := by
  unfold finalize
  cases hstatus : t.status with
  | completed =>
    refine .bind ((persist_attempts hq t).mono ?_)
    rintro ⟨reply, t'⟩ j' h
    cases reply <;> exact ⟨h, fun _ => rfl⟩
  | _ => exact ⟨attempts_nothing hq, fun hi => absurd rfl hi⟩

end Practice

/-! Whole calls. -/

namespace Call

variable {call : Call} {u : Underway}

theorem Begins.does (h : Begins t call u) (hcall : call.GoesOn ∨ t = .empty) (hm : Sound m) :
    u.program.Always Served (fun _ => True) (Does m t) ⟨m, []⟩ := by
  have hq : Journal.Quiet m ⟨m, []⟩ := Journal.quiet_self hm
  cases h with
  | unstarted => exact does_nothing hq rfl rfl
  | started c count now problems r hr =>
    obtain rfl := hcall.resolve_left id
    have hid := Tracker.sessionId?_of_start hr
    refine .bind (.bind ((Practice.register_touches hq hid).mono fun t' j' htouches => ?_))
    exact ⟨htouches, fun _ hi => (by cases hi), fun hc => by cases hc⟩
  | refused input now e t' hs =>
    cases Tracker.submits_of_submit hs with
    | refused _ _ hid hsub hstays => exact does_nothing hq hid rfl
  | accepted input now sub t' hs =>
    cases Tracker.submits_of_submit hs with
    | accepted _ _ hid hanswers hopen hcompletes =>
    refine .map (.bind ((Practice.record_does hq t' sub).mono fun result j' h => ?_))
    have htouches := h.touches
    rw [hid] at htouches
    refine ⟨htouches, fun id hi => ?_, fun hc => absurd hc hopen⟩
    obtain ⟨hlast, hstored⟩ := h.stored id hi
    exact ⟨h.status.trans (hcompletes hlast), hstored⟩
  | toggled now result t' hs =>
    refine does_nothing hq ?_ rfl
    simp only [Tracker.sessionId?, (Tracker.session?_of_togglePause hs).1]
  | finalized =>
    refine .map ((Practice.finalize_attempts hq t).mono ?_)
    rintro ⟨reply, t'⟩ j' ⟨ha, hcompleted⟩
    cases reply with
    | error e => exact ⟨ha.touches, fun id hi => (by cases hi), fun _ => ha.told⟩
    | ok i =>
      refine ⟨ha.touches, fun id hi => ?_, fun _ => ha.told⟩
      exact ⟨ha.status.trans (hcompleted fun hnone => by cases hnone), ha.stored id hi⟩

end Call

end MentalMath
