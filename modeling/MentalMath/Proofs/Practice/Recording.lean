import MentalMath.Proofs.Practice.Call
import MentalMath.Proofs.Storage.Granting

/-! What a practice run has its store do, where the store grants what it can: the session of the run is
added at its start, takes each answer and is saved with the last one. What is noted of mistakes on the
way does not touch it. -/

namespace MentalMath.Practice

open SessionTable

variable {σ : Type} [Store σ] [SessionTable σ] [LawfulSessionTable σ] {m m' : σ} {id : SessionId}
  {s s' : Session} {r : Run} {t : Tracker} {a : Answer}

/-- A run that begins knows the number of its session. -/
theorem run_register (hm : Sound m) (hg : Grants m (.insertSession r.session)) :
    ∃ id m', (register ⟨some r⟩).run m = (⟨some (r.withSessionId id)⟩, m') ∧
      Added m id (r.withSessionId id).session m' := by
  obtain ⟨id, hid, hadded⟩ := added_insert hm hg
  have hinsert : (Program.request (.insertSession r.session)).run m =
      (.ok id, (Store.serve (.insertSession r.session) m).2) := Prod.ext hid rfl
  refine ⟨id, _, ?_, hadded.withId id⟩
  simp only [register, insertSession, Tracker.session?, Option.map_some, Program.run_bind, hinsert]
  rfl

theorem run_noteMiss (hm : Sound m) (h : Added m id s m') (sub : Submission) :
    Added m id s ((noteMiss sub).run m').2 := by
  have hkeeps : (noteMiss sub).Always Program.Served (fun _ => True)
      (fun _ m'' => Added m id s m'') m' := by
    refine noteMiss_keeps h (fun _ _ => True.intro) fun {m₁ m₂ r reply} h₁ ht hr => ?_
    obtain rfl : (Store.serve r m₁).2 = m₂ := congrArg Prod.snd ht
    exact h₁.serve_other hm hr
  exact hkeeps.run

variable [GrantingSessionTable σ]

/-- An answer that is not the last one is added to the stored session. -/
theorem run_record_next (hm : Sound m) (h : Added m id s m') (hs : s.Valid)
    (hid : t.sessionId? = some id) (hr : s.record a = .ok s') :
    ∃ mistakeId m'', (record t ⟨a, false⟩).run m' =
      ((⟨a, false, mistakeId, none⟩, t), m'') ∧ Added m id s' m'' := by
  have hnoted := run_noteMiss hm (h.serve_append hm hs hr) ⟨a, false⟩
  refine ⟨((noteMiss ⟨a, false⟩).run (Store.serve (.appendAnswer id a) m').2).1, _, ?_, hnoted⟩
  simp only [record, appendAnswer, saveCompleted, hid, Program.run_bind, Bool.false_eq_true, if_false]
  rfl

/-- With the last answer the session is stored again. -/
theorem run_record_last (hm : Sound m) (h : Added m id s m') (hs : t.session? = some s')
    (hid : s'.id = some id) :
    ∃ mistakeId m'', (record t ⟨a, true⟩).run m' =
      ((⟨a, true, mistakeId, some id⟩, t), m'') ∧ Added m id s' m'' := by
  obtain ⟨hok, hsaved⟩ := (run_noteMiss hm h ⟨a, true⟩).serve_save hm hid
  have hsave : (Program.request (.saveSession s')).run ((noteMiss ⟨a, true⟩).run m').2 =
      (.ok (), (Store.serve (.saveSession s') ((noteMiss ⟨a, true⟩).run m').2).2) :=
    Prod.ext hok rfl
  refine ⟨((noteMiss ⟨a, true⟩).run m').1, _, ?_, hsaved⟩
  simp only [record, appendAnswer, saveCompleted, persist, hs, hid, Program.run_bind, Program.run_pure,
    if_true, hsave]
  rfl

end MentalMath.Practice
