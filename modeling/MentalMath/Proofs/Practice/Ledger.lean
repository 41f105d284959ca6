import MentalMath.Proofs.Practice.Step
import MentalMath.Proofs.Program
import MentalMath.Proofs.Storage.Sessions
import MentalMath.Service.Practice

/-! A practice run and the sessions that its requests add to a store. Requests may fail, and other
users may ask the store in between, as long as they leave the sessions of the run alone. For each
program of the run it is shown how the store keeps up with the run. -/

namespace MentalMath

open SessionTable

/-- What a failed request may be answered with: anything, except that saving a session does not make
believe that it is missing. -/
def Request.MayFail (r : Request) (e : StorageError) : Prop :=
  r.kind = .saveSession → e ≠ .notFound

/-- The requests of other users lead from a store to another one, and leave some sessions alone. -/
inductive Others {σ : Type} [Store σ] (own : List SessionId) : σ → σ → Prop
  | refl (m : σ) : Others own m m
  | step {m m' : σ} (r : Request) (hr : r.Spares own) (h : Others own m m') :
    Others own m (Store.serve r m').2

theorem Others.trans {σ : Type} [Store σ] {own : List SessionId} {m m' m'' : σ}
    (h : Others own m m') (h' : Others own m' m'') : Others own m m'' := by
  induction h' with
  | refl => exact h
  | step r hr _ ih => exact .step r hr ih

/-- A store, and the numbers of the sessions that the requests of a run have added to it. -/
structure Ledger (σ : Type) where
  store : σ
  /-- The numbers in the order in which they were given out. -/
  own : List SessionId

variable {σ : Type} [SessionTable σ]

namespace Ledger

/-- The session of the run is stored under a number, exactly as it is. -/
structure Records (l : Ledger σ) (t : Tracker) (id : SessionId) : Prop where
  own : l.own = [id]
  session : ∃ s, t.session? = some s ∧ s.id = some id ∧ Holds l.store id s

/-- At most one session was added for a run, and its answers are among those of the run. -/
inductive Keeps (l : Ledger σ) (answers : List Answer) : Option SessionId → Prop
  | nothing (hown : l.own = []) : Keeps l answers none
  | session (id : SessionId) (s : Session) (hown : l.own = [id]) (hholds : Holds l.store id s)
      (hsub : s.answers.Sublist answers) : Keeps l answers (some id)

/-- At most one session was added, whether or not the run knows of it. -/
structure Owns (answers : List Answer) (l : Ledger σ) : Prop where
  sound : Sound l.store
  keeps : ∃ id?, l.Keeps answers id?

/-- The run knows what was added for it. -/
structure Follows (l : Ledger σ) (t : Tracker) : Prop where
  sound : Sound l.store
  keeps : l.Keeps t.answers t.sessionId?

/-- The completed session of the run is stored. -/
structure Settled (t : Tracker) (id : SessionId) (l : Ledger σ) : Prop where
  sound : Sound l.store
  completed : t.status = .completed
  records : l.Records t id

variable {l : Ledger σ} {t : Tracker} {id : SessionId}

theorem Keeps.mono {answers answers' : List Answer} {id? : Option SessionId}
    (h : l.Keeps answers id?) (ha : answers.Sublist answers') : l.Keeps answers' id? := by
  cases h with
  | nothing hown => exact .nothing hown
  | session id s hown hholds hsub => exact .session id s hown hholds (hsub.trans ha)

theorem Follows.owns (h : l.Follows t) : Owns t.answers l :=
  ⟨h.sound, _, h.keeps⟩

theorem Records.follows (h : l.Records t id) (hl : Sound l.store) : l.Follows t := by
  obtain ⟨s, hs, hid, hholds⟩ := h.session
  refine ⟨hl, ?_⟩
  have hanswers : t.answers = s.answers := by simp [Tracker.answers, hs]
  have hsession : t.sessionId? = some id := by simp [Tracker.sessionId?, hs, hid]
  rw [hanswers, hsession]
  exact .session id s h.own hholds (List.Sublist.refl _)

end Ledger

variable [Store σ]

/-- The ledger after a request of the run, with the numbers that it has added. -/
def Ledger.serve (r : Request) (l : Ledger σ) : Except StorageError r.Reply × Ledger σ :=
  let (reply, store) := Store.serve r l.store
  (reply, ⟨store, l.own ++ (numbers store).filter fun id => !(numbers l.store).contains id⟩)

/-- A request of the run, which is served or fails after the requests of others. -/
inductive Turn (r : Request) (l : Ledger σ) : Except StorageError r.Reply → Ledger σ → Prop
  | served (m : σ) (ho : Others l.own l.store m) :
    Turn r l (Ledger.serve r ⟨m, l.own⟩).1 (Ledger.serve r ⟨m, l.own⟩).2
  | failed (m : σ) (ho : Others l.own l.store m) (e : StorageError) (he : r.MayFail e) :
    Turn r l (.error e) ⟨m, l.own⟩

theorem Ledger.serve_of_same {l : Ledger σ} {r : Request}
    (h : numbers (Store.serve r l.store).2 = numbers l.store) :
    l.serve r = ((Store.serve r l.store).1, ⟨(Store.serve r l.store).2, l.own⟩) := by
  have hnone : (numbers l.store).filter (fun id => !(numbers l.store).contains id) = [] := by
    rw [List.filter_eq_nil_iff]
    intro id hid
    simp [hid]
  simp only [Ledger.serve, h, hnone, List.append_nil]

theorem Turn.prepend {l l' : Ledger σ} {m : σ} {r : Request} {reply : Except StorageError r.Reply}
    (ho : Others l.own l.store m) (ht : Turn r (Ledger.mk m l.own) reply l') : Turn r l reply l' := by
  cases ht with
  | served m' ho' => exact .served m' (ho.trans ho')
  | failed m' ho' e he => exact .failed m' (ho.trans ho') e he

/-- What holds of the requests of a program holds also after those of others. -/
theorem Program.Always.others {α : Type} {inv : Ledger σ → Prop} {post : α → Ledger σ → Prop}
    {p : Program α} {l : Ledger σ} {m : σ} (h : p.Always Turn inv post l) (ho : Others l.own l.store m)
    (hinv : inv l → inv ⟨m, l.own⟩) (hpost : ∀ a, post a l → post a ⟨m, l.own⟩) :
    p.Always Turn inv post ⟨m, l.own⟩ := by
  cases p with
  | done a => exact hpost a h
  | ask r next => exact ⟨hinv h.1, fun reply l' ht => h.2 reply l' (ht.prepend ho)⟩

section Laws

variable [LawfulSessionTable σ] {l l' : Ledger σ} {m m' : σ} {own : List SessionId}
  {id : SessionId} {s : Session} {t : Tracker} {r : Request}

open LawfulSessionTable

namespace Others

theorem sound (h : Others own m m') (hm : Sound m) : Sound m' := by
  induction h with
  | refl => exact hm
  | step r _ _ ih => exact sound_serve r ih

theorem spares_singleton (hr : r.Spares own) (hid : id ∈ own) : r.Spares [id] := by
  cases r with
  | saveSession s => exact fun l hl hmem => hr l hl (List.mem_singleton.mp hmem ▸ hid)
  | appendAnswer l a => exact fun hmem => hr (List.mem_singleton.mp hmem ▸ hid)
  | deleteSessions =>
    have hnil : own = [] := hr
    rw [hnil] at hid
    cases hid
  | _ => exact True.intro

theorem holds (h : Others own m m') (hm : Sound m) (hid : id ∈ own) (hs : Holds m id s) :
    Holds m' id s := by
  induction h with
  | refl => exact hs
  | step r hr ho ih => exact holds_serve (ho.sound hm) (spares_singleton hr hid) ih

end Others

namespace Ledger

theorem Records.others (h : l.Records t id) (hl : Sound l.store) (ho : Others l.own l.store m) :
    (Ledger.mk m l.own).Records t id := by
  obtain ⟨s, hs, hid, hholds⟩ := h.session
  exact ⟨h.own, s, hs, hid, ho.holds hl (by rw [h.own]; exact List.mem_singleton_self id) hholds⟩

theorem Keeps.others {answers : List Answer} {id? : Option SessionId} (h : l.Keeps answers id?)
    (hl : Sound l.store) (ho : Others l.own l.store m) :
    (Ledger.mk m l.own).Keeps answers id? := by
  cases h with
  | nothing hown => exact .nothing hown
  | session id s hown hholds hsub =>
    exact .session id s hown (ho.holds hl (by rw [hown]; exact List.mem_singleton_self id) hholds) hsub

theorem Owns.others {answers : List Answer} (h : Owns answers l) (ho : Others l.own l.store m) :
    Owns answers (Ledger.mk m l.own) := by
  obtain ⟨id?, hk⟩ := h.keeps
  exact ⟨ho.sound h.sound, id?, hk.others h.sound ho⟩

theorem Follows.others (h : l.Follows t) (ho : Others l.own l.store m) :
    (Ledger.mk m l.own).Follows t :=
  ⟨ho.sound h.sound, h.keeps.others h.sound ho⟩

theorem Settled.others (h : Settled t id l) (ho : Others l.own l.store m) :
    Settled t id (Ledger.mk m l.own) :=
  ⟨ho.sound h.sound, h.completed, h.records.others h.sound ho⟩

end Ledger

/-- A request that writes no session is like one of the other users. -/
theorem Turn.others {reply : Except StorageError r.Reply} (ht : Turn r l reply l')
    (hl : Sound l.store) (hr : r.kind.writesSessions = false) :
    l'.own = l.own ∧ Others l.own l.store l'.store := by
  cases ht with
  | served m ho =>
    have hsame := numbers_of_other (ho.sound hl) hr
    rw [Ledger.serve_of_same (l := ⟨m, l.own⟩) hsame]
    exact ⟨rfl, .step r (r.spares_of_other hr l.own) ho⟩
  | failed m ho e he => exact ⟨rfl, ho⟩

/-! The programs of a run. -/

theorem Turn.insertSession {reply : Except StorageError (Request.insertSession s).Reply}
    (ht : Turn (Request.insertSession s) l reply l') (hl : Sound l.store) (hown : l.own = []) :
    Sound l'.store ∧
      ((∃ id, reply = .ok id ∧ l'.own = [id] ∧ Holds l'.store id s) ∨
        ∃ e, reply = .error e ∧ l'.own = []) := by
  cases ht with
  | failed m ho e he => exact ⟨ho.sound hl, .inr ⟨e, rfl, hown⟩⟩
  | served m ho =>
    have hm := ho.sound hl
    refine ⟨sound_serve _ hm, ?_⟩
    simp only [Ledger.serve, hown, List.nil_append]
    have hcases := inserts s hm
    generalize (Store.serve (.insertSession s) m).1 = reply, (Store.serve (.insertSession s) m).2 = m'
      at hcases
    cases hcases with
    | stored id _ hnew hnumbers hholds =>
      left
      refine ⟨id, rfl, ?_, hholds⟩
      rw [hnumbers, List.filter_append, List.filter_eq_nil_iff.mpr, List.nil_append]
      · simp [hnew]
      · intro l hl
        simp [hl]
    | refused e =>
      right
      refine ⟨e, rfl, ?_⟩
      rw [List.filter_eq_nil_iff]
      intro l hl
      simp [hl]

theorem Turn.saveSession {reply : Except StorageError (Request.saveSession s).Reply}
    {stored : Session}
    (ht : Turn (Request.saveSession s) l reply l') (hl : Sound l.store) (hown : l.own = [id])
    (hid : s.id = some id) (hs : Holds l.store id stored) :
    Sound l'.store ∧ l'.own = [id] ∧
      (reply = .ok () ∧ Holds l'.store id s ∨
        ∃ e, reply = .error e ∧ e ≠ .notFound ∧ Holds l'.store id stored) := by
  have hmem : id ∈ l.own := by rw [hown]; exact List.mem_singleton_self id
  cases ht with
  | failed m ho e he =>
    exact ⟨ho.sound hl, hown, .inr ⟨e, rfl, he rfl, ho.holds hl hmem hs⟩⟩
  | served m ho =>
    have hm := ho.sound hl
    have hsame : numbers (Store.serve (.saveSession s) m).2 = numbers m :=
      numbers_serve hm RequestKind.noConfusion RequestKind.noConfusion
    rw [Ledger.serve_of_same (l := ⟨m, l.own⟩) hsame]
    refine ⟨sound_serve _ hm, hown, ?_⟩
    have hcases := saves hm hid
    have hstored := ho.holds hl hmem hs
    simp only
    generalize (Store.serve (.saveSession s) m).1 = reply, (Store.serve (.saveSession s) m).2 = m'
      at hcases
    cases hcases with
    | stored _ hmem hholds => exact .inl ⟨rfl, hholds⟩
    | refused e hmissing =>
      refine .inr ⟨e, rfl, fun he => ?_, hstored⟩
      exact hmissing he ((mem_numbers_iff hm).mpr ⟨stored, hstored⟩)

theorem Turn.appendAnswer {a : Answer}
    {reply : Except StorageError (Request.appendAnswer id a).Reply}
    (ht : Turn (Request.appendAnswer id a) l reply l') (hl : Sound l.store) (hown : l.own = [id])
    (hs : Holds l.store id s) :
    Sound l'.store ∧ l'.own = [id] ∧
      ∃ s', Holds l'.store id s' ∧ s'.answers.Sublist (s.answers ++ [a]) := by
  have hmem : id ∈ l.own := by rw [hown]; exact List.mem_singleton_self id
  have hsub : s.answers.Sublist (s.answers ++ [a]) := List.sublist_append_left _ _
  cases ht with
  | failed m ho e he => exact ⟨ho.sound hl, hown, s, ho.holds hl hmem hs, hsub⟩
  | served m ho =>
    have hm := ho.sound hl
    have hsame : numbers (Store.serve (.appendAnswer id a) m).2 = numbers m :=
      numbers_serve hm RequestKind.noConfusion RequestKind.noConfusion
    rw [Ledger.serve_of_same (l := ⟨m, l.own⟩) hsame]
    refine ⟨sound_serve _ hm, hown, ?_⟩
    have hcases := appends id a hm
    have hstored := ho.holds hl hmem hs
    simp only
    generalize (Store.serve (.appendAnswer id a) m).1 = reply,
      (Store.serve (.appendAnswer id a) m).2 = m' at hcases
    cases hcases with
    | stored _ hmem hholds =>
      obtain ⟨s', hanswers, hs'⟩ := hholds s hstored
      exact ⟨s', hs', hanswers ▸ List.Sublist.refl _⟩
    | refused e => exact ⟨s, hstored, hsub⟩

end Laws

end MentalMath
