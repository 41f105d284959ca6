import MentalMath.Proofs.Storage.Agreement

/-! A session of its own in a store that grants what it can. One session is added to those of a store,
takes answers and is saved again, while the others stay as they were. Only the session that is new may
find no number; all that follows is granted. -/

namespace MentalMath

open SessionTable

/-- A table of sessions that grants whatever a stored session allows. -/
class GrantingSessionTable (σ : Type) [Store σ] [SessionTable σ] : Prop where
  grants_save {m : σ} {id : SessionId} {s : Session} : Sound m → s.id = some id →
    id ∈ numbers m → Grants m (.saveSession s)
  holds_append {m : σ} {id : SessionId} {s s' : Session} {a : Answer} : Sound m → Holds m id s →
    s.Valid → s.record a = .ok s' → Holds (Store.serve (.appendAnswer id a) m).2 id s'
  serve_getPreferences (m : σ) : (Store.serve .getPreferences m).2 = m

theorem Session.record_withId {s s' : Session} {a : Answer} (h : s.record a = .ok s')
    (id : SessionId) : (s.withId id).record a = .ok (s'.withId id) := by
  obtain ⟨hopen, hroom, rfl⟩ := record_eq_ok_iff.mp h
  exact record_eq_ok_iff.mpr ⟨hopen, hroom, rfl⟩

instance : GrantingSessionTable Memory where
  grants_save _ hid hmem := Memory.grants_saveSession_iff.mpr ⟨_, hid, hmem⟩
  holds_append {m id s s' a} hm hs _ hr := by
    have hold : Memory.lookup? id m.sessions = some (s.withId id) := hs
    show Memory.lookup? id (m.appendAnswer id a).2.sessions = _
    simp only [Memory.appendAnswer, hold, Session.record_withId hr id]
    exact Memory.lookup?_replace_self (by rw [hold]; rfl)
  serve_getPreferences _ := rfl

instance : GrantingSessionTable Database where
  grants_save {_ id _} hm hid hmem :=
    (Database.grants_saveSession_iff hm).mpr ⟨id, hid, (Database.Sound.mem_numbers_iff hm id).mp hmem⟩
  holds_append {_ _ _ _ a} hm hs hv hr := by
    have hopen := hv.not_closed_of_record hr
    obtain ⟨db', hserve, hx⟩ :=
      Database.Contains.serve_appendAnswer hs hm (hv.length_le_of_not_closed hopen) a
    obtain rfl := Except.ok.inj ((hv.record_of_not_closed hopen a).symm.trans hr)
    rw [hserve]
    exact hx.contains
  serve_getPreferences _ := rfl

/-- A session was added to those of a store, which are as they were. -/
structure Added {σ : Type} [SessionTable σ] (m : σ) (id : SessionId) (s : Session) (m' : σ) : Prop where
  sound : Sound m'
  new : id ∉ numbers m
  numbers : numbers m' = numbers m ++ [id]
  others : ∀ l t, Holds m l t → Holds m' l t
  holds : Holds m' id s

theorem Added.mem_numbers {σ : Type} [SessionTable σ] {m m' : σ} {id : SessionId} {s : Session}
    (h : Added m id s m') : id ∈ SessionTable.numbers m' := by
  rw [h.numbers]
  exact List.mem_append_right _ (List.mem_singleton_self id)

variable {σ : Type} [Store σ] [SessionTable σ] [LawfulSessionTable σ] {m m' : σ} {id : SessionId}
  {s s' : Session} {r : Request}

open LawfulSessionTable GrantingSessionTable

theorem added_insert (hm : Sound m) (hg : Grants m (.insertSession s)) :
    ∃ id, (Store.serve (.insertSession s) m).1 = .ok id ∧
      Added m id s (Store.serve (.insertSession s) m).2 := by
  obtain ⟨id, hid⟩ := hg
  have hothers : ∀ l t, Holds m l t → Holds (Store.serve (.insertSession s) m).2 l t :=
    fun l t ht => holds_serve (r := .insertSession s) hm True.intro ht
  have hsound := sound_serve (.insertSession s) hm
  have hcases := inserts s hm
  generalize (Store.serve (.insertSession s) m).1 = reply,
    (Store.serve (.insertSession s) m).2 = m' at hid hcases hothers hsound ⊢
  cases hcases with
  | stored id' _ hnew hnumbers hholds =>
    exact ⟨id', rfl, hsound, hnew, hnumbers, hothers, hholds⟩
  | refused e => cases hid

namespace Added

theorem withId (h : Added m id s m') (own : SessionId) : Added m id (s.withId own) m' :=
  { h with holds := holds_withId own h.holds }

/-- Requests that add and remove no sessions keep the one that was added, if they leave the others
alone. -/
theorem serve (hm : Sound m) (h : Added m id s m') (hi : r.kind ≠ .insertSession)
    (hd : r.kind ≠ .deleteSessions) (hspares : ∀ l, l ≠ id → r.Spares [l])
    (hs : Holds (Store.serve r m').2 id s') : Added m id s' (Store.serve r m').2 := by
  refine ⟨sound_serve r h.sound, h.new, (numbers_serve h.sound hi hd).trans h.numbers, ?_, hs⟩
  intro l t ht
  refine holds_serve h.sound (hspares l fun heq => h.new ?_) (h.others l t ht)
  exact heq ▸ (mem_numbers_iff hm).mpr ⟨t, ht⟩

theorem serve_other (hm : Sound m) (h : Added m id s m') (hr : r.kind.writesSessions = false) :
    Added m id s (Store.serve r m').2 := by
  refine h.serve hm ?_ ?_ (fun l _ => r.spares_of_other hr [l])
    (holds_serve h.sound (r.spares_of_other hr [id]) h.holds)
  all_goals
    intro hk
    rw [hk] at hr
    cases hr

variable [GrantingSessionTable σ]

theorem serve_append {a : Answer} (hm : Sound m) (h : Added m id s m') (hs : s.Valid)
    (hr : s.record a = .ok s') : Added m id s' (Store.serve (.appendAnswer id a) m').2 := by
  refine h.serve hm RequestKind.noConfusion RequestKind.noConfusion (fun l hl hmem => ?_)
    (holds_append h.sound h.holds hs hr)
  exact hl (List.mem_singleton.mp hmem).symm

theorem serve_save (hm : Sound m) (h : Added m id s m') (hid : s'.id = some id) :
    (Store.serve (.saveSession s') m').1 = .ok () ∧
      Added m id s' (Store.serve (.saveSession s') m').2 := by
  obtain ⟨⟨⟩, hok⟩ := grants_save h.sound hid h.mem_numbers
  refine ⟨hok, h.serve hm RequestKind.noConfusion RequestKind.noConfusion ?_ ?_⟩
  · intro l hl i hi hmem
    rw [hid] at hi
    exact hl (Option.some.inj hi ▸ List.mem_singleton.mp hmem).symm
  · have hcases := saves h.sound hid
    rw [hok] at hcases
    generalize (Store.serve (.saveSession s') m').2 = m'' at hcases
    cases hcases with
    | stored _ _ hholds => exact hholds

end Added

end MentalMath
