import Mathlib.Data.List.Nodup
import MentalMath.Proofs.Storage.Memory
import MentalMath.Proofs.Storage.Relational.RoundTrip
import MentalMath.Proofs.Storage.Relational.Submission

/-! Two stores that are asked the same: one holds sessions as they are, the other in tables. The first
adds an answer to a session only if the session takes it, the second to any session that is there. So
both grant the same exactly as long as no answer is handed in for a session that takes no more, and
until then both hold the same sessions under the same numbers. -/

namespace MentalMath

open SessionTable

/-- A request that stores a session or adds an answer to one. -/
def Request.Stores : Request → Prop
  | .insertSession _ | .saveSession _ | .appendAnswer _ _ => True
  | _ => False

theorem Request.Stores.writesSessions {r : Request} (hr : r.Stores) :
    r.kind.writesSessions = true := by
  cases r with
  | insertSession | saveSession | appendAnswer => rfl
  | _ => cases hr

/-- What a request hands in is as described: a session has a property, an answer is graded. -/
def Request.HandsIn (P : Session → Prop) : Request → Prop
  | .insertSession s | .saveSession s => P s
  | .appendAnswer _ a => a.IsGraded
  | _ => True

theorem Request.handsIn_valid {r : Request} : r.HandsIn Session.Valid ↔ r.Valid := by
  cases r <;> exact Iff.rfl

/-- A store grants a request. -/
def Grants {σ : Type} [Store σ] (m : σ) (r : Request) : Prop :=
  ∃ u, (Store.serve r m).1 = .ok u

/-! ### Sessions that take no more answers -/

namespace Session

variable {s s' : Session} {a : Answer}

/-- A session takes no more answers. -/
def Closed (s : Session) : Prop :=
  s.completed = true ∨ s.total ≤ s.answers.length

instance (s : Session) : Decidable s.Closed :=
  inferInstanceAs (Decidable (s.completed = true ∨ s.total ≤ s.answers.length))

theorem not_closed_iff : ¬s.Closed ↔ s.completed = false ∧ s.answers.length < s.total := by
  rw [Closed, not_or, Bool.not_eq_true, Nat.not_le]

theorem Valid.withId (h : s.Valid) (id : SessionId) : (s.withId id).Valid :=
  ⟨h.few, h.counted, h.graded, h.ordered⟩

theorem Valid.answered_lt_iff (h : s.Valid) : s.answered < s.total ↔ s.answers.length < s.total := by
  have hfew := h.few
  rw [answered]
  omega

theorem Valid.not_closed_of_record (h : s.Valid) (hr : s.record a = .ok s') : ¬s.Closed := by
  obtain ⟨hopen, hroom, -⟩ := record_eq_ok_iff.mp hr
  exact not_closed_iff.mpr ⟨hopen, h.answered_lt_iff.mp hroom⟩

/-- There is a place for the next answer of a session that takes one. -/
theorem Valid.length_le_of_not_closed (h : s.Valid) (hs : ¬s.Closed) :
    s.answers.length ≤ Text.maxSigned64 := by
  have hroom := (not_closed_iff.mp hs).2
  have hfew := h.few
  have hcount : maxCount ≤ Text.maxSigned64 := by decide
  omega

/-- A session that takes an answer counts it as the tables do. -/
theorem Valid.record_of_not_closed (h : s.Valid) (hs : ¬s.Closed) (a : Answer) :
    s.record a = .ok (s.appended a) := by
  obtain ⟨hopen, hroom⟩ := not_closed_iff.mp hs
  refine record_eq_ok_iff.mpr ⟨hopen, h.answered_lt_iff.mpr hroom, ?_⟩
  have hle : s.correct ≤ s.answers.length := h.counted ▸ countCorrect_le s.answers
  have hlength := h.length_le_of_not_closed hs
  -- one more right answer fits into both counts, as there are fewer than `total` so far
  have hcorrect : (Column.plusBool s.correct a.isCorrect).toNat =
      if a.isCorrect then Count.next s.correct else s.correct := by
    have hfew := h.few
    rw [Column.plusBool_of_le (Nat.le_trans hle hlength), Column.ofBool, Count.next]
    split <;> omega
  rw [Session.appended, hcorrect]

theorem Valid.record (h : s.Valid) (ha : a.IsGraded) (hr : s.record a = .ok s') : s'.Valid := by
  have hopen := h.not_closed_of_record hr
  rw [h.record_of_not_closed hopen a] at hr
  exact Except.ok.inj hr ▸ h.appended ha (h.length_le_of_not_closed hopen)

end Session

namespace Memory

variable {m m' : Memory} {r : Request} {P : Session → Prop}

theorem forall_replace {id : SessionId} {s : Session} (h : ∀ e ∈ m.sessions, P e.2) (hs : P s) :
    ∀ e ∈ replace id s m.sessions, P e.2 := by
  intro e he
  obtain ⟨old, hold, rfl⟩ := List.mem_map.mp he
  split
  · exact hs
  · exact h old hold

theorem forall_append {id : SessionId} {s : Session} (h : ∀ e ∈ m.sessions, P e.2) (hs : P s) :
    ∀ e ∈ m.sessions ++ [(id, s)], P e.2 := by
  intro e he
  rcases List.mem_append.mp he with he | he
  · exact h e he
  · rw [List.mem_singleton.mp he]
    exact hs

/-- What holds of all that is handed in, and is kept when an answer is added, holds of all sessions. -/
theorem Writes.forall_sessions {reply : Except StorageError r.Reply} (hw : Writes m r reply m')
    (hid : ∀ s id, P s → P (s.withId id))
    (hrecord : ∀ s a s', P s → a.IsGraded → s.record a = .ok s' → P s') (hr : r.HandsIn P)
    (h : ∀ e ∈ m.sessions, P e.2) : ∀ e ∈ m'.sessions, P e.2 := by
  cases hw with
  | inserted s => exact forall_append h (hid s _ hr)
  | saved id s => exact forall_replace h hr
  | appended id a old new hold hnew =>
    exact forall_replace h (hrecord old a new (h _ (mem_of_lookup? hold)) hr hnew)
  | deleted => exact fun _ he => nomatch he
  | refused => exact h
  | spared _ _ _ _ hs => exact hs ▸ h

theorem Writes.lastNumber_le_succ {reply : Except StorageError r.Reply} (hw : Writes m r reply m')
    (hr : r.Stores) : m'.lastNumber ≤ m.lastNumber + 1 := by
  cases hw with
  | inserted => exact Nat.le_refl _
  | saved | appended | deleted | refused => exact Nat.le_succ m.lastNumber
  | spared _ _ _ hw => cases hr.writesSessions.symm.trans hw

theorem serve_snd_of_not_grants (hr : r.Stores) (hrefused : ¬Grants m r) :
    (Store.serve r m).2 = m := by
  have hw := writes_serve m r
  cases hreply : (Store.serve r m).1 with
  | ok u => exact absurd ⟨u, hreply⟩ hrefused
  | error e =>
    rw [hreply] at hw
    generalize (Store.serve r m).2 = m' at hw
    cases hw with
    | refused => rfl
    | spared _ _ _ hw => cases hr.writesSessions.symm.trans hw

theorem getSession_eq_ok_iff {id : SessionId} {s : Session} :
    (Store.serve (.getSession id) m).1 = .ok s ↔ lookup? id m.sessions = some s := by
  show (m.getSession id).1 = .ok s ↔ _
  rw [getSession]
  cases lookup? id m.sessions <;> simp

theorem grants_saveSession_iff {s : Session} :
    Grants m (.saveSession s) ↔ ∃ id, s.id = some id ∧ id ∈ m.sessions.map Prod.fst := by
  show (∃ u, (m.saveSession s).1 = .ok u) ↔ _
  cases hs : s.id with
  | none => simp [saveSession, hs]
  | some id =>
    obtain ⟨hmem, heq⟩ | ⟨hmem, heq⟩ := saveSession_cases (m := m) hs
    · rw [heq]
      exact ⟨fun _ => ⟨id, rfl, hmem⟩, fun _ => ⟨(), rfl⟩⟩
    · rw [heq]
      constructor
      · rintro ⟨u, hu⟩
        cases hu
      · rintro ⟨l, hl, hmem'⟩
        cases hl
        contradiction

theorem grants_appendAnswer_iff {id : SessionId} (hm : ∀ e ∈ m.sessions, e.2.Valid) (a : Answer) :
    Grants m (.appendAnswer id a) ↔ ∃ s, lookup? id m.sessions = some s ∧ ¬s.Closed := by
  constructor
  · rintro ⟨u, hu⟩
    obtain ⟨old, new, hold, hnew, -⟩ | ⟨e, heq⟩ := appendAnswer_cases m id a
    · exact ⟨old, hold, (hm _ (mem_of_lookup? hold)).not_closed_of_record hnew⟩
    · have hu : (m.appendAnswer id a).1 = .ok u := hu
      rw [heq] at hu
      cases hu
  · rintro ⟨s, hs, hopen⟩
    refine ⟨(), ?_⟩
    show (m.appendAnswer id a).1 = .ok ()
    simp only [appendAnswer, hs, (hm _ (mem_of_lookup? hs)).record_of_not_closed hopen a]

end Memory

namespace Database

variable {db : Database} {id : SessionId} {s : Session}

theorem grants_saveSession_iff (h : db.Sound) : Grants db (.saveSession s) ↔
    ∃ id : SessionId, s.id = some id ∧ (db.sessionRow? id.value).isSome := by
  constructor
  · rintro ⟨u, hu⟩
    have hw := h.writes_saveSession s
    rw [hu] at hw
    cases hw with
    | saved id _ _ hid hx => exact ⟨id, hid, hx.there⟩
    | spared _ _ _ hw => cases hw
  · rintro ⟨id, hid, hthere⟩
    obtain ⟨db', hserve, -⟩ := h.serve_saveSession hid hthere
    exact ⟨(), congrArg Prod.fst hserve⟩

theorem Contains.length_eq {key : Int} {t : Session} (hs : db.Contains key s)
    (ht : db.Contains key t) : s.answers.length = t.answers.length := by
  have hplaces := congrArg (List.map AnswerRow.position) (hs.answers.symm.trans ht.answers)
  rw [map_position_places, map_position_places] at hplaces
  simpa using congrArg List.length hplaces

theorem grants_appendAnswer_iff (h : db.Sound) (a : Answer) : Grants db (.appendAnswer id a) ↔
    ∃ s, db.Contains id.value s ∧ s.answers.length ≤ Text.maxSigned64 := by
  constructor
  · rintro ⟨u, hu⟩
    have hw := writes_appendAnswer db id a
    rw [hu] at hw
    cases hw with
    | appended _ _ _ hthere hx =>
      obtain ⟨s, hc⟩ := h.exists_contains hthere
      exact ⟨s, hc, (hx s hc).1⟩
    | spared _ _ _ hw => cases hw
  · rintro ⟨s, hc, hlength⟩
    obtain ⟨db', hserve, -⟩ := hc.serve_appendAnswer h hlength a
    exact ⟨(), congrArg Prod.fst hserve⟩

theorem serve_snd_of_not_grants {r : Request} (h : db.Sound) (hr : r.Stores)
    (hrefused : ¬Grants db r) : (Store.serve r db).2 = db := by
  have hw := h.writes_serve r
  cases hreply : (Store.serve r db).1 with
  | ok u => exact absurd ⟨u, hreply⟩ hrefused
  | error e =>
    rw [hreply] at hw
    generalize (Store.serve r db).2 = db' at hw
    cases hw with
    | refused => rfl
    | spared _ _ _ hw => cases hr.writesSessions.symm.trans hw

end Database

/-! ### The same requests to both stores -/

/-- An answer to a session that takes no more, though there is a place for its row. -/
def Overfills (m : Memory) : Request → Prop
  | .appendAnswer id _ => ∃ s, (Store.serve (.getSession id) m).1 = .ok s ∧ s.Closed ∧
      s.answers.length ≤ Text.maxSigned64
  | _ => False

/-- Both stores hold the same valid sessions under the same numbers. -/
structure Agree (m : Memory) (db : Database) : Prop where
  values : m.Sound
  tables : db.Sound
  count : m.lastNumber = db.sessions.length
  there : ∀ id : SessionId, (db.sessionRow? id.value).isSome → id ∈ m.sessions.map Prod.fst
  contains : ∀ id s, Memory.lookup? id m.sessions = some s → db.Contains id.value s
  valid : ∀ e ∈ m.sessions, e.2.Valid

namespace Agree

open Memory

variable {m : Memory} {db db' : Database} {id : SessionId} {s : Session} {r : Request}

theorem isSome_iff (h : Agree m db) (id : SessionId) :
    (db.sessionRow? id.value).isSome ↔ id ∈ m.sessions.map Prod.fst := by
  refine ⟨h.there id, fun hid => ?_⟩
  obtain ⟨s, hs⟩ := Option.isSome_iff_exists.mp (lookup?_isSome_iff.mpr hid)
  rw [(h.contains id s hs).row]
  rfl

theorem exists_of_contains (h : Agree m db) {t : Session} (ht : db.Contains id.value t) :
    ∃ s, lookup? id m.sessions = some s ∧ db.Contains id.value s := by
  have hmem := h.there id (by rw [ht.row]; rfl)
  obtain ⟨s, hs⟩ := Option.isSome_iff_exists.mp (lookup?_isSome_iff.mpr hmem)
  exact ⟨s, hs, h.contains id s hs⟩

theorem rewrite (h : Agree m db) (hx : db.Rewrites id.value s db') (hid : s.id = some id)
    (hs : s.Valid) : Agree { m with sessions := replace id s m.sessions } db' := by
  have hmem : id ∈ m.sessions.map Prod.fst := h.there id hx.there
  refine ⟨h.values.replace hid, hx.sound h.tables, ?count, ?there, ?contains, ?valid⟩
  case count =>
    have hlength := congrArg List.length hx.ids
    rw [List.length_map, List.length_map] at hlength
    exact h.count.trans hlength.symm
  case there =>
    intro l hl
    rw [map_fst_replace]
    exact h.there l ((Database.isSome_sessionRow?_congr hx.ids _).mp hl)
  case contains =>
    intro l t hl
    by_cases heq : l = id
    · subst heq
      rw [lookup?_replace_self (lookup?_isSome_iff.mpr hmem)] at hl
      exact Option.some.inj hl ▸ hx.contains
    · rw [lookup?_replace_of_ne heq] at hl
      exact hx.contains_of_ne (Database.value_ne heq) (h.contains l t hl)
  case valid => exact forall_replace h.valid hs

theorem insert (h : Agree m db) (hs : s.Valid) (hroom : m.lastNumber < Text.maxSigned64) :
    Grants db (.insertSession s) ∧
      Agree (m.insertSession s).2 (Store.serve (.insertSession s) db).2 := by
  obtain ⟨db', hserve, hx⟩ := h.tables.serve_insertSession (h.count ▸ hroom) s
  rw [hserve]
  refine ⟨⟨_, congrArg Prod.fst hserve⟩, h.values.insertSession s, hx.sound h.tables, ?count, ?there,
    ?contains, ?valid⟩
  case count =>
    rw [hx.sessions, List.length_append, List.length_singleton, ← h.count]
    rfl
  case there =>
    intro id hid
    rw [Database.sessionRow?_isSome_iff, hx.sessions, List.map_append, List.mem_append,
      ← Database.sessionRow?_isSome_iff] at hid
    show id ∈ (m.sessions ++ [(_, _)]).map Prod.fst
    rw [List.map_append, List.mem_append]
    refine hid.imp (h.there id) fun hnew => ?_
    have hvalue : (id.value : Int) = db.sessions.length + 1 := List.mem_singleton.mp hnew
    rw [← h.count] at hvalue
    exact List.mem_singleton.mpr (congrArg SessionId.mk (by omega))
  case contains =>
    intro id t ht
    have ht : lookup? id (m.sessions ++ [(⟨m.lastNumber + 1⟩, s.withId ⟨m.lastNumber + 1⟩)]) = some t :=
      ht
    cases hold : lookup? id m.sessions with
    | some old =>
      rw [lookup?_append_of_isSome (by rw [hold]; rfl), hold] at ht
      exact hx.contains_of_contains h.tables (Option.some.inj ht ▸ h.contains id old hold)
    | none =>
      -- what was not found before is the new entry, and both give it the same number
      have hmem := mem_of_lookup? ht
      rcases List.mem_append.mp hmem with hmem | hmem
      · have hsome := lookup?_isSome_iff.mpr (List.mem_map_of_mem hmem)
        rw [hold] at hsome
        cases hsome
      · cases List.mem_singleton.mp hmem
        have hc := hx.contains h.tables
        rw [← h.count] at hc
        exact ⟨hc.row, hc.answers⟩
  case valid => exact forall_append h.valid (hs.withId _)

theorem of_refused (h : Agree m db) (hr : r.Stores) (hm : ¬Grants m r) (hdb : ¬Grants db r) :
    Agree (Store.serve r m).2 (Store.serve r db).2 := by
  rw [serve_snd_of_not_grants hr hm, Database.serve_snd_of_not_grants h.tables hr hdb]
  exact h

theorem save (h : Agree m db) (hs : s.Valid) :
    (Grants m (.saveSession s) ↔ Grants db (.saveSession s)) ∧
      Agree (Store.serve (.saveSession s) m).2 (Store.serve (.saveSession s) db).2 := by
  have hiff : Grants m (.saveSession s) ↔ Grants db (.saveSession s) := by
    rw [grants_saveSession_iff, Database.grants_saveSession_iff h.tables]
    simp only [h.isSome_iff]
  refine ⟨hiff, ?_⟩
  by_cases hgrants : Grants m (.saveSession s)
  · obtain ⟨id, hid, hmem⟩ := grants_saveSession_iff.mp hgrants
    obtain ⟨db', hserve, hx⟩ := h.tables.serve_saveSession hid ((h.isSome_iff id).mpr hmem)
    have hsave : Store.serve (.saveSession s) m =
        (.ok (), { m with sessions := replace id s m.sessions }) := by
      obtain ⟨-, heq⟩ | ⟨hmissing, -⟩ := saveSession_cases (m := m) hid
      · exact heq
      · contradiction
    rw [hserve, hsave]
    exact h.rewrite hx hid hs
  · exact h.of_refused True.intro hgrants (mt hiff.mpr hgrants)

/-- An answer is added in both stores or in none, unless it overfills its session. -/
theorem append (h : Agree m db) {a : Answer} (ha : a.IsGraded)
    (hfits : ¬Overfills m (.appendAnswer id a)) :
    (Grants m (.appendAnswer id a) ↔ Grants db (.appendAnswer id a)) ∧
      Agree (Store.serve (.appendAnswer id a) m).2 (Store.serve (.appendAnswer id a) db).2 := by
  by_cases hgrants : Grants m (.appendAnswer id a)
  · obtain ⟨s, hs, hopen⟩ := (grants_appendAnswer_iff h.valid a).mp hgrants
    have hvalid : s.Valid := h.valid _ (mem_of_lookup? hs)
    have hid : s.id = some id := h.values.named _ (mem_of_lookup? hs)
    have hlength := hvalid.length_le_of_not_closed hopen
    obtain ⟨db', hserve, hx⟩ := (h.contains id s hs).serve_appendAnswer h.tables hlength a
    have happend : Store.serve (.appendAnswer id a) m =
        (.ok (), { m with sessions := replace id (s.appended a) m.sessions }) := by
      show m.appendAnswer id a = _
      simp only [appendAnswer, hs, hvalid.record_of_not_closed hopen a]
    refine ⟨⟨fun _ => ⟨(), congrArg Prod.fst hserve⟩, fun _ => hgrants⟩, ?_⟩
    rw [hserve, happend]
    exact h.rewrite hx hid (hvalid.appended ha hlength)
  · -- the values refuse an answer only for a session that is missing or closed
    have hdb : ¬Grants db (.appendAnswer id a) := by
      rw [Database.grants_appendAnswer_iff h.tables]
      rintro ⟨t, ht, hlength⟩
      obtain ⟨s, hs, hc⟩ := h.exists_of_contains ht
      rw [← hc.length_eq ht] at hlength
      have hclosed : s.Closed := by
        apply Classical.byContradiction
        intro hopen
        exact hgrants ((grants_appendAnswer_iff h.valid a).mpr ⟨s, hs, hopen⟩)
      exact hfits ⟨s, getSession_eq_ok_iff.mpr hs, hclosed, hlength⟩
    exact ⟨⟨fun hm => absurd hm hgrants, fun hd => absurd hd hdb⟩,
      h.of_refused True.intro hgrants hdb⟩

theorem room_of_get (h : Agree m db) (hm : ∀ e ∈ m.sessions, e.2.Coherent)
    (hget : db.getSession id = .ok s) : s.answers.length ≤ s.total ∧ s.correct ≤ s.total := by
  obtain ⟨t, ht, -, -⟩ := h.tables.contains_of_get hget
  obtain ⟨s₀, hs₀, hc⟩ := h.exists_of_contains ht
  obtain ⟨-, rfl⟩ := (hc.getSession_eq_ok_iff h.tables).mp hget
  have hcoherent : s₀.Coherent := hm _ (mem_of_lookup? hs₀)
  have hlength : (s₀.regraded.cut.withId id).answers.length = s₀.answers.length := by
    simp only [Session.withId, Session.cut, Session.regraded, List.length_map]
  exact ⟨hlength ▸ hcoherent.room, hcoherent.correct_le_total⟩

theorem not_alike_of_overfills (h : Agree m db) (hover : Overfills m r) :
    ¬Grants m r ∧ Grants db r := by
  cases r with
  | appendAnswer id a =>
    obtain ⟨s, hget, hclosed, hlength⟩ := hover
    have hs := getSession_eq_ok_iff.mp hget
    constructor
    · rw [grants_appendAnswer_iff h.valid]
      rintro ⟨t, ht, hopen⟩
      rw [hs] at ht
      exact hopen (Option.some.inj ht ▸ hclosed)
    · rw [Database.grants_appendAnswer_iff h.tables]
      exact ⟨s, h.contains id s hs, hlength⟩
  | _ => cases hover

theorem step (h : Agree m db) (hr : r.Stores) (hvalid : r.Valid)
    (hroom : m.lastNumber < Text.maxSigned64) (hfits : ¬Overfills m r) :
    (Grants m r ↔ Grants db r) ∧ Agree (Store.serve r m).2 (Store.serve r db).2 := by
  cases r with
  | insertSession s =>
    obtain ⟨hgrants, hagree⟩ := h.insert hvalid hroom
    exact ⟨⟨fun _ => hgrants, fun _ => ⟨_, rfl⟩⟩, hagree⟩
  | saveSession s => exact h.save hvalid
  | appendAnswer id a => exact h.append hvalid hfits
  | _ => cases hr

end Agree

/-- Both stores grant the same of the requests of a sequence. -/
def GrantAlike : List Request → Memory → Database → Prop
  | [], _, _ => True
  | r :: rs, m, db =>
    (Grants m r ↔ Grants db r) ∧ GrantAlike rs (Store.serve r m).2 (Store.serve r db).2

/-- No request of a sequence overfills a session. -/
def KeepsRoom : List Request → Memory → Prop
  | [], _ => True
  | r :: rs, m => ¬Overfills m r ∧ KeepsRoom rs (Store.serve r m).2

namespace Agree

variable {m : Memory} {db : Database} {rs : List Request}

/-- The first request that overfills a session is the first one that the stores answer differently. -/
theorem grantAlike_iff (h : Agree m db) (hrs : ∀ r ∈ rs, r.Stores ∧ r.Valid)
    (hroom : m.lastNumber + rs.length ≤ Text.maxSigned64) :
    GrantAlike rs m db ↔ KeepsRoom rs m := by
  -- the stores agree up to the first request that overfills, and there both sides fail
  induction rs generalizing m db with
  | nil => exact Iff.rfl
  | cons r rs ih =>
    obtain ⟨hstores, hvalid⟩ := hrs r List.mem_cons_self
    have hnumber := (Memory.writes_serve m r).lastNumber_le_succ hstores
    rw [List.length_cons] at hroom
    by_cases hover : Overfills m r
    · obtain ⟨hm, hdb⟩ := h.not_alike_of_overfills hover
      constructor
      · exact fun halike => absurd (halike.1.mpr hdb) hm
      · exact fun hkeeps => absurd hover hkeeps.1
    · obtain ⟨hgrants, hagree⟩ := h.step hstores hvalid (by omega) hover
      have hrest := ih hagree (fun r hr => hrs r (List.mem_cons_of_mem _ hr)) (by omega)
      exact and_congr (iff_of_true hgrants hover) hrest

theorem after (h : Agree m db) (hrs : ∀ r ∈ rs, r.Stores ∧ r.Valid)
    (hroom : m.lastNumber + rs.length ≤ Text.maxSigned64) (hkeeps : KeepsRoom rs m) :
    Agree (Store.after rs m) (Store.after rs db) := by
  induction rs generalizing m db with
  | nil => exact h
  | cons r rs ih =>
    obtain ⟨hstores, hvalid⟩ := hrs r List.mem_cons_self
    have hnumber := (Memory.writes_serve m r).lastNumber_le_succ hstores
    rw [List.length_cons] at hroom
    have hagree := (h.step hstores hvalid (by omega) hkeeps.1).2
    rw [Store.after_cons, Store.after_cons]
    exact ih hagree (fun r hr => hrs r (List.mem_cons_of_mem _ hr)) (by omega) hkeeps.2

theorem empty : Agree Memory.empty Database.empty := by
  refine ⟨Memory.sound_of_nil rfl, Database.sound_of_nil rfl rfl, rfl, ?_, ?_, ?_⟩
  · exact fun _ hid => absurd hid Bool.false_ne_true
  · exact fun _ _ hs => nomatch hs
  · exact fun _ he => nomatch he

end Agree

/-! ### Sessions of the values -/

namespace Memory

variable {rs : List Request}

theorem forall_after {P : Session → Prop} (hid : ∀ s id, P s → P (s.withId id))
    (hrecord : ∀ s a s', P s → a.IsGraded → s.record a = .ok s' → P s')
    (hrs : ∀ r ∈ rs, r.HandsIn P) : ∀ e ∈ (Store.after rs empty).sessions, P e.2 := by
  refine Store.after_keeps (P := fun m : Memory => ∀ e ∈ m.sessions, P e.2) ?_
    fun _ he => nomatch he
  exact fun r hr m hm => (writes_serve m r).forall_sessions hid hrecord (hrs r hr) hm

theorem valid_after (hrs : ∀ r ∈ rs, r.Valid) :
    ∀ e ∈ (Store.after rs empty).sessions, e.2.Valid := by
  refine forall_after (fun _ id hs => hs.withId id) ?_ fun r hr => Request.handsIn_valid.mpr (hrs r hr)
  exact fun _ _ _ hs ha hrecord => hs.record ha hrecord

theorem coherent_after (hrs : ∀ r ∈ rs, r.HandsIn Session.Coherent) :
    ∀ e ∈ (Store.after rs empty).sessions, e.2.Coherent :=
  forall_after (fun _ id hs => hs.withId id) (fun _ _ _ hs ha hrecord => hs.record ha hrecord) hrs

end Memory

/-- Both stores are asked the same from empty ones on. Values as they are take an answer exactly if its
session is stored, not completed and short of an answer; tables take it whenever the session is stored
(up to 2^63 answers). So both grant the same exactly as long as no answer is handed in for a session
that takes no more. Then they hold the same sessions, and if those that are handed in have no more
answers than questions, no session ever has. -/
theorem grantAlike_iff_keepsRoom {rs : List Request} (hrs : ∀ r ∈ rs, r.Stores ∧ r.Valid)
    (hfew : rs.length ≤ Text.maxSigned64) :
    let m := Store.after rs Memory.empty
    let db := Store.after rs Database.empty
    (∀ id a, Grants m (.appendAnswer id a) ↔ ∃ s, (Store.serve (.getSession id) m).1 = .ok s ∧
      s.completed = false ∧ s.answers.length < s.total) ∧
    (∀ id a, Grants db (.appendAnswer id a) ↔
      ∃ s, Holds db id s ∧ s.answers.length ≤ Text.maxSigned64) ∧
    (GrantAlike rs Memory.empty Database.empty ↔ KeepsRoom rs Memory.empty) ∧
    (KeepsRoom rs Memory.empty →
      (∀ id, (∃ s, (Store.serve (.getSession id) m).1 = .ok s) ↔ ∃ s, Holds db id s) ∧
      (∀ id s, (Store.serve (.getSession id) m).1 = .ok s → Holds db id s) ∧
      ∀ id a, a.IsGraded → ((Grants m (.appendAnswer id a) ↔ Grants db (.appendAnswer id a)) ↔
        ¬Overfills m (.appendAnswer id a))) ∧
    ((∀ r ∈ rs, r.HandsIn Session.Coherent) →
      (∀ id s, (Store.serve (.getSession id) m).1 = .ok s →
        s.answers.length ≤ s.total ∧ s.correct ≤ s.total) ∧
      (KeepsRoom rs Memory.empty → ∀ id t, (Store.serve (.getSession id) db).1 = .ok t →
        t.answers.length ≤ t.total ∧ t.correct ≤ t.total)) := by
  intro m db
  have hdb : db.Sound := Database.sound_after_empty rs
  have hvalid : ∀ e ∈ m.sessions, e.2.Valid := Memory.valid_after fun r hr => (hrs r hr).2
  have hroom : Memory.empty.lastNumber + rs.length ≤ Text.maxSigned64 := by
    rw [show Memory.empty.lastNumber = 0 from rfl]
    omega
  have hagree : KeepsRoom rs Memory.empty → Agree m db := Agree.empty.after hrs hroom
  have hget : ∀ id s, (Store.serve (.getSession id) m).1 = .ok s ↔
      Memory.lookup? id m.sessions = some s := fun id s => Memory.getSession_eq_ok_iff
  refine ⟨fun id a => ?values, fun id a => ?tables, ?alike, fun hkeeps => ⟨fun id => ?there, ?same,
    fun id a ha => ?next⟩, fun hcoherent => ⟨fun id s hs => ?few, fun hkeeps id t ht => ?room⟩⟩
  case values =>
    rw [Memory.grants_appendAnswer_iff hvalid]
    exact exists_congr fun s => and_congr (hget id s).symm Session.not_closed_iff
  case tables => exact Database.grants_appendAnswer_iff hdb a
  case alike => exact Agree.empty.grantAlike_iff hrs hroom
  case there =>
    constructor
    · rintro ⟨s, hs⟩
      exact ⟨s, (hagree hkeeps).contains id s ((hget id s).mp hs)⟩
    · rintro ⟨t, ht⟩
      obtain ⟨s, hs, -⟩ := (hagree hkeeps).exists_of_contains ht
      exact ⟨s, (hget id s).mpr hs⟩
  case same => exact fun id s hs => (hagree hkeeps).contains id s ((hget id s).mp hs)
  case next =>
    constructor
    · intro halike hover
      obtain ⟨hm, hdb⟩ := (hagree hkeeps).not_alike_of_overfills hover
      exact hm (halike.mpr hdb)
    · exact fun hfits => ((hagree hkeeps).append ha hfits).1
  case few =>
    have hs := Memory.coherent_after hcoherent _ (Memory.mem_of_lookup? ((hget id s).mp hs))
    exact ⟨hs.room, hs.correct_le_total⟩
  case room => exact (hagree hkeeps).room_of_get (Memory.coherent_after hcoherent) ht

/-- The only answer to a session of one question is taken by both stores, one more by the tables
only. -/
theorem grantAlike_of_one_answer :
    let answer : Answer := ⟨"17 + 25", "42", "42", .skill .twoDigitAddition, true, .zero, .epoch⟩
    let rs := [.insertSession (.start .mixed 1 .epoch), .appendAnswer ⟨1⟩ answer]
    (∀ r ∈ rs, r.Stores ∧ r.Valid) ∧ rs.length ≤ Text.maxSigned64 ∧
      KeepsRoom rs Memory.empty ∧ GrantAlike rs Memory.empty Database.empty ∧
      ¬(Grants (Store.after rs Memory.empty) (.appendAnswer ⟨1⟩ answer) ↔
        Grants (Store.after rs Database.empty) (.appendAnswer ⟨1⟩ answer)) := by
  intro answer rs
  have hrs : ∀ r ∈ rs, r.Stores ∧ r.Valid := by
    have hstart : (Session.start .mixed 1 .epoch).Valid :=
      (Session.coherent_start (by decide) .mixed .epoch).valid
    simp only [rs, List.forall_mem_cons]
    exact ⟨⟨True.intro, hstart⟩, ⟨True.intro, rfl⟩, fun _ hr => (List.not_mem_nil hr).elim⟩
  have hfew : rs.length ≤ Text.maxSigned64 := by decide
  have hkeeps : KeepsRoom rs Memory.empty := by
    refine ⟨fun h => h, ?_, True.intro⟩
    rintro ⟨s, hs, hclosed, -⟩
    obtain rfl : (Session.start .mixed 1 .epoch).withId ⟨1⟩ = s := Except.ok.inj hs
    exact absurd hclosed (by decide)
  have hover : Overfills (Store.after rs Memory.empty) (.appendAnswer ⟨1⟩ answer) :=
    ⟨_, rfl, Or.inr (by decide), by decide⟩
  obtain ⟨-, -, halike, hagree, -⟩ := grantAlike_iff_keepsRoom hrs hfew
  obtain ⟨-, -, hnext⟩ := hagree hkeeps
  refine ⟨hrs, hfew, hkeeps, halike.mpr hkeeps, fun hgrants => ?_⟩
  exact (hnext ⟨1⟩ answer rfl).mp hgrants hover

/-- The second answer to a session of one question is refused by the one store and added by the other,
which then returns more answers than questions, and more right ones. An answer is also added to a
session that was completed. -/
theorem not_grantAlike_of_full :
    let answer : Answer := ⟨"17 + 25", "42", "42", .skill .twoDigitAddition, true, .zero, .epoch⟩
    let short := Session.start .mixed 1 .epoch
    let done : Session := { Session.start .mixed 2 .epoch with
      endedAt := some .epoch, completed := true }
    let rs := [.insertSession short, .appendAnswer ⟨1⟩ answer, .appendAnswer ⟨1⟩ answer]
    let late := [.insertSession done, .appendAnswer ⟨1⟩ answer]
    (∀ r ∈ rs ++ late, r.Stores ∧ r.Valid) ∧
      ¬GrantAlike rs Memory.empty Database.empty ∧ ¬GrantAlike late Memory.empty Database.empty ∧
      (Store.serve (.getSession ⟨1⟩) (Store.after rs Memory.empty)).1 =
        .ok { short.withId ⟨1⟩ with answers := [answer], correct := 1 } ∧
      (Store.serve (.getSession ⟨1⟩) (Store.after rs Database.empty)).1 =
        .ok { short.withId ⟨1⟩ with answers := [answer, answer], correct := 2 } ∧
      (Store.serve (.getSession ⟨1⟩) (Store.after late Database.empty)).1 =
        .ok { done.withId ⟨1⟩ with answers := [answer], correct := 1 } := by
  intro answer short done rs late
  have hrs : ∀ r ∈ rs ++ late, r.Stores ∧ r.Valid := by
    have hshort : short.Valid := (Session.coherent_start (by decide) .mixed .epoch).valid
    have hdone : done.Valid :=
      ⟨by decide, rfl, fun _ ha => (List.not_mem_nil ha).elim, fun _ he => by cases he; decide⟩
    simp only [rs, late, List.cons_append, List.nil_append, List.forall_mem_cons]
    exact ⟨⟨True.intro, hshort⟩, ⟨True.intro, rfl⟩, ⟨True.intro, rfl⟩, ⟨True.intro, hdone⟩,
      ⟨True.intro, rfl⟩, fun _ hr => (List.not_mem_nil hr).elim⟩
  have hrefused : ∀ {m : Memory}, (Store.serve (.appendAnswer ⟨1⟩ answer) m).1 = .error .conflict →
      ¬Grants m (.appendAnswer ⟨1⟩ answer) := by
    rintro m hm ⟨u, hu⟩
    rw [hm] at hu
    cases hu
  have hover : (Store.after rs Database.empty).getSession ⟨1⟩ =
      .ok { short.withId ⟨1⟩ with answers := [answer, answer], correct := 2 } := by
    let full : Session := { short with answers := [answer, answer], correct := 2 }
    have hc : (Store.after rs Database.empty).Contains 1 full :=
      ⟨by decide +kernel, by decide +kernel⟩
    have hfull : full.Valid := by
      refine ⟨by decide, rfl, ?_, fun _ he => nomatch he⟩
      exact List.forall_mem_cons.mpr ⟨rfl, List.forall_mem_singleton.mpr rfl⟩
    exact hc.getSession_eq_ok (Database.sound_after_empty rs) hfull (by decide)
  refine ⟨hrs, ?full, ?completed, rfl, hover, by decide +kernel⟩
  case full =>
    rintro ⟨-, -, halike, -⟩
    exact hrefused rfl (halike.mpr ⟨(), by decide +kernel⟩)
  case completed =>
    rintro ⟨-, halike, -⟩
    exact hrefused rfl (halike.mpr ⟨(), by decide +kernel⟩)

end MentalMath
