import MentalMath.Proofs.Program
import MentalMath.Proofs.Storage.Sessions
import MentalMath.Storage.Memory

/-! The sessions of a store that holds its values as they are. Its numbers come from one count, so
they are never given out twice, and a session is found under its number as it was stored. -/

namespace MentalMath.Memory

open SessionTable

/-! Entries under keys. -/

section Entries

variable {κ α : Type} [BEq κ] [LawfulBEq κ] {entries : List (κ × α)} {k l : κ} {v w : α}

theorem lookup?_eq_some_of_mem (hn : (entries.map Prod.fst).Nodup) (h : (k, v) ∈ entries) :
    lookup? k entries = some v := by
  induction entries with
  | nil => cases h
  | cons e entries ih =>
    rw [List.map_cons, List.nodup_cons] at hn
    cases List.mem_cons.mp h with
    | inl he =>
      subst he
      simp [lookup?]
    | inr he =>
      have hne : (e.1 == k) = false := by
        apply beq_false_of_ne
        intro heq
        exact hn.1 (heq ▸ List.mem_map_of_mem he)
      rw [lookup?, List.find?_cons, hne]
      exact ih hn.2 he

theorem mem_of_lookup? (h : lookup? k entries = some v) : (k, v) ∈ entries := by
  obtain ⟨e, he, rfl⟩ := Option.map_eq_some_iff.mp h
  have hk : e.1 = k := eq_of_beq (List.find?_some (p := fun e : κ × α => e.1 == k) he)
  exact hk ▸ List.mem_of_find?_eq_some he

theorem lookup?_isSome_iff : (lookup? k entries).isSome ↔ k ∈ entries.map Prod.fst := by
  simp [lookup?]

theorem map_fst_replace : (replace k v entries).map Prod.fst = entries.map Prod.fst := by
  induction entries with
  | nil => rfl
  | cons e entries ih =>
    rw [replace, List.map_cons, List.map_cons, List.map_cons]
    refine List.cons_eq_cons.mpr ⟨?_, ih⟩
    split
    case isTrue h => exact (eq_of_beq h).symm
    case isFalse => rfl

theorem lookup?_replace_self (h : (lookup? k entries).isSome) :
    lookup? k (replace k v entries) = some v := by
  induction entries with
  | nil => cases h
  | cons e entries ih =>
    cases he : e.1 == k with
    | true => simp [replace, lookup?, he]
    | false =>
      simp only [lookup?, List.find?_cons, he] at h
      simpa [replace, lookup?, he] using ih h

theorem lookup?_replace_of_ne (h : l ≠ k) : lookup? l (replace k v entries) = lookup? l entries := by
  induction entries with
  | nil => rfl
  | cons e entries ih =>
    have hkl : (k == l) = false := beq_false_of_ne (Ne.symm h)
    cases he : e.1 == k with
    | true =>
      have hel : (e.1 == l) = false := by rw [eq_of_beq he]; exact hkl
      simpa [replace, lookup?, he, hkl, hel] using ih
    | false =>
      cases hel : e.1 == l with
      | true => simp [replace, lookup?, he, hel]
      | false => simpa [replace, lookup?, he, hel] using ih

theorem replace_eq_self (hn : (entries.map Prod.fst).Nodup) (h : lookup? k entries = some v) :
    replace k v entries = entries := by
  have hid : ∀ e ∈ entries, (if e.1 == k then (k, v) else e) = e := by
    intro e he
    split
    case isTrue hk =>
      have hv : lookup? k entries = some e.2 :=
        lookup?_eq_some_of_mem hn ((eq_of_beq hk) ▸ he)
      rw [h] at hv
      cases e with | mk k' v' =>
      cases hv
      rw [← eq_of_beq hk]
    case isFalse => rfl
  exact (List.map_congr_left hid).trans (List.map_id' entries)

omit [LawfulBEq κ] in
theorem lookup?_append_of_isSome (h : (lookup? k entries).isSome) (e : κ × α) :
    lookup? k (entries ++ [e]) = lookup? k entries := by
  obtain ⟨v, hv⟩ := Option.isSome_iff_exists.mp h
  obtain ⟨e', he', rfl⟩ := Option.map_eq_some_iff.mp hv
  simp [lookup?, he']

theorem lookup?_append_new (h : k ∉ entries.map Prod.fst) :
    lookup? k (entries ++ [(k, v)]) = some v := by
  have hnone : lookup? k entries = none := by
    rw [← Option.not_isSome_iff_eq_none, lookup?_isSome_iff]
    exact h
  simp only [lookup?, Option.map_eq_none_iff] at hnone
  simp [lookup?, hnone]

end Entries

/-- The numbers are told apart and given out, and each session knows its own. -/
structure Sound (m : Memory) : Prop where
  nodup : (m.sessions.map Prod.fst).Nodup
  given : ∀ id ∈ m.sessions.map Prod.fst, id.value ≤ m.lastNumber
  named : ∀ e ∈ m.sessions, e.2.id = some e.1

instance : SessionTable Memory where
  empty := empty
  Sound := Sound
  numbers m := m.sessions.map Prod.fst
  Holds m id s := lookup? id m.sessions = some (s.withId id)
  shown s := s

variable {m m' : Memory} {id : SessionId} {s : Session}

theorem sound_of_nil (h : m.sessions = []) : m.Sound := by
  constructor <;> simp [h]

theorem Sound.of_sessions (h : m.Sound) (hs : m'.sessions = m.sessions)
    (hl : m.lastNumber ≤ m'.lastNumber) : m'.Sound := by
  refine ⟨hs ▸ h.nodup, fun id hid => ?_, hs ▸ h.named⟩
  rw [hs] at hid
  exact Nat.le_trans (h.given id hid) hl

theorem Sound.replace (h : m.Sound) (hs : s.id = some id) :
    ({ m with sessions := replace id s m.sessions } : Memory).Sound := by
  refine ⟨?_, ?_, fun e he => ?_⟩
  · rw [map_fst_replace]
    exact h.nodup
  · rw [map_fst_replace]
    exact h.given
  · obtain ⟨e', he', rfl⟩ := List.mem_map.mp he
    split
    · exact hs
    · exact h.named e' he'

theorem Sound.new (h : m.Sound) : ⟨m.lastNumber + 1⟩ ∉ m.sessions.map Prod.fst := by
  intro hmem
  exact Nat.not_succ_le_self _ (h.given _ hmem)

theorem Sound.insertSession (h : m.Sound) (s : Session) : (m.insertSession s).2.Sound := by
  simp only [Memory.insertSession]
  refine ⟨?_, fun id hid => ?_, fun e he => ?_⟩
  · rw [List.map_append, List.nodup_append]
    refine ⟨h.nodup, by simp, fun a ha b hb => ?_⟩
    simp only [List.map_cons, List.map_nil, List.mem_singleton] at hb
    exact fun heq => h.new (hb ▸ heq ▸ ha)
  · simp only [List.map_append, List.map_cons, List.map_nil, List.mem_append,
      List.mem_singleton] at hid
    cases hid with
    | inl hid => exact Nat.le_succ_of_le (h.given id hid)
    | inr hid =>
      subst hid
      exact Nat.le_refl _
  · cases List.mem_append.mp he with
    | inl he => exact h.named e he
    | inr he => rw [List.mem_singleton.mp he, Session.withId_id]

theorem serve_of_other {r : Request} (hr : r.kind.writesSessions = false) :
    (Store.serve r m).2.sessions = m.sessions ∧
      m.lastNumber ≤ (Store.serve r m).2.lastNumber := by
  show (serve r m).2.sessions = m.sessions ∧ m.lastNumber ≤ (serve r m).2.lastNumber
  cases r with
  | insertSession | saveSession | appendAnswer | deleteSessions => cases hr
  | getSession id =>
    simp only [serve, getSession]
    split <;> exact ⟨rfl, Nat.le_refl _⟩
  | getMistake id =>
    simp only [serve]
    split <;> exact ⟨rfl, Nat.le_refl _⟩
  | putMistake v =>
    simp only [serve, putMistake]
    split
    · split <;> exact ⟨rfl, Nat.le_refl _⟩
    · split
      · exact ⟨rfl, Nat.le_refl _⟩
      · exact ⟨rfl, Nat.le_succ _⟩
  | deleteMistake id =>
    simp only [serve, deleteMistake]
    split <;> exact ⟨rfl, Nat.le_refl _⟩
  | listSessions | findMistake | listMistakes | deleteMistakes | getPreferences | savePreferences
  | clearPreferences => exact ⟨rfl, Nat.le_refl _⟩

/-- Saving succeeds exactly under a number that is in use. -/
theorem saveSession_cases (hid : s.id = some id) :
    (id ∈ m.sessions.map Prod.fst ∧
        m.saveSession s = (.ok (), { m with sessions := replace id s m.sessions })) ∨
      (id ∉ m.sessions.map Prod.fst ∧ m.saveSession s = (.error .notFound, m)) := by
  cases hl : lookup? id m.sessions with
  | some old =>
    refine Or.inl ⟨lookup?_isSome_iff.mp (by rw [hl]; rfl), ?_⟩
    simp only [saveSession, hid, hl]
  | none =>
    refine Or.inr ⟨?_, ?_⟩
    · rw [← lookup?_isSome_iff, hl]
      exact Bool.noConfusion
    · simp only [saveSession, hid, hl]

/-- Adding an answer succeeds exactly if the session has room for it. -/
theorem appendAnswer_cases (m : Memory) (id : SessionId) (a : Answer) :
    (∃ old new, lookup? id m.sessions = some old ∧ old.record a = .ok new ∧
        m.appendAnswer id a = (.ok (), { m with sessions := replace id new m.sessions })) ∨
      ∃ e, m.appendAnswer id a = (.error e, m) := by
  cases hl : lookup? id m.sessions with
  | none => exact Or.inr ⟨.notFound, by simp only [appendAnswer, hl]⟩
  | some old =>
    cases hr : old.record a with
    | error e => exact Or.inr ⟨.conflict, by simp only [appendAnswer, hl, hr]⟩
    | ok new => exact Or.inl ⟨old, new, rfl, hr, by simp only [appendAnswer, hl, hr]⟩

/-- How a request writes sessions, with what it returns. -/
inductive Writes (m : Memory) : (r : Request) → Except StorageError r.Reply → Memory → Prop
  | inserted (s : Session) : Writes m (.insertSession s) (.ok ⟨m.lastNumber + 1⟩) { m with
      sessions := m.sessions ++ [(⟨m.lastNumber + 1⟩, s.withId ⟨m.lastNumber + 1⟩)]
      lastNumber := m.lastNumber + 1 }
  | saved (id : SessionId) (s : Session) (hid : s.id = some id)
      (hmem : id ∈ m.sessions.map Prod.fst) :
      Writes m (.saveSession s) (.ok ()) { m with sessions := replace id s m.sessions }
  | appended (id : SessionId) (a : Answer) (old new : Session)
      (hold : lookup? id m.sessions = some old) (hnew : old.record a = .ok new) :
      Writes m (.appendAnswer id a) (.ok ()) { m with sessions := replace id new m.sessions }
  | deleted : Writes m .deleteSessions (.ok m.sessions.length) { m with sessions := [] }
  | refused (r : Request) (e : StorageError) : Writes m r (.error e) m
  | spared (r : Request) (reply : Except StorageError r.Reply) (m' : Memory)
      (hw : r.kind.writesSessions = false) (hs : m'.sessions = m.sessions)
      (hl : m.lastNumber ≤ m'.lastNumber) : Writes m r reply m'

theorem writes_serve (m : Memory) (r : Request) :
    Writes m r (Store.serve r m).1 (Store.serve r m).2 := by
  cases hw : r.kind.writesSessions with
  | false => exact .spared r _ _ hw (serve_of_other hw).1 (serve_of_other hw).2
  | true =>
  cases r with
  | insertSession s => exact .inserted s
  | saveSession s =>
    show Writes m (.saveSession s) (m.saveSession s).1 (m.saveSession s).2
    cases hid : s.id with
    | none =>
      simp only [saveSession, hid]
      exact .refused _ _
    | some id =>
      obtain ⟨hmem, heq⟩ | ⟨-, heq⟩ := saveSession_cases (m := m) hid
      · rw [heq]
        exact .saved id s hid hmem
      · rw [heq]
        exact .refused _ _
  | appendAnswer id a =>
    show Writes m (.appendAnswer id a) (m.appendAnswer id a).1 (m.appendAnswer id a).2
    obtain ⟨old, new, hold, hnew, heq⟩ | ⟨e, heq⟩ := appendAnswer_cases m id a
    · rw [heq]
      exact .appended id a old new hold hnew
    · rw [heq]
      exact .refused _ _
  | deleteSessions => exact .deleted
  | _ => cases hw

section Writes

variable {r : Request} {reply : Except StorageError r.Reply}

theorem Writes.sound (hw : Writes m r reply m') (h : m.Sound) : m'.Sound := by
  cases hw with
  | inserted s => exact h.insertSession s
  | saved id s hid => exact h.replace hid
  | appended id a old new hold hnew =>
    apply h.replace
    obtain ⟨-, -, rfl⟩ := Session.record_eq_ok_iff.mp hnew
    exact h.named _ (mem_of_lookup? hold)
  | deleted => exact sound_of_nil rfl
  | refused => exact h
  | spared _ _ _ _ hs hl => exact h.of_sessions hs hl

theorem Writes.lookup?_eq (hw : Writes m r reply m') (hr : r.Spares [id])
    (hs : lookup? id m.sessions = some s) : lookup? id m'.sessions = some s := by
  have hne : ∀ {l : SessionId}, l ∉ [id] → id ≠ l :=
    fun hl heq => hl (List.mem_singleton.mpr heq.symm)
  cases hw with
  | inserted new => exact (lookup?_append_of_isSome (by rw [hs]; rfl) _).trans hs
  | saved l new hid => exact (lookup?_replace_of_ne (hne (hr l hid))).trans hs
  | appended l a old new => exact (lookup?_replace_of_ne (hne hr)).trans hs
  | deleted => cases hr
  | refused => exact hs
  | spared _ _ _ _ hsame => rw [hsame, hs]

theorem Writes.keys (hw : Writes m r reply m') (hi : r.kind ≠ .insertSession)
    (hd : r.kind ≠ .deleteSessions) : m'.sessions.map Prod.fst = m.sessions.map Prod.fst := by
  cases hw with
  | inserted | deleted => contradiction
  | saved | appended => exact map_fst_replace
  | refused => rfl
  | spared _ _ _ _ hs => rw [hs]

theorem Writes.lastNumber_le (hw : Writes m r reply m') : m.lastNumber ≤ m'.lastNumber := by
  cases hw with
  | inserted => exact Nat.le_succ m.lastNumber
  | saved | appended | deleted | refused => exact Nat.le_refl m.lastNumber
  | spared _ _ _ _ _ hl => exact hl

end Writes

theorem withId_eq_self {s : Session} (h : s.id = some id) : s.withId id = s := by
  cases s
  cases h
  rfl

instance : LawfulSessionTable Memory where
  sound_empty := sound_of_nil rfl
  numbers_empty := rfl
  sound_serve {m} r h := (writes_serve m r).sound h
  nodup_numbers h := h.nodup
  mem_numbers_iff {m id} h := by
    constructor
    · intro hmem
      obtain ⟨s, hs⟩ := Option.isSome_iff_exists.mp (lookup?_isSome_iff.mpr hmem)
      refine ⟨s, ?_⟩
      have hid : s.id = some id := h.named _ (mem_of_lookup? hs)
      show lookup? id m.sessions = some (s.withId id)
      rw [withId_eq_self hid, hs]
    · rintro ⟨s, hs⟩
      have hs : lookup? id m.sessions = some (s.withId id) := hs
      exact lookup?_isSome_iff.mp (by rw [hs]; rfl)
  holds_withId _ h := h
  holds_serve {m r _ _} _ hr hs := (writes_serve m r).lookup?_eq hr hs
  numbers_serve {m r} _ hi hd := (writes_serve m r).keys hi hd
  numbers_delete _ := rfl
  inserts {m} s h := by
    refine .stored ⟨m.lastNumber + 1⟩ _ h.new ?_ ?_
    · exact List.map_append
    · exact lookup?_append_new h.new
  saves {m id s} h hid := by
    show Saves m id s (m.saveSession s).1 (m.saveSession s).2
    obtain ⟨hmem, heq⟩ | ⟨hmem, heq⟩ := saveSession_cases (m := m) hid
    · rw [heq]
      refine .stored _ hmem ?_
      show lookup? id (Memory.replace id s m.sessions) = some (s.withId id)
      rw [withId_eq_self hid]
      exact lookup?_replace_self (lookup?_isSome_iff.mpr hmem)
    · rw [heq]
      exact .refused _ fun _ => hmem
  appends {m} id a h := by
    show Appends m id a (m.appendAnswer id a).1 (m.appendAnswer id a).2
    obtain ⟨old, new, hold, hnew, heq⟩ | ⟨e, heq⟩ := appendAnswer_cases m id a
    · rw [heq]
      have hsome : (lookup? id m.sessions).isSome := by rw [hold]; rfl
      refine .stored _ (lookup?_isSome_iff.mp hsome) fun s hs => ⟨new, ?_, ?_⟩
      · have hs : lookup? id m.sessions = some (s.withId id) := hs
        obtain ⟨-, -, rfl⟩ := Session.record_eq_ok_iff.mp hnew
        rw [hold] at hs
        cases hs
        rfl
      · show lookup? id (Memory.replace id new m.sessions) = some (new.withId id)
        have hid : new.id = some id := by
          obtain ⟨-, -, rfl⟩ := Session.record_eq_ok_iff.mp hnew
          exact h.named _ (mem_of_lookup? hold)
        rw [withId_eq_self hid]
        exact lookup?_replace_self hsome
    · rw [heq]
      exact .refused e
  get_of_holds {m id s} _ hs _ := by
    have hs : lookup? id m.sessions = some (s.withId id) := hs
    show (m.getSession id).1 = .ok (s.withId id)
    simp only [getSession, hs]
  saves_again {m id s} h hs hid := by
    have hs : lookup? id m.sessions = some (s.withId id) := hs
    rw [withId_eq_self hid] at hs
    have heq : Store.serve (.saveSession s) m = (.ok (), m) := by
      show m.saveSession s = (.ok (), m)
      simp only [saveSession, hid, hs]
      rw [replace_eq_self h.nodup hs]
    rw [heq]
    exact ⟨rfl, ⟨fun _ => rfl, fun _ => rfl⟩⟩

/-! Numbers are never given out twice. -/

/-- What becomes of a store: the numbers of its sessions are old ones or come after all that were
given out. -/
structure Grows (m m' : Memory) : Prop where
  sound : m'.Sound
  le : m.lastNumber ≤ m'.lastNumber
  fresh : ∀ id ∈ SessionTable.numbers m', id ∈ SessionTable.numbers m ∨ m.lastNumber < id.value

theorem Writes.grows {r : Request} {reply : Except StorageError r.Reply} (hw : Writes m r reply m')
    (h : m.Sound) : m.Grows m' := by
  refine ⟨hw.sound h, hw.lastNumber_le, fun id (hid : id ∈ m'.sessions.map Prod.fst) => ?_⟩
  show id ∈ m.sessions.map Prod.fst ∨ _
  cases hw with
  | inserted s =>
    rw [List.map_append, List.mem_append] at hid
    refine hid.imp_right fun hnew => ?_
    rw [List.mem_singleton.mp hnew]
    exact Nat.lt_succ_self m.lastNumber
  | saved | appended => exact Or.inl (by rwa [map_fst_replace] at hid)
  | deleted => cases hid
  | refused => exact Or.inl hid
  | spared _ _ _ _ hs => exact Or.inl (hs ▸ hid)

theorem grows_run {α : Type} (p : Program α) (h : m.Sound) : m.Grows (p.run m).2 := by
  refine Program.run_keeps (fun r m₁ h₁ => ?_) p ⟨h, Nat.le_refl _, fun _ hid => Or.inl hid⟩
  have hserve := (writes_serve m₁ r).grows h₁.sound
  refine ⟨hserve.sound, Nat.le_trans h₁.le hserve.le, fun id hid => ?_⟩
  rcases hserve.fresh id hid with hold | hlt
  · exact h₁.fresh id hold
  · exact Or.inr (Nat.lt_of_le_of_lt h₁.le hlt)

end MentalMath.Memory
