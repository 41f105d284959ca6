import MentalMath.Proofs.Storage.Relational.Reading
import MentalMath.Proofs.Storage.Sessions

/-! The sessions of a store made of tables of rows. As long as rows are written by requests only, the
numbers of the sessions run from one on without a gap, every row of a session was made from one, and
the answers of a session are at the places from zero on. So a session that is written is found again,
and the number after the largest one is free. -/

namespace MentalMath.Database

open Column SessionTable

/-- What holds of the tables as long as they are written by requests only. -/
structure Sound (db : Database) : Prop where
  numbers : db.sessions.map SessionRow.id =
    (List.range db.sessions.length).map fun n : Nat => (n : Int) + 1
  few : db.sessions.length ≤ Text.maxSigned64
  stored : ∀ r ∈ db.sessions, ∃ s : Session, r = .ofSession r.id s ∧
    answersAt r.id db.answers = places r.id 0 s.answers
  owned : ∀ r ∈ db.answers, (db.sessionRow? r.sessionId).isSome

/-- The rows under a number are exactly those of a session. -/
structure Contains (db : Database) (key : Int) (s : Session) : Prop where
  row : db.sessionRow? key = some (.ofSession key s)
  answers : answersAt key db.answers = places key 0 s.answers

instance : SessionTable Database where
  empty := empty
  Sound := Sound
  numbers db := db.sessions.map fun r => ⟨r.id.toNat⟩
  Holds db id s := db.Contains id.value s
  shown := Session.cut

variable {db db' : Database} {key l : Int} {s s' : Session}

theorem sessionRow?_isSome_iff : (db.sessionRow? key).isSome ↔ key ∈ db.sessions.map SessionRow.id := by
  simp [sessionRow?]

theorem isSome_sessionRow?_congr (h : db'.sessions.map SessionRow.id = db.sessions.map SessionRow.id)
    (key : Int) : (db'.sessionRow? key).isSome ↔ (db.sessionRow? key).isSome := by
  rw [sessionRow?_isSome_iff, sessionRow?_isSome_iff, h]

theorem sound_of_nil (hs : db.sessions = []) (ha : db.answers = []) : db.Sound := by
  constructor <;> simp [hs, ha]

theorem Sound.congr (h : db.Sound) (hs : db'.sessions = db.sessions)
    (ha : db'.answers = db.answers) : db'.Sound := by
  refine ⟨hs ▸ h.numbers, hs ▸ h.few, by rw [hs, ha]; exact h.stored, ?_⟩
  rw [ha]
  simpa only [sessionRow?, hs] using h.owned

theorem Contains.congr (h : db.Contains key s) (hs : db'.sessions = db.sessions)
    (ha : db'.answers = db.answers) : db'.Contains key s := by
  refine ⟨?_, ha ▸ h.answers⟩
  simpa only [sessionRow?, hs] using h.row

theorem Sound.mem_ids_iff (h : db.Sound) :
    key ∈ db.sessions.map SessionRow.id ↔ 1 ≤ key ∧ key ≤ db.sessions.length := by
  rw [h.numbers, List.mem_map]
  constructor
  · rintro ⟨n, hn, rfl⟩
    have hlt := List.mem_range.mp hn
    omega
  · rintro ⟨hle, hge⟩
    exact ⟨(key - 1).toNat, List.mem_range.mpr (by omega), by omega⟩

theorem Sound.nodup_ids (h : db.Sound) : (db.sessions.map SessionRow.id).Nodup := by
  rw [h.numbers]
  refine List.Pairwise.map _ ?_ List.nodup_range
  intro a b hab heq
  omega

theorem Sound.sessionRow?_of_mem (h : db.Sound) {r : SessionRow} (hr : r ∈ db.sessions) :
    db.sessionRow? r.id = some r := by
  have hfind : ∀ rows : List SessionRow, (rows.map SessionRow.id).Nodup → r ∈ rows →
      rows.find? (fun old => old.id == r.id) = some r := by
    intro rows hn hr
    induction rows with
    | nil => cases hr
    | cons old rows ih =>
      rw [List.map_cons, List.nodup_cons] at hn
      cases List.mem_cons.mp hr with
      | inl hr =>
        subst hr
        simp
      | inr hr =>
        have hne : (old.id == r.id) = false := by
          apply beq_false_of_ne
          intro heq
          exact hn.1 (heq ▸ List.mem_map_of_mem hr)
        rw [List.find?_cons, hne]
        exact ih hn.2 hr
  exact hfind db.sessions h.nodup_ids hr

theorem Sound.exists_contains (h : db.Sound) (hk : (db.sessionRow? key).isSome) :
    ∃ s, db.Contains key s := by
  obtain ⟨r, hr⟩ := Option.isSome_iff_exists.mp hk
  obtain ⟨s, hrow, hanswers⟩ := h.stored r (List.mem_of_find?_eq_some hr)
  rw [sessionRow?_id hr] at hrow hanswers
  exact ⟨s, by rw [hr, hrow], hanswers⟩

theorem Sound.nextNumber (h : db.Sound) :
    Database.nextNumber (db.sessions.map SessionRow.id) = db.sessions.length + 1 := by
  cases hs : db.sessions with
  | nil => rfl
  | cons r rows =>
    have hlast : (db.sessions.length : Int) ∈ db.sessions.map SessionRow.id := by
      rw [h.mem_ids_iff, hs, List.length_cons]
      omega
    have hne : db.sessions.map SessionRow.id ≠ [] := by simp [hs]
    have hlt := lt_nextNumber hlast
    have hle := nextNumber_le (n := db.sessions.length + 1) hne fun id hid => by
      have hbound := (h.mem_ids_iff.mp hid).2
      omega
    rw [← hs]
    omega

/-! A new session. -/

/-- The tables after a session was added. -/
structure Extends (db : Database) (s : Session) (db' : Database) : Prop where
  room : db.sessions.length < Text.maxSigned64
  sessions : db'.sessions = db.sessions ++ [.ofSession (db.sessions.length + 1) s]
  answers : ∃ rows, db'.answers = db.answers ++ rows ∧
    rows.map unnumbered = places (db.sessions.length + 1) 0 s.answers

theorem Sound.not_mem_new (h : db.Sound) : ¬(db.sessionRow? (db.sessions.length + 1)).isSome := by
  rw [sessionRow?_isSome_iff, h.mem_ids_iff]
  omega

theorem Extends.contains (hx : Extends db s db') (h : db.Sound) :
    db'.Contains (db.sessions.length + 1) s := by
  obtain ⟨rows, hrows, hplaces⟩ := hx.answers
  constructor
  · rw [sessionRow?, hx.sessions, List.find?_append]
    have hnone := h.not_mem_new
    rw [Option.not_isSome_iff_eq_none, sessionRow?] at hnone
    rw [hnone]
    simp [SessionRow.ofSession]
  · rw [hrows, answersAt_append, answersAt_eq_nil, List.nil_append,
      answersAt_of_forall (sessionId_of_map_unnumbered hplaces), hplaces]
    intro r hr heq
    exact h.not_mem_new (heq ▸ h.owned r hr)

theorem Extends.contains_of_contains (hx : Extends db s db') (h : db.Sound)
    (hc : db.Contains key s') : db'.Contains key s' := by
  obtain ⟨rows, hrows, hplaces⟩ := hx.answers
  have hrow := hc.row
  rw [sessionRow?] at hrow
  constructor
  · rw [sessionRow?, hx.sessions, List.find?_append, hrow]
    rfl
  · rw [hrows, answersAt_append, hc.answers, answersAt_eq_nil, List.append_nil]
    intro r hr heq
    have hkey := sessionId_of_map_unnumbered hplaces r hr
    apply h.not_mem_new
    rw [← hkey, heq, hc.row]
    rfl

theorem Extends.sound (hx : Extends db s db') (h : db.Sound) : db'.Sound := by
  have hnew := hx.contains h
  obtain ⟨rows, hrows, hplaces⟩ := hx.answers
  refine ⟨?_, ?_, ?_, ?_⟩
  · rw [hx.sessions, List.map_append, h.numbers, List.length_append, List.length_singleton,
      List.range_succ, List.map_append]
    rfl
  · rw [hx.sessions, List.length_append, List.length_singleton]
    exact hx.room
  · intro r hr
    rw [hx.sessions] at hr
    cases List.mem_append.mp hr with
    | inl hr =>
      obtain ⟨s₀, hrow, hanswers⟩ := h.stored r hr
      have hc : db.Contains r.id s₀ := ⟨by rw [h.sessionRow?_of_mem hr, ← hrow], hanswers⟩
      exact ⟨s₀, hrow, (hx.contains_of_contains h hc).answers⟩
    | inr hr =>
      rw [List.mem_singleton.mp hr]
      exact ⟨s, rfl, hnew.answers⟩
  · intro r hr
    rw [sessionRow?_isSome_iff, hx.sessions, List.map_append, List.mem_append,
      ← sessionRow?_isSome_iff]
    rw [hrows] at hr
    cases List.mem_append.mp hr with
    | inl hr => exact Or.inl (h.owned r hr)
    | inr hr => exact Or.inr (by simp [sessionId_of_map_unnumbered hplaces r hr, SessionRow.ofSession])

/-- A session is added as long as there is a number for it. -/
theorem run_insertSession (h : db.Sound) (s : Session) :
    (∃ db', (insertSession s).run db = .ok (db.sessions.length + 1, db') ∧ Extends db s db') ∨
      Text.maxSigned64 ≤ db.sessions.length ∧
        (insertSession s).run db = .error (.connection .numberTooLarge) := by
  simp only [insertSession, StateT.run_bind, StateT.run_get, pure_bind, h.nextNumber]
  by_cases hlarge : (Text.maxSigned64 : Int) < db.sessions.length + 1
  · right
    rw [if_pos hlarge]
    exact ⟨by omega, rfl⟩
  · left
    rw [if_neg hlarge]
    let row : SessionRow := .ofSession (db.sessions.length + 1) s
    let next : Database := { db with sessions := db.sessions ++ [row] }
    have hrow : (insertSessionRow row).run db = .ok ((), next) :=
      run_insertSessionRow (SessionRow.isAdmissible_ofSession _ _)
    have hthere : (next.sessionRow? (db.sessions.length + 1)).isSome := by
      simp [sessionRow?_isSome_iff, next, row, SessionRow.ofSession]
    -- no answer is left of an earlier session under the new number, since answers have an owner
    have hfree : ∀ r ∈ next.answers, r.sessionId = db.sessions.length + 1 → r.position < 0 := by
      intro r hr heq
      exact absurd (heq ▸ h.owned r hr) h.not_mem_new
    obtain ⟨rows, hplaces, hrows⟩ := run_insertAnswers hthere (Int.le_refl 0) hfree s.answers
    rw [run_bind_of_ok hrow, run_bind_of_ok hrows]
    exact ⟨_, rfl, by omega, rfl, rows, rfl, hplaces⟩

/-! A session that is written again. -/

/-- The tables after the session under a number was written again. -/
structure Rewrites (db : Database) (key : Int) (s : Session) (db' : Database) : Prop where
  there : (db.sessionRow? key).isSome
  sessions : db'.sessions = replaceRow (.ofSession key s) db.sessions
  answers : answersAt key db'.answers = places key 0 s.answers
  others : ∀ l, l ≠ key → answersAt l db'.answers = answersAt l db.answers
  owned : ∀ r ∈ db'.answers, r.sessionId = key ∨ r ∈ db.answers

theorem Rewrites.ids (hx : Rewrites db key s db') :
    db'.sessions.map SessionRow.id = db.sessions.map SessionRow.id := by
  rw [hx.sessions, map_id_replaceRow]

theorem Rewrites.contains (hx : Rewrites db key s db') : db'.Contains key s := by
  obtain ⟨r, hr⟩ := Option.isSome_iff_exists.mp hx.there
  have hid := sessionRow?_id hr
  refine ⟨?_, hx.answers⟩
  rw [sessionRow?] at hr ⊢
  rw [hx.sessions, find?_replaceRow, hr]
  simp [SessionRow.ofSession, hid]

theorem Rewrites.contains_of_ne (hx : Rewrites db key s db') (hl : l ≠ key)
    (hc : db.Contains l s') : db'.Contains l s' := by
  refine ⟨?_, by rw [hx.others l hl, hc.answers]⟩
  have hrow := hc.row
  rw [sessionRow?] at hrow ⊢
  rw [hx.sessions, find?_replaceRow, hrow]
  simp [SessionRow.ofSession, hl]

theorem Rewrites.sound (hx : Rewrites db key s db') (h : db.Sound) : db'.Sound := by
  have hlength : db'.sessions.length = db.sessions.length := by
    simpa using congrArg List.length hx.ids
  refine ⟨?_, by rw [hlength]; exact h.few, ?_, ?_⟩
  · rw [hx.ids, hlength, h.numbers]
  · intro r hr
    rw [hx.sessions, replaceRow, List.mem_map] at hr
    obtain ⟨old, hold, rfl⟩ := hr
    split
    · exact ⟨s, rfl, hx.answers⟩
    case isFalse hne =>
      obtain ⟨s₀, hrow, hanswers⟩ := h.stored old hold
      refine ⟨s₀, hrow, ?_⟩
      rw [hx.others old.id fun heq => hne (by simp [heq, SessionRow.ofSession]), hanswers]
  · intro r hr
    rw [isSome_sessionRow?_congr hx.ids]
    cases hx.owned r hr with
    | inl hkey =>
      rw [hkey]
      exact hx.there
    | inr hold => exact h.owned r hold

/-- Saving succeeds exactly under a number that is in use. -/
theorem run_saveSession (h : db.Sound) {id : SessionId} (hid : s.id = some id) :
    (∃ db', (saveSession s).run db = .ok ((), db') ∧ Rewrites db id.value s db') ∨
      ¬(db.sessionRow? id.value).isSome ∧ ∃ e, (saveSession s).run db = .error e := by
  have hfew := h.few
  simp only [saveSession, hid]
  by_cases hlarge : id.value ≤ Text.maxSigned64
  · rw [run_bind_of_ok (run_ofId _ hlarge)]
    cases hr : db.sessionRow? id.value with
    | none =>
      right
      refine ⟨Bool.false_ne_true, .notFound, ?_⟩
      exact run_bind_of_error (run_updateSessionRow_of_none hr)
    | some r =>
      left
      have hthere : (db.sessionRow? id.value).isSome := by rw [hr]; rfl
      let next : Database := { db with
        sessions := replaceRow (.ofSession id.value s) db.sessions
        answers := db.answers.filter fun r => !(r.sessionId == id.value) }
      have hnext : (next.sessionRow? id.value).isSome :=
        (isSome_sessionRow?_congr (map_id_replaceRow _ _) _).mpr hthere
      have hgone : ∀ r ∈ next.answers, r.sessionId ≠ id.value := by
        intro r hr
        simpa using (List.mem_filter.mp hr).2
      obtain ⟨rows, hplaces, hrows⟩ := run_insertAnswers hnext (Int.le_refl 0)
        (fun r hr heq => absurd heq (hgone r hr)) s.answers
      have hmine := sessionId_of_map_unnumbered hplaces
      rw [run_bind_of_ok (run_updateSessionRow hthere (SessionRow.isAdmissible_ofSession _ _))]
      refine ⟨_, hrows, hthere, rfl, ?_, ?_, ?_⟩
      · rw [answersAt_append, answersAt_eq_nil hgone, List.nil_append, answersAt_of_forall hmine,
          hplaces]
      · intro l hl
        have hnil : answersAt l rows = [] := by
          apply answersAt_eq_nil
          intro r hr heq
          exact hl (heq ▸ hmine r hr)
        rw [answersAt_append, answersAt_filter_of_ne hl, hnil, List.append_nil]
      · intro r hr
        cases List.mem_append.mp hr with
        | inl hr => exact Or.inr (List.mem_filter.mp hr).1
        | inr hr => exact Or.inl (hmine r hr)
  · right
    refine ⟨?_, _, run_bind_of_error (run_ofId_of_large _ hlarge)⟩
    rw [sessionRow?_isSome_iff, h.mem_ids_iff]
    omega

/-- The rows that a query for the answers of a session returns are sorted by their places. -/
theorem map_unnumbered_answerRows (db : Database) (key : Int) :
    (db.answerRows key).map unnumbered =
      (answersAt key db.answers).mergeSort fun a b => a.position ≤ b.position := by
  rw [answerRows, answersAt]
  exact List.map_mergeSort fun a _ b _ => rfl

theorem Contains.map_unnumbered_answerRows (hc : db.Contains key s) :
    (db.answerRows key).map unnumbered = places key 0 s.answers := by
  have hsorted : (places key 0 s.answers).Pairwise fun a b => (a.position ≤ b.position : Bool) = true :=
    (pairwise_places key 0 s.answers).imp fun hab => decide_eq_true hab
  rw [Database.map_unnumbered_answerRows, hc.answers, List.mergeSort_of_pairwise hsorted]

theorem Contains.map_position_answerRows (hc : db.Contains key s) :
    (db.answerRows key).map AnswerRow.position = (places key 0 s.answers).map AnswerRow.position := by
  rw [← hc.map_unnumbered_answerRows, List.map_map]
  rfl

theorem Contains.mem_positions_iff (hc : db.Contains key s) {n : Int} :
    n ∈ (db.answerRows key).map AnswerRow.position ↔ 0 ≤ n ∧ n < s.answers.length := by
  rw [hc.map_position_answerRows, position_mem_places_iff]
  omega

/-- The place after the last answer of a session is the number of its answers. -/
theorem Contains.nextPosition (hc : db.Contains key s) :
    nextPosition (db.answerRows key) = s.answers.length := by
  have hmem := @hc.mem_positions_iff
  cases hr : db.answerRows key with
  | nil =>
    have hnone : ¬((0 : Int) ≤ 0 ∧ (0 : Int) < s.answers.length) := by
      rw [← hmem, hr]
      exact List.not_mem_nil
    simp only [Database.nextPosition]
    omega
  | cons r rows =>
    rw [hr] at hmem
    have hfirst := hmem.mp (List.mem_map_of_mem List.mem_cons_self)
    have hlast : (s.answers.length : Int) - 1 ∈ (r :: rows).map AnswerRow.position :=
      hmem.mpr (by omega)
    have hlt := lt_nextNumber hlast
    have hle := nextNumber_le (List.ne_nil_of_mem hlast) fun n hn => (hmem.mp hn).2
    rw [Database.nextPosition]
    · omega
    · exact fun h => nomatch h

/-- An answer is added at the place after the last one, or the tables stay as they are. -/
theorem run_appendAnswer {id : SessionId} (hc : db.Contains id.value s) (a : Answer) :
    (∃ db', (appendAnswer id a).run db = .ok ((), db') ∧ s.answers.length ≤ Text.maxSigned64 ∧
        Rewrites db id.value (s.appended a) db') ∨
      (Text.maxSigned64 < id.value ∨ Text.maxSigned64 < s.answers.length) ∧
        ∃ e, (appendAnswer id a).run db = .error e := by
  simp only [appendAnswer]
  by_cases hlarge : id.value ≤ Text.maxSigned64
  · let next : Database := { db with
      sessions := replaceRow (.ofSession id.value (s.appended a)) db.sessions }
    have hcount : (countAnswer id.value a).run db = .ok ((), next) := run_countAnswer hc.row a
    have hget : (get : Transaction Database).run next = .ok (next, next) := rfl
    have hposition : nextPosition (next.answerRows id.value) = s.answers.length := hc.nextPosition
    rw [run_bind_of_ok (run_ofId _ hlarge), run_bind_of_ok hcount, run_bind_of_ok hget, hposition]
    by_cases hfull : (Text.maxSigned64 : Int) < s.answers.length
    · right
      exact ⟨Or.inr (by omega), .connection .numberTooLarge, by rw [if_pos hfull]; rfl⟩
    · left
      rw [if_neg hfull]
      have hthere : (db.sessionRow? id.value).isSome := by rw [hc.row]; rfl
      have hnext : (next.sessionRow? id.value).isSome :=
        (isSome_sessionRow?_congr (map_id_replaceRow _ _) _).mpr hthere
      -- the places that are taken are those below the number of answers
      have hfree : ∀ r ∈ next.answers, r.sessionId = id.value → r.position ≠ s.answers.length := by
        intro r hr hk heq
        have hmem : r.position ∈ (db.answerRows id.value).map AnswerRow.position := by
          apply List.mem_map_of_mem
          simp only [answerRows, List.mem_mergeSort, List.mem_filter, hk, beq_self_eq_true, and_true]
          exact hr
        have hbound := (hc.mem_positions_iff.mp hmem).2
        omega
      obtain ⟨n, hn⟩ := run_insertAnswer hnext (Int.natCast_nonneg _) hfree a
      refine ⟨_, hn, by omega, hthere, rfl, ?_, ?_, ?_⟩
      · rw [Session.appended, answersAt_append, places_append, ← hc.answers]
        simp [answersAt, places, unnumbered, AnswerRow.ofAnswer, next]
      · intro l hl
        rw [answersAt_append]
        simp [answersAt, AnswerRow.ofAnswer, next, Ne.symm hl]
      · intro r hr
        cases List.mem_append.mp hr with
        | inl hr => exact Or.inr hr
        | inr hr => exact Or.inl (by rw [List.mem_singleton.mp hr]; rfl)
  · right
    exact ⟨Or.inl (Nat.lt_of_not_le hlarge), _, run_bind_of_error (run_ofId_of_large _ hlarge)⟩

theorem run_appendAnswer_of_none {id : SessionId} (hr : db.sessionRow? id.value = none)
    (a : Answer) : ∃ e, (appendAnswer id a).run db = .error e := by
  simp only [appendAnswer]
  by_cases hlarge : id.value ≤ Text.maxSigned64
  · rw [run_bind_of_ok (run_ofId _ hlarge)]
    exact ⟨.notFound, run_bind_of_error (run_countAnswer_of_none hr a)⟩
  · exact ⟨_, run_bind_of_error (run_ofId_of_large _ hlarge)⟩

/-! Reading a session. -/

/-- The answers of a session are read from what is at its places. -/
theorem answersOf_eq (db : Database) (key : Int) :
    db.answersOf key = ((db.answerRows key).map unnumbered).mapM AnswerRow.read := by
  rw [answersOf, List.mapM_map]
  rfl

theorem answersOf_congr (ha : answersAt key db'.answers = answersAt key db.answers) :
    db'.answersOf key = db.answersOf key := by
  rw [answersOf_eq, answersOf_eq, map_unnumbered_answerRows, map_unnumbered_answerRows, ha]

theorem Contains.answersOf_eq (hc : db.Contains key s) :
    db.answersOf key = .ok s.regraded.cut.answers := by
  rw [Database.answersOf_eq, hc.map_unnumbered_answerRows, mapM_read_places]
  rfl

theorem Contains.id_le {id : SessionId} (hc : db.Contains id.value s) (hdb : db.Sound) :
    id.value ≤ Text.maxSigned64 := by
  have hfew := hdb.few
  have hmem : (id.value : Int) ∈ db.sessions.map SessionRow.id := by
    rw [← sessionRow?_isSome_iff, hc.row]
    rfl
  have hbound := (hdb.mem_ids_iff.mp hmem).2
  omega

theorem Contains.readSession_eq {id : SessionId} (hc : db.Contains id.value s) :
    db.readSession (.ofSession id.value s) =
      (SessionRow.ofSession id.value s).read s.regraded.cut.answers := by
  rw [readSession, show (SessionRow.ofSession id.value s).id = (id.value : Int) from rfl,
    hc.answersOf_eq]
  rfl

theorem Contains.getSession_eq {id : SessionId} (hc : db.Contains id.value s) (hdb : db.Sound) :
    db.getSession id = db.readSession (.ofSession id.value s) := by
  simp only [getSession, ofId_eq_ok (hc.id_le hdb), hc.row, bind, Except.bind]

/-- A session is returned exactly if it is readable: graded again, and with its spans cut. -/
theorem Contains.getSession_eq_ok_iff {id : SessionId} {t : Session} (hc : db.Contains id.value s)
    (hdb : db.Sound) :
    db.getSession id = .ok t ↔ s.Readable ∧ t = s.regraded.cut.withId id := by
  rw [hc.getSession_eq hdb, hc.readSession_eq, SessionRow.read_ofSession_iff]

/-- A session is returned as it was stored, with its spans cut, as long as its right answers can be
counted. -/
theorem Contains.getSession_eq_ok {id : SessionId} (hc : db.Contains id.value s) (hdb : db.Sound)
    (h : s.Valid) (hcorrect : s.correct ≤ maxCount) :
    db.getSession id = .ok (s.cut.withId id) := by
  rw [hc.getSession_eq_ok_iff hdb, h.regraded_eq]
  exact ⟨h.readable hcorrect, rfl⟩

end MentalMath.Database
