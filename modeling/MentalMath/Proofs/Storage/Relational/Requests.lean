import MentalMath.Proofs.Storage.Relational.Sessions
import MentalMath.Proofs.Storage.Sequence

/-! What the requests do to the sessions of a store made of tables. The requests that write sessions do
so in one of a few ways, the others leave all rows of sessions and answers as they are. -/

namespace MentalMath.Database

open Column SessionTable

variable {db db' : Database} {s s' : Session}

/-- Tables with the same sessions and the same answers. -/
def SameRows (db db' : Database) : Prop :=
  db'.sessions = db.sessions ∧ db'.answers = db.answers

theorem preserves_insertMistake (db : Database) (m : Mistake) :
    Preserves (SameRows db) (insertMistake m) := by
  refine preserves_get_bind fun db' h => preserves_bind (preserves_demand _) fun _ => ?_
  split
  · exact preserves_bind (preserves_throw _) fun _ =>
      preserves_bind (preserves_set h) fun _ => preserves_pure _
  · exact preserves_bind (preserves_set h) fun _ => preserves_pure _

theorem preserves_updateMistake (db : Database) (id : MistakeId) (m : Mistake) :
    Preserves (SameRows db) (updateMistake id m) := by
  refine preserves_bind (preserves_lift _) fun key => preserves_get_bind fun db' h => ?_
  split
  · exact preserves_throw _
  · exact preserves_bind (preserves_demand _) fun _ =>
      preserves_bind (preserves_set h) fun _ => preserves_pure _

theorem preserves_deleteMistake (db : Database) (id : MistakeId) :
    Preserves (SameRows db) (deleteMistake id) := by
  refine preserves_bind (preserves_lift _) fun key => preserves_get_bind fun db' h => ?_
  split
  · exact preserves_bind (preserves_throw _) fun _ => preserves_set h
  · exact preserves_set h

theorem preserves_deleteMistakes (db : Database) (f : MistakeFilter) :
    Preserves (SameRows db) (deleteMistakes f) := by
  refine preserves_get_bind fun db' h => ?_
  exact preserves_bind (preserves_set h) fun _ => preserves_pure _

theorem preserves_savePreferences (db : Database) (p : Preferences) :
    Preserves (SameRows db) (savePreferences p) := by
  refine preserves_get_bind fun db' h => preserves_bind (preserves_demand _) fun _ => ?_
  exact preserves_modify fun _ h => h

theorem serve_of_other {r : Request} (hr : r.kind.writesSessions = false) (db : Database) :
    SameRows db (Store.serve r db).2 := by
  have hself : SameRows db db := ⟨rfl, rfl⟩
  show SameRows db (serve r db).2
  cases r with
  | insertSession | saveSession | appendAnswer | deleteSessions => cases hr
  | putMistake m =>
    simp only [serve]
    split
    · exact (preserves_updateMistake db _ m).commit hself
    · exact (preserves_insertMistake db m).commit hself
  | deleteMistake id => exact (preserves_deleteMistake db id).commit hself
  | deleteMistakes f => exact (preserves_deleteMistakes db f).commit hself
  | savePreferences p => exact (preserves_savePreferences db p).commit hself
  | getSession | listSessions | findMistake | getMistake | listMistakes | getPreferences
  | clearPreferences => exact hself

/-! Requests that are granted. -/

theorem Sound.serve_insertSession (h : db.Sound) (hroom : db.sessions.length < Text.maxSigned64)
    (s : Session) : ∃ db', Store.serve (.insertSession s) db =
      (.ok ⟨db.sessions.length + 1⟩, db') ∧ Extends db s db' := by
  obtain ⟨db', hrun, hx⟩ | ⟨hfull, -⟩ := run_insertSession h s
  · have hid : toId "session_id" ((db.sessions.length : Int) + 1) = .ok (db.sessions.length + 1) := by
      simp only [toId]
      rw [if_pos (by omega)]
      rfl
    refine ⟨db', ?_, hx⟩
    show numbered "session_id" SessionId.mk (commit (insertSession s) db) = _
    rw [commit_of_ok hrun, numbered]
    simp only [Except.bind, hid]
    rfl
  · omega

theorem Sound.serve_saveSession {id : SessionId} (h : db.Sound) (hid : s.id = some id)
    (hthere : (db.sessionRow? id.value).isSome) :
    ∃ db', Store.serve (.saveSession s) db = (.ok (), db') ∧ Rewrites db id.value s db' := by
  obtain ⟨db', hrun, hx⟩ | ⟨hmissing, -⟩ := run_saveSession h hid
  · exact ⟨db', commit_of_ok hrun, hx⟩
  · contradiction

/-- An answer is added to a session whatever the session holds. -/
theorem Contains.serve_appendAnswer {id : SessionId} (hc : db.Contains id.value s) (h : db.Sound)
    (hlength : s.answers.length ≤ Text.maxSigned64) (a : Answer) :
    ∃ db', Store.serve (.appendAnswer id a) db = (.ok (), db') ∧
      Rewrites db id.value (s.appended a) db' := by
  obtain ⟨db', hrun, -, hx⟩ | ⟨hlarge, -⟩ := run_appendAnswer hc a
  · exact ⟨db', commit_of_ok hrun, hx⟩
  · have hid := hc.id_le h
    omega

/-! What can come of a request. -/

/-- What can come of a request: what it returns, and what it does to the tables. -/
inductive Writes (db : Database) : (r : Request) → Except StorageError r.Reply → Database → Prop
  | inserted (s : Session) (db' : Database) (hx : Extends db s db') :
    Writes db (.insertSession s) (.ok ⟨db.sessions.length + 1⟩) db'
  | saved (id : SessionId) (s : Session) (db' : Database) (hid : s.id = some id)
      (hx : Rewrites db id.value s db') : Writes db (.saveSession s) (.ok ()) db'
  | appended (id : SessionId) (a : Answer) (db' : Database) (hthere : (db.sessionRow? id.value).isSome)
      (hx : ∀ s, db.Contains id.value s →
        s.answers.length ≤ Text.maxSigned64 ∧ Rewrites db id.value (s.appended a) db') :
    Writes db (.appendAnswer id a) (.ok ()) db'
  | deleted (n : Nat) (db' : Database) (hs : db'.sessions = []) (ha : db'.answers = []) :
    Writes db .deleteSessions (.ok n) db'
  | refused (r : Request) (e : StorageError) : Writes db r (.error e) db
  | spared (r : Request) (reply : Except StorageError r.Reply) (db' : Database)
      (hw : r.kind.writesSessions = false) (hsame : SameRows db db') : Writes db r reply db'

theorem Sound.writes_insertSession (h : db.Sound) (s : Session) :
    Writes db (.insertSession s) (Store.serve (.insertSession s) db).1
      (Store.serve (.insertSession s) db).2 := by
  obtain ⟨_, _, hroom⟩ | ⟨-, hrun⟩ := run_insertSession h s
  · obtain ⟨db', hserve, hx⟩ := h.serve_insertSession hroom.room s
    rw [hserve]
    exact .inserted s db' hx
  · have hserve : Store.serve (.insertSession s) db =
        numbered "session_id" SessionId.mk (commit (insertSession s) db) := rfl
    rw [hserve, commit_of_error hrun]
    exact .refused _ _

theorem Sound.writes_saveSession (h : db.Sound) (s : Session) :
    Writes db (.saveSession s) (Store.serve (.saveSession s) db).1
      (Store.serve (.saveSession s) db).2 := by
  have hserve : Store.serve (.saveSession s) db = commit (saveSession s) db := rfl
  rw [hserve]
  cases hid : s.id with
  | none =>
    have hrun : (saveSession s).run db = .error .notFound := by simp only [saveSession, hid]; rfl
    rw [commit_of_error hrun]
    exact .refused _ _
  | some id =>
    obtain ⟨db', hrun, hx⟩ | ⟨-, e, hrun⟩ := run_saveSession h hid
    · rw [commit_of_ok hrun]
      exact .saved id s db' hid hx
    · rw [commit_of_error hrun]
      exact .refused _ _

theorem writes_appendAnswer (db : Database) (id : SessionId) (a : Answer) :
    Writes db (.appendAnswer id a) (Store.serve (.appendAnswer id a) db).1
      (Store.serve (.appendAnswer id a) db).2 := by
  have hserve : Store.serve (.appendAnswer id a) db = commit (appendAnswer id a) db := rfl
  rw [hserve]
  cases hrun : (appendAnswer id a).run db with
  | error e =>
    rw [commit_of_error hrun]
    exact .refused _ _
  | ok result =>
    rw [commit_of_ok hrun]
    refine .appended id a result.2 ?_ fun s hc => ?_
    · cases hr : db.sessionRow? id.value with
      | some r => rfl
      | none =>
        obtain ⟨e, hrun'⟩ := run_appendAnswer_of_none hr a
        rw [hrun] at hrun'
        cases hrun'
    · obtain ⟨db', hrun', hx⟩ | ⟨-, e, hrun'⟩ := run_appendAnswer hc a
      · rw [hrun] at hrun'
        cases hrun'
        exact hx
      · rw [hrun] at hrun'
        cases hrun'

theorem Sound.writes_deleteSessions (h : db.Sound) :
    Writes db .deleteSessions (Store.serve .deleteSessions db).1
      (Store.serve .deleteSessions db).2 := by
  refine .deleted _ _ rfl ?_
  show db.answers.filter (fun r => (db.sessionRow? r.sessionId).isNone) = []
  rw [List.filter_eq_nil_iff]
  intro r hr
  rw [Bool.not_eq_true, Option.isNone_eq_false_iff]
  exact h.owned r hr

theorem Sound.writes_serve (h : db.Sound) (r : Request) :
    Writes db r (Store.serve r db).1 (Store.serve r db).2 := by
  cases hw : r.kind.writesSessions with
  | false => exact .spared r _ _ hw (serve_of_other hw db)
  | true =>
  cases r with
  | insertSession s => exact h.writes_insertSession s
  | saveSession s => exact h.writes_saveSession s
  | appendAnswer id a => exact writes_appendAnswer db id a
  | deleteSessions => exact h.writes_deleteSessions
  | _ => cases hw

theorem value_ne {id l : SessionId} (h : id ≠ l) : (id.value : Int) ≠ l.value := by
  intro heq
  apply h
  cases id
  cases l
  exact congrArg SessionId.mk (Int.ofNat_inj.mp heq)

section Writes

variable {r : Request} {reply : Except StorageError r.Reply}

theorem Writes.sound (hw : Writes db r reply db') (h : db.Sound) : db'.Sound := by
  cases hw with
  | inserted s _ hx => exact hx.sound h
  | saved id s _ hid hx => exact hx.sound h
  | appended id a _ hthere hx =>
    obtain ⟨s, hc⟩ := h.exists_contains hthere
    exact (hx s hc).2.sound h
  | deleted _ _ hs ha => exact sound_of_nil hs ha
  | refused => exact h
  | spared _ _ _ _ hsame => exact h.congr hsame.1 hsame.2

theorem Writes.contains {id : SessionId} (hw : Writes db r reply db') (h : db.Sound)
    (hr : r.Spares [id]) (hc : db.Contains id.value s) : db'.Contains id.value s := by
  have hne : ∀ {l : SessionId}, l ∉ [id] → (id.value : Int) ≠ l.value :=
    fun hl => value_ne fun heq => hl (List.mem_singleton.mpr heq.symm)
  cases hw with
  | inserted s' _ hx => exact hx.contains_of_contains h hc
  | saved l s' _ hid hx => exact hx.contains_of_ne (hne (hr l hid)) hc
  | appended l a _ hthere hx =>
    obtain ⟨s', hc'⟩ := h.exists_contains hthere
    exact (hx s' hc').2.contains_of_ne (hne hr) hc
  | deleted => cases hr
  | refused => exact hc
  | spared _ _ _ _ hsame => exact hc.congr hsame.1 hsame.2

theorem Writes.ids (hw : Writes db r reply db') (h : db.Sound) (hi : r.kind ≠ .insertSession)
    (hd : r.kind ≠ .deleteSessions) :
    db'.sessions.map SessionRow.id = db.sessions.map SessionRow.id := by
  cases hw with
  | inserted => contradiction
  | saved id s _ hid hx => exact hx.ids
  | appended id a _ hthere hx =>
    obtain ⟨s, hc⟩ := h.exists_contains hthere
    exact (hx s hc).2.ids
  | deleted => contradiction
  | refused => rfl
  | spared _ _ _ _ hsame => rw [hsame.1]

end Writes

theorem numbers_eq (db : Database) :
    SessionTable.numbers db = (db.sessions.map SessionRow.id).map fun id => ⟨id.toNat⟩ := by
  rw [List.map_map]
  rfl

theorem Sound.mem_numbers_iff (h : db.Sound) (id : SessionId) :
    id ∈ SessionTable.numbers db ↔ (db.sessionRow? id.value).isSome := by
  rw [numbers_eq, sessionRow?_isSome_iff, List.mem_map]
  constructor
  · rintro ⟨key, hkey, rfl⟩
    have hpos := (h.mem_ids_iff.mp hkey).1
    rwa [Int.toNat_of_nonneg (by omega)]
  · intro hkey
    exact ⟨id.value, hkey, rfl⟩

/-- Writing a session again changes no reply if its row stays as it is and its answers are read as
before. -/
theorem Rewrites.sameReplies {id : SessionId} (hx : Rewrites db id.value s' db') (h : db.Sound)
    (hc : db.Contains id.value s)
    (hrow : SessionRow.ofSession id.value s' = SessionRow.ofSession id.value s)
    (hanswers : s'.regraded.cut.answers = s.regraded.cut.answers) : SameReplies db db' := by
  have hsessions : db'.sessions = db.sessions := by
    rw [hx.sessions, replaceRow]
    refine (List.map_congr_left fun r hr => ?_).trans (List.map_id' _)
    split
    case isTrue heq =>
      have hfound := h.sessionRow?_of_mem hr
      have hid : r.id = id.value := by simpa [SessionRow.ofSession] using heq
      rw [hid, hc.row] at hfound
      exact hrow.trans (Option.some.inj hfound)
    case isFalse => rfl
  have hread : ∀ r : SessionRow, db'.readSession r = db.readSession r := by
    intro r
    rw [readSession, readSession]
    by_cases heq : r.id = id.value
    · rw [heq, hx.contains.answersOf_eq, hc.answersOf_eq, hanswers]
    · rw [answersOf_congr (hx.others r.id heq)]
  constructor
  · intro l
    show db'.getSession l = db.getSession l
    simp only [getSession, sessionRow?, hsessions, hread]
  · intro q
    show db'.listSessions q = db.listSessions q
    simp only [listSessions, sessionRows, hsessions, hread]

instance : LawfulSessionTable Database where
  sound_empty := sound_of_nil rfl rfl
  numbers_empty := rfl
  sound_serve r h := (Sound.writes_serve h r).sound h
  nodup_numbers {db} h := by
    show (SessionTable.numbers db).Nodup
    rw [numbers_eq, Sound.numbers h, List.map_map]
    refine List.Pairwise.map _ ?_ List.nodup_range
    intro a b hab heq
    have hvalue : ((a : Int) + 1).toNat = ((b : Int) + 1).toNat := SessionId.mk.inj heq
    omega
  mem_numbers_iff {db id} h := by
    rw [Sound.mem_numbers_iff h]
    constructor
    · intro hid
      exact Sound.exists_contains h hid
    · rintro ⟨s, hc⟩
      have hc : db.Contains id.value s := hc
      rw [hc.row]
      rfl
  holds_withId _ hc := ⟨hc.row, hc.answers⟩
  holds_serve h hr hc := (Sound.writes_serve h _).contains h hr hc
  numbers_serve {db r} h hi hd := by
    rw [numbers_eq, numbers_eq, (Sound.writes_serve h r).ids h hi hd]
  numbers_delete _ := rfl
  inserts {db} s h := by
    have hw := Sound.writes_insertSession h s
    generalize (Store.serve (.insertSession s) db).1 = reply at hw ⊢
    generalize (Store.serve (.insertSession s) db).2 = db' at hw ⊢
    cases hw with
    | inserted _ _ hx =>
      refine .stored _ db' ?_ ?_ (hx.contains h)
      · rw [Sound.mem_numbers_iff h]
        exact Sound.not_mem_new h
      · rw [numbers_eq, numbers_eq, hx.sessions, List.map_append, List.map_append]
        rfl
    | refused _ e => exact .refused e
    | spared _ _ _ hw => cases hw
  saves {db id s} h hid := by
    have hserve : Store.serve (.saveSession s) db = commit (saveSession s) db := rfl
    rw [hserve]
    obtain ⟨db', hrun, hx⟩ | ⟨hmissing, e, hrun⟩ := run_saveSession h hid
    · rw [commit_of_ok hrun]
      exact .stored db' ((Sound.mem_numbers_iff h id).mpr hx.there) hx.contains
    · rw [commit_of_error hrun]
      exact .refused e fun _ hmem => hmissing ((Sound.mem_numbers_iff h id).mp hmem)
  appends {db} id a h := by
    have hw := writes_appendAnswer db id a
    generalize (Store.serve (.appendAnswer id a) db).1 = reply at hw ⊢
    generalize (Store.serve (.appendAnswer id a) db).2 = db' at hw ⊢
    cases hw with
    | appended _ _ _ hthere hx =>
      refine .stored db' ((Sound.mem_numbers_iff h id).mpr hthere) fun s hc => ?_
      exact ⟨s.appended a, rfl, (hx s hc).2.contains⟩
    | refused _ e => exact .refused e
    | spared _ _ _ hw => cases hw
  get_of_holds h hc hs := Contains.getSession_eq_ok hc h hs.valid hs.correct_le
  saves_again {db id s} h hc hid := by
    have hserve : Store.serve (.saveSession s) db = commit (saveSession s) db := rfl
    rw [hserve]
    have hc : db.Contains id.value s := hc
    obtain ⟨db', hrun, hx⟩ | ⟨hmissing, e, hrun⟩ := run_saveSession h hid
    · rw [commit_of_ok hrun]
      exact ⟨rfl, hx.sameReplies h hc rfl rfl⟩
    · rw [hc.row] at hmissing
      exact absurd rfl hmissing

/-! Requests one after the other. -/

theorem Sound.after (h : db.Sound) (rs : List Request) : (Store.after rs db).Sound := by
  have h : SessionTable.Sound db := h
  exact Store.sound_after rs h

theorem Contains.after {id : SessionId} {rs : List Request} (hc : db.Contains id.value s)
    (h : db.Sound) (hrs : ∀ r ∈ rs, r.Spares [id]) : (Store.after rs db).Contains id.value s := by
  have h : SessionTable.Sound db := h
  have hc : SessionTable.Holds db id s := hc
  exact Store.holds_after h hrs hc

theorem sound_after_empty (rs : List Request) : (Store.after rs empty).Sound :=
  Sound.after (sound_of_nil rfl rfl) rs

end MentalMath.Database
