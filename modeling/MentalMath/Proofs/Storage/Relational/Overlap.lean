import Mathlib.Data.List.Nodup
import MentalMath.Proofs.Storage.Relational.RoundTrip
import MentalMath.Proofs.Storage.Relational.Submission

/-! Reads of sessions while requests of others are carried out. A session is read by two queries, one
for its row and one for its answers, and a list by one for all rows and one for the answers of each.
Each query sees the tables as they are when it is its turn, so whole requests can come in between. What
is then returned has the header of one state and the answers of another, if that is not refused for a
number of right answers that is not theirs. -/

namespace MentalMath.Database

open Column SessionTable

variable {db db' : Database} {id : SessionId} {s t u : Session} {ws : List Request}

/-- The session under a number: its row from the tables before some requests, its answers from those
after them. -/
def getSessionAcross (id : SessionId) (before after : Database) : Except StorageError Session := do
  let key ← ofId "session_id" id.value
  match before.sessionRow? key with
  | some r => after.readSession r
  | none => throw .notFound

/-- The sessions of a query: all rows from the same tables, and the answers of the sessions from those
at the time of each. -/
def listSessionsAcross (q : SessionQuery) (before : Database) (later : Nat → Database) :
    Except StorageError (List Session) :=
  (before.sessionRows q).zipIdx.mapM fun (r, i) => (later i).readSession r

/-- The session under a number is in a state before, between or after requests. -/
def Passes (db : Database) (ws : List Request) (id : SessionId) (u : Session) : Prop :=
  ∃ n ≤ ws.length, (Store.serve (.getSession id) (Store.after (ws.take n) db)).1 = .ok u

theorem getSessionAcross_self (id : SessionId) (db : Database) :
    getSessionAcross id db db = db.getSession id := rfl

theorem listSessionsAcross_self (q : SessionQuery) (db : Database) :
    listSessionsAcross q db (fun _ => db) = db.listSessions q := by
  have hrows : (db.sessionRows q).zipIdx.map Prod.fst = db.sessionRows q := List.zipIdx_map_fst _ _
  rw [listSessions, ← hrows, List.mapM_map]
  rfl

/-! ### One session -/

theorem Contains.getSessionAcross_eq (hc : db.Contains id.value s) (hdb : db.Sound)
    (ht : db'.Contains id.value t) :
    getSessionAcross id db db' =
      (SessionRow.ofSession id.value s).read t.regraded.cut.answers := by
  simp only [getSessionAcross, ofId_eq_ok (hc.id_le hdb), hc.row, bind, Except.bind]
  rw [readSession, show (SessionRow.ofSession id.value s).id = (id.value : Int) from rfl,
    ht.answersOf_eq]
  rfl

/-- Both returned sessions count their own answers, so that of one state with the answers of the other
is refused unless the numbers of right answers happen to be the same. -/
theorem getSessionAcross_of_get (hdb : db.Sound) (hdb' : db'.Sound)
    (hs : db.getSession id = .ok s) (ht : db'.getSession id = .ok t) :
    getSessionAcross id db db' = if s.correct = t.correct then .ok { s with answers := t.answers }
      else .error (.serialization (.session (.countMismatch s.correct t.correct))) := by
  obtain ⟨s₀, hc, hreadable, rfl⟩ := hdb.contains_of_get hs
  obtain ⟨t₀, hc', hreadable', rfl⟩ := hdb'.contains_of_get ht
  -- the check compares the count of one row with the answers of another, which count for themselves
  have hcount : Session.countCorrect t₀.regraded.cut.answers = t₀.correct :=
    (Session.countCorrect_map_cut _).trans hreadable'.valid.counted.symm
  have hordered : ∀ ended, s₀.endedAt = some ended → ¬ended < s₀.startedAt :=
    hreadable.valid.ordered
  have hfew : s₀.total ≤ maxCount := hreadable.valid.few
  rw [hc.getSessionAcross_eq hdb hc', SessionRow.read_ofSession_eq hfew hreadable.countable,
    Session.restore_of_ordered hordered (hcount ▸ hreadable'.countable), hcount]
  show _ = if s₀.correct = t₀.correct then _ else _
  by_cases heq : s₀.correct = t₀.correct
  · rw [if_pos heq.symm, if_pos heq]
    rfl
  · rw [if_neg (Ne.symm heq), if_neg heq]
    rfl

theorem countCorrect_of_get (hdb : db.Sound) (hs : db.getSession id = .ok s) :
    Session.countCorrect s.answers = s.correct := by
  obtain ⟨s₀, -, hreadable, rfl⟩ := hdb.contains_of_get hs
  exact (Session.countCorrect_map_cut _).trans hreadable.valid.counted.symm

/-- What is read is a whole state exactly if one state on the way has the header of the first and the
answers of the last. -/
theorem whole_iff_passes (hdb : db.Sound) (hs : db.getSession id = .ok s)
    (ht : (Store.after ws db).getSession id = .ok t) :
    (∃ u, getSessionAcross id db (Store.after ws db) = .ok u ∧ db.Passes ws id u) ↔
      db.Passes ws id { s with answers := t.answers } := by
  have hdb' : (Store.after ws db).Sound := hdb.after ws
  have hread := getSessionAcross_of_get hdb hdb' hs ht
  constructor
  · rintro ⟨u, hu, hpasses⟩
    rw [hread] at hu
    split at hu
    · exact Except.ok.inj hu ▸ hpasses
    · cases hu
  · rintro ⟨n, hn, hget⟩
    have hsound : (Store.after (ws.take n) db).Sound := hdb.after _
    have hcorrect : s.correct = t.correct :=
      (countCorrect_of_get hsound hget).symm.trans (countCorrect_of_get hdb' ht)
    exact ⟨_, hread.trans (if_pos hcorrect), n, hn, hget⟩

theorem getSessionAcross_of_spares (hdb : db.Sound) (hws : ∀ r ∈ ws, r.Spares [id]) :
    getSessionAcross id db (Store.after ws db) = db.getSession id := by
  by_cases hthere : (db.sessionRow? id.value).isSome
  · obtain ⟨s, hc⟩ := hdb.exists_contains hthere
    have hc' : (Store.after ws db).Contains id.value s := hc.after hdb hws
    rw [hc.getSessionAcross_eq hdb hc', hc.getSession_eq hdb, hc.readSession_eq]
  · rw [Option.not_isSome_iff_eq_none] at hthere
    simp only [getSessionAcross, getSession]
    cases hkey : ofId "session_id" id.value with
    | error e => rfl
    | ok key =>
      cases eq_of_ofId hkey
      simp only [bind, Except.bind, hthere]

/-! ### Answers that are added in between -/

/-- Requests leave a session alone or add answers to it. -/
def Grows (id : SessionId) (ws : List Request) : Prop :=
  ∀ r ∈ ws, r.Spares [id] ∨ ∃ a, r = .appendAnswer id a

/-- The tables contain a session as it was, apart from answers that were added. -/
structure Grown (db : Database) (id : SessionId) (s : Session) (as : List Answer) (t : Session) :
    Prop where
  contains : db.Contains id.value t
  answers : t.answers = s.answers ++ as
  header : t = { s with answers := t.answers, correct := t.correct }

theorem Grown.appended {a : Answer} {as : List Answer} (hg : db.Grown id s as t)
    (hx : Rewrites db id.value (t.appended a) db') : db'.Grown id s (as ++ [a]) (t.appended a) := by
  refine ⟨hx.contains, ?_, ?_⟩
  · show t.answers ++ [a] = s.answers ++ (as ++ [a])
    rw [hg.answers, List.append_assoc]
  · have hheader := hg.header
    rw [Session.appended, hheader]

theorem Writes.grown {r : Request} {reply : Except StorageError r.Reply} {as : List Answer}
    (hw : Writes db r reply db') (h : db.Sound) (hr : r.Spares [id] ∨ ∃ a, r = .appendAnswer id a)
    (hg : db.Grown id s as t) :
    db'.Grown id s as t ∨ ∃ a, r = .appendAnswer id a ∧ db'.Grown id s (as ++ [a]) (t.appended a) := by
  rcases hr with hr | ⟨a, rfl⟩
  · exact Or.inl ⟨hw.contains h hr hg.contains, hg.answers, hg.header⟩
  · cases hw with
    | appended _ _ _ _ hx => exact Or.inr ⟨a, rfl, hg.appended (hx t hg.contains).2⟩
    | refused => exact Or.inl hg
    | spared _ _ _ hw => cases hw

theorem grown_after (hdb : db.Sound) (hws : Grows id ws) (hc : db.Contains id.value s) :
    ∃ as t, (Store.after ws db).Grown id s as t ∧ ∀ a ∈ as, .appendAnswer id a ∈ ws := by
  -- the invariant keeps each added answer with the request that it came from
  have hkept : (Store.after ws db).Sound ∧ ∃ as t, (Store.after ws db).Grown id s as t ∧
      ∀ a ∈ as, .appendAnswer id a ∈ ws := by
    refine Store.after_keeps (P := fun db : Database => db.Sound ∧ ∃ as t, db.Grown id s as t ∧
      ∀ a ∈ as, .appendAnswer id a ∈ ws) ?step ⟨hdb, [], s, ?start, fun _ ha => nomatch ha⟩
    case start => exact ⟨hc, (List.append_nil _).symm, rfl⟩
    case step =>
      rintro r hr db ⟨hdb, as, t, hg, has⟩
      have hw := hdb.writes_serve r
      refine ⟨hw.sound hdb, ?_⟩
      rcases hw.grown hdb (hws r hr) hg with hg | ⟨a, rfl, hg⟩
      · exact ⟨as, t, hg, has⟩
      · refine ⟨as ++ [a], _, hg, fun b hb => ?_⟩
        rcases List.mem_append.mp hb with hb | hb
        · exact has b hb
        · exact List.mem_singleton.mp hb ▸ hr
  exact hkept.2

/-- What is returned has the answers that were added, graded again and cut, and counts them. -/
theorem get_of_grows (hdb : db.Sound) (hws : Grows id ws) (hs : db.getSession id = .ok s)
    (ht : (Store.after ws db).getSession id = .ok t) :
    ∃ as, t = { s with
        answers := s.answers ++ as
        correct := s.correct + Session.countCorrect as } ∧
      ∀ a ∈ as, ∃ b, .appendAnswer id b ∈ ws ∧ a = b.regraded.cut := by
  have hdb' := hdb.after ws
  have hcounted := countCorrect_of_get hdb hs
  have hcounted' := countCorrect_of_get hdb' ht
  obtain ⟨s₀, hc, -, rfl⟩ := hdb.contains_of_get hs
  obtain ⟨bs, t₀, hg, hbs⟩ := grown_after hdb hws hc
  rw [hg.contains.getSession_eq_ok_iff hdb'] at ht
  obtain ⟨-, rfl⟩ := ht
  refine ⟨(bs.map Answer.regraded).map Answer.cut, ?_, fun a ha => ?_⟩
  · have hanswers : t₀.regraded.cut.answers =
        s₀.regraded.cut.answers ++ (bs.map Answer.regraded).map Answer.cut := by
      simp only [Session.regraded, Session.cut, hg.answers, List.map_append]
    have hcorrect : t₀.correct = s₀.correct +
        Session.countCorrect ((bs.map Answer.regraded).map Answer.cut) := by
      have hsum : Session.countCorrect t₀.regraded.cut.answers = t₀.correct := hcounted'
      have hfirst : Session.countCorrect s₀.regraded.cut.answers = s₀.correct := hcounted
      rw [← hsum, hanswers, Session.countCorrect_append, hfirst]
    show _ = ({ s₀.regraded.cut.withId id with
      answers := s₀.regraded.cut.answers ++ _, correct := s₀.correct + _ } : Session)
    rw [← hanswers, ← hcorrect, hg.header]
    rfl
  · obtain ⟨c, hc, rfl⟩ := List.mem_map.mp ha
    obtain ⟨b, hb, rfl⟩ := List.mem_map.mp hc
    exact ⟨b, hbs b hb, rfl⟩

/-- A reader that only answers come in the way of returns the last state, unless one of them is right;
then it is refused. -/
theorem getSessionAcross_of_grows (hdb : db.Sound) (hws : Grows id ws)
    (hs : db.getSession id = .ok s) (ht : (Store.after ws db).getSession id = .ok t) :
    getSessionAcross id db (Store.after ws db) = if s.correct = t.correct then .ok t
      else .error (.serialization (.session (.countMismatch s.correct t.correct))) := by
  rw [getSessionAcross_of_get hdb (hdb.after ws) hs ht]
  obtain ⟨as, rfl, -⟩ := get_of_grows hdb hws hs ht
  split
  case isTrue heq =>
    have hsum : s.correct = s.correct + Session.countCorrect as := heq
    rw [← hsum]
  case isFalse => rfl

/-! ### A list of sessions -/

theorem Sound.getSessionAcross_of_mem (h : db.Sound) {r : SessionRow} (hr : r ∈ db.sessions)
    (db' : Database) : getSessionAcross ⟨r.id.toNat⟩ db db' = db'.readSession r := by
  obtain ⟨id, hid⟩ := h.exists_id hr
  have hrow := h.sessionRow?_of_mem hr
  obtain ⟨s, hc⟩ := h.exists_contains (by rw [hrow]; rfl)
  rw [hid] at hrow hc
  simp only [getSessionAcross, hid, Int.toNat_natCast, ofId_eq_ok (hc.id_le h), hrow, bind, Except.bind]

/-- A list is read session by session, each with the answers that are there when it is its turn. -/
theorem listSessionsAcross_eq (h : db.Sound) (q : SessionQuery) : ∃ ids : List SessionId,
    (db.listSessions q = ids.mapM fun id => db.getSession id) ∧
    ∀ later, listSessionsAcross q db later =
      ids.zipIdx.mapM fun (id, i) => getSessionAcross id db (later i) := by
  refine ⟨(db.sessionRows q).map fun r => ⟨r.id.toNat⟩, ?_, fun later => ?_⟩
  · rw [listSessions, List.mapM_map]
    refine mapM_congr_left fun r hr => ?_
    exact (h.getSessionAcross_of_mem (mem_of_mem_sessionRows hr) db).symm
  · rw [listSessionsAcross, List.zipIdx_map, List.mapM_map]
    refine mapM_congr_left fun e he => ?_
    have hmem := mem_of_mem_sessionRows (List.fst_mem_of_mem_zipIdx he)
    exact (h.getSessionAcross_of_mem hmem _).symm

/-- Reads that requests come in between, from all tables that can come about: a session is returned
with the header that it had first and the answers that it had last, if their numbers of right answers
are the same, and refused otherwise. That is a whole state exactly if one on the way has that header and
those answers; it is the last one where only wrong answers were added, and the first one where the
session was left alone. A list is read session by session in this way. -/
theorem getSessionAcross_after (rs : List Request) :
    let db := Store.after rs empty
    (∀ id ws s t, (Store.serve (.getSession id) db).1 = .ok s →
      (Store.serve (.getSession id) (Store.after ws db)).1 = .ok t →
      (getSessionAcross id db (Store.after ws db) =
        if s.correct = t.correct then .ok { s with answers := t.answers }
        else .error (.serialization (.session (.countMismatch s.correct t.correct)))) ∧
      ((∃ u, getSessionAcross id db (Store.after ws db) = .ok u ∧ db.Passes ws id u) ↔
        db.Passes ws id { s with answers := t.answers }) ∧
      ((∀ r ∈ ws, r.Spares [id] ∨ ∃ a, r = .appendAnswer id a) →
        ∃ as, t = { s with
            answers := s.answers ++ as
            correct := s.correct + Session.countCorrect as } ∧
          (∀ a ∈ as, ∃ b, .appendAnswer id b ∈ ws ∧ a = b.regraded.cut) ∧
          getSessionAcross id db (Store.after ws db) = if s.correct = t.correct then .ok t
            else .error (.serialization (.session (.countMismatch s.correct t.correct))))) ∧
    (∀ id ws, (∀ r ∈ ws, r.Spares [id]) →
      getSessionAcross id db (Store.after ws db) = (Store.serve (.getSession id) db).1) ∧
    ∀ q, ∃ ids : List SessionId,
      ((Store.serve (.listSessions q) db).1 =
        ids.mapM fun id => (Store.serve (.getSession id) db).1) ∧
      ∀ ws : Nat → List Request, listSessionsAcross q db (fun i => Store.after (ws i) db) =
        ids.zipIdx.mapM fun (id, i) => getSessionAcross id db (Store.after (ws i) db) := by
  intro db
  have hdb : db.Sound := sound_after_empty rs
  refine ⟨fun id ws s t hs ht => ⟨?read, ?whole, fun hws => ?added⟩, fun id ws hws => ?spared,
    fun q => ?list⟩
  case read => exact getSessionAcross_of_get hdb (hdb.after ws) hs ht
  case whole => exact whole_iff_passes hdb hs ht
  case added =>
    obtain ⟨as, hgrown, has⟩ := get_of_grows hdb hws hs ht
    exact ⟨as, hgrown, has, getSessionAcross_of_grows hdb hws hs ht⟩
  case spared => exact getSessionAcross_of_spares hdb hws
  case list =>
    obtain ⟨ids, hlist, hacross⟩ := listSessionsAcross_eq hdb q
    exact ⟨ids, hlist, fun ws => hacross fun i => Store.after (ws i) db⟩

section Witness

def unanswered : Session := Session.start .mixed 2 .epoch

def rightAnswer : Answer :=
  ⟨"17 + 25", "42", "42", .skill .twoDigitAddition, true, .zero, .epoch⟩

def wrongAnswer : Answer :=
  { rightAnswer with userAnswer := "32", isCorrect := false }

/-- A wrong answer in between is returned with the session. -/
theorem getSessionAcross_of_wrong :
    let db := Store.after [.insertSession unanswered] empty
    let db' := Store.after [.appendAnswer ⟨1⟩ wrongAnswer] db
    db.getSession ⟨1⟩ = .ok (unanswered.withId ⟨1⟩) ∧
      getSessionAcross ⟨1⟩ db db' = .ok ({ unanswered with answers := [wrongAnswer] }.withId ⟨1⟩) := by
  intro db db'
  have hs : db.getSession ⟨1⟩ = .ok (unanswered.withId ⟨1⟩) := by decide +kernel
  have ht : db'.getSession ⟨1⟩ = .ok ({ unanswered with answers := [wrongAnswer] }.withId ⟨1⟩) := by
    decide +kernel
  obtain ⟨hread, -⟩ := (getSessionAcross_after [.insertSession unanswered]).1 ⟨1⟩ _ _ _ hs ht
  exact ⟨hs, hread⟩

/-- A right answer in between makes the reader fail, though the session can be read before and after
it. With a save in between the reader returns a session that never was: one that was completed is
returned as not completed, with its answer. -/
theorem not_whole_of_write :
    let db := Store.after [.insertSession unanswered] empty
    let added := [.appendAnswer ⟨1⟩ rightAnswer]
    let final : Session := { unanswered with
      id := some ⟨1⟩, answers := [wrongAnswer], endedAt := some .epoch, completed := true }
    let torn : Session := { unanswered with id := some ⟨1⟩, answers := [wrongAnswer] }
    (∀ r ∈ [.insertSession unanswered, .saveSession final] ++ added, r.Valid) ∧
    db.Passes added ⟨1⟩ (unanswered.withId ⟨1⟩) ∧
    db.Passes added ⟨1⟩ ({ unanswered with answers := [rightAnswer], correct := 1 }.withId ⟨1⟩) ∧
    getSessionAcross ⟨1⟩ db (Store.after added db) =
      .error (.serialization (.session (.countMismatch 0 1))) ∧
    getSessionAcross ⟨1⟩ db (Store.after [.saveSession final] db) = .ok torn ∧
    ¬db.Passes [.saveSession final] ⟨1⟩ torn := by
  intro db added final torn
  have hvalid : ∀ r ∈ [.insertSession unanswered, .saveSession final] ++ added, r.Valid := by
    have hfirst : unanswered.Valid :=
      ⟨by decide, rfl, fun _ ha => (List.not_mem_nil ha).elim, fun _ he => nomatch he⟩
    have hfinal : final.Valid :=
      ⟨by decide, rfl, List.forall_mem_singleton.mpr rfl, fun _ he => by cases he; decide⟩
    simp only [List.cons_append, List.nil_append, added, List.forall_mem_cons]
    exact ⟨hfirst, hfinal, rfl, fun _ hr => (List.not_mem_nil hr).elim⟩
  refine ⟨hvalid, ⟨0, by decide, by decide +kernel⟩, ⟨1, by decide, by decide +kernel⟩,
    by decide +kernel, by decide +kernel, ?_⟩
  rintro ⟨n, hn, hget⟩
  have hn : n ≤ 1 := hn
  obtain rfl | rfl : n = 0 ∨ n = 1 := by omega
  · exact absurd hget (by decide +kernel)
  · exact absurd hget (by decide +kernel)

end Witness

end MentalMath.Database
