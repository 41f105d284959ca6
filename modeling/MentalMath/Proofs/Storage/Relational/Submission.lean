import MentalMath.Proofs.Storage.Relational.Requests

/-! The answers that tables hold, told from what was asked of them. Past requests with what they
returned say which answers were handed in for a session. The tables hold exactly those, in their
order and beside the number of right ones, whatever is asked, granted or refused; so what is stored
can be read. -/

namespace MentalMath

/-- A request and what it returned. -/
structure Exchange where
  request : Request
  reply : Except StorageError request.Reply

/-- What a request hands in is in order: a session is valid, an answer is graded. -/
def Request.Valid : Request → Prop
  | .insertSession s | .saveSession s => s.Valid
  | .appendAnswer _ a => a.IsGraded
  | _ => True

/-- The answers handed in for the session under a number, after one more exchange. -/
def Exchange.handIn (id : SessionId) : Exchange → Option (List Answer) → Option (List Answer)
  | ⟨.insertSession s, .ok new⟩, known => if new = id then some s.answers else known
  | ⟨.saveSession s, .ok ()⟩, known => if s.id = some id then some s.answers else known
  | ⟨.appendAnswer l a, .ok ()⟩, known => if l = id then known.map (· ++ [a]) else known
  | ⟨.deleteSessions, .ok _⟩, _ => none
  | _, known => known

/-- The answers handed in for the session under a number, if there is one; the latest exchange is
the first of the list. -/
def handedIn (id : SessionId) (past : List Exchange) : Option (List Answer) :=
  past.foldr (Exchange.handIn id) none

/-- Makes requests one after the other: the exchanges, the latest first, and the store after them.
-/
def exchange {σ : Type} [Store σ] : List Request → List Exchange → σ → List Exchange × σ
  | [], past, s => (past, s)
  | r :: rs, past, s => exchange rs (⟨r, (Store.serve r s).1⟩ :: past) (Store.serve r s).2

theorem exchange_snd {σ : Type} [Store σ] (rs : List Request) (past : List Exchange) (s : σ) :
    (exchange rs past s).2 = Store.after rs s := by
  induction rs generalizing past s with
  | nil => rfl
  | cons r rs ih => exact ih _ _

/-- Nothing is handed in with a request that is refused. -/
theorem Exchange.handIn_error (id : SessionId) (r : Request) (e : StorageError)
    (known : Option (List Answer)) : handIn id ⟨r, .error e⟩ known = known := by
  cases r <;> rfl

theorem Exchange.handIn_of_other {r : Request} (hr : r.kind.writesSessions = false) (id : SessionId)
    (reply : Except StorageError r.Reply) (known : Option (List Answer)) :
    handIn id ⟨r, reply⟩ known = known := by
  cases r with
  | insertSession | saveSession | appendAnswer | deleteSessions => cases hr
  | _ => rfl

/-- A session stays valid when an answer is added to it and counted. -/
theorem Session.Valid.appended {s : Session} {a : Answer} (h : s.Valid) (ha : a.IsGraded)
    (hl : s.answers.length ≤ Text.maxSigned64) : (s.appended a).Valid := by
  have hcorrect : s.correct ≤ Text.maxSigned64 := by
    rw [h.counted]
    exact Nat.le_trans (countCorrect_le s.answers) hl
  refine ⟨h.few, ?_, fun b hb => ?_, h.ordered⟩
  · show (Column.plusBool s.correct a.isCorrect).toNat = countCorrect (s.answers ++ [a])
    rw [Column.plusBool_of_le hcorrect, countCorrect_append, ← h.counted]
    cases hc : a.isCorrect with
    | false => simp [countCorrect, Column.ofBool, hc]
    | true => simp [countCorrect, Column.ofBool, hc]
  · rcases List.mem_append.mp hb with hb | hb
    · exact h.graded b hb
    · exact List.mem_singleton.mp hb ▸ ha

namespace Database

open Column

variable {db db' : Database} {id : SessionId} {s : Session} {known : Option (List Answer)}
  {past : List Exchange}

/-! ### What a request keeps -/

/-- The tables hold the session under a number with the answers that were handed in. -/
inductive Keeps (db : Database) (id : SessionId) : Option (List Answer) → Prop
  | absent (hnone : ¬(db.sessionRow? id.value).isSome) : Keeps db id none
  | present (s : Session) (hc : db.Contains id.value s) (hs : s.Valid) : Keeps db id (some s.answers)

theorem Keeps.of_contains (hk : db.Keeps id known)
    (hrow : (db'.sessionRow? id.value).isSome → (db.sessionRow? id.value).isSome)
    (hc : ∀ s, db.Contains id.value s → db'.Contains id.value s) : db'.Keeps id known := by
  cases hk with
  | absent hnone => exact .absent fun h => hnone (hrow h)
  | present s hs hv => exact .present s (hc s hs) hv

theorem Rewrites.keeps_of_ne {l : SessionId} (hx : Rewrites db l.value s db') (hl : id ≠ l)
    (hk : db.Keeps id known) : db'.Keeps id known := by
  apply hk.of_contains
  · exact (isSome_sessionRow?_congr hx.ids _).mp
  · exact fun _ hc => hx.contains_of_ne (value_ne hl) hc

theorem Extends.keeps_of_ne (hx : Extends db s db') (h : db.Sound)
    (hid : (⟨db.sessions.length + 1⟩ : SessionId) ≠ id) (hk : db.Keeps id known) :
    db'.Keeps id known := by
  apply hk.of_contains
  · intro hsome
    rw [sessionRow?_isSome_iff, hx.sessions, List.map_append, List.mem_append] at hsome
    rw [sessionRow?_isSome_iff]
    apply hsome.resolve_right
    intro hnew
    exact value_ne hid (List.mem_singleton.mp hnew).symm
  · exact fun _ hc => hx.contains_of_contains h hc

/-- What is handed in with a request is what the tables hold after it. -/
theorem Writes.keeps {r : Request} {reply : Except StorageError r.Reply}
    (hw : Writes db r reply db') (h : db.Sound) (hr : r.Valid) (hk : db.Keeps id known) :
    db'.Keeps id (Exchange.handIn id ⟨r, reply⟩ known) := by
  cases hw with
  | inserted s _ hx =>
    simp only [Exchange.handIn]
    split
    case isTrue hid =>
      subst hid
      exact .present s (hx.contains h) hr
    case isFalse hid => exact hx.keeps_of_ne h hid hk
  | saved l s _ hl hx =>
    simp only [Exchange.handIn]
    split
    case isTrue hid =>
      cases hl.symm.trans hid
      exact .present s hx.contains hr
    case isFalse hid =>
      refine hx.keeps_of_ne (fun heq => hid ?_) hk
      rw [heq, hl]
  | appended l a _ hthere hx =>
    simp only [Exchange.handIn]
    split
    case isTrue hid =>
      subst hid
      cases hk with
      | absent hnone => exact absurd hthere hnone
      | present s hc hs =>
        obtain ⟨hlength, hx⟩ := hx s hc
        exact .present (s.appended a) hx.contains (hs.appended hr hlength)
    case isFalse hid =>
      obtain ⟨s, hc⟩ := h.exists_contains hthere
      exact (hx s hc).2.keeps_of_ne (Ne.symm hid) hk
  | deleted n _ hsessions ha =>
    refine .absent ?_
    rw [sessionRow?_isSome_iff, hsessions]
    exact List.not_mem_nil
  | refused _ e =>
    rw [Exchange.handIn_error]
    exact hk
  | spared _ _ _ hw hsame =>
    rw [Exchange.handIn_of_other hw]
    apply hk.of_contains
    · exact (isSome_sessionRow?_congr (congrArg _ hsame.1) _).mp
    · exact fun _ hc => hc.congr hsame.1 hsame.2

/-- The tables hold what was handed in, after each request of a sequence. -/
theorem keeps_exchange {rs : List Request} (h : db.Sound) (hr : ∀ r ∈ rs, r.Valid)
    (hk : ∀ id, db.Keeps id (handedIn id past)) :
    (exchange rs past db).2.Sound ∧
      ∀ id, (exchange rs past db).2.Keeps id (handedIn id (exchange rs past db).1) := by
  induction rs generalizing past db with
  | nil => exact ⟨h, hk⟩
  | cons r rs ih =>
    have hw := h.writes_serve r
    refine ih (hw.sound h) (fun r hmem => hr r (List.mem_cons_of_mem _ hmem)) fun id => ?_
    exact hw.keeps h (hr r List.mem_cons_self) (hk id)

/-- Every session that comes about by requests in order is valid. -/
theorem keeps_after {rs : List Request} (hr : ∀ r ∈ rs, r.Valid) :
    (Store.after rs empty).Sound ∧ ∀ id, ∃ known, (Store.after rs empty).Keeps id known := by
  have hkeeps : ∀ id, empty.Keeps id (handedIn id []) := fun id => .absent Bool.false_ne_true
  obtain ⟨hsound, hkeeps⟩ := keeps_exchange (sound_of_nil rfl rfl) hr hkeeps
  rw [exchange_snd] at hsound hkeeps
  exact ⟨hsound, fun id => ⟨_, hkeeps id⟩⟩

/-! ### What the tables hold -/

/-- The tables are in step with what was handed in. There is no session of more than `maxCount`
right answers; tables take the answers one by one all the same, but then return none. -/
structure InStep (past : List Exchange) (db : Database) : Prop where
  numbered : ∀ r ∈ db.sessions, ∃ id : SessionId, r.id = id.value
  known : ∀ id : SessionId, (db.sessionRow? id.value).isSome ↔ (handedIn id past).isSome
  owned : ∀ a ∈ db.answers, (db.sessionRow? a.sessionId).isSome
  placed : ∀ id as, handedIn id past = some as →
    (db.answerRows id.value).map AnswerRow.position =
      (List.range as.length).map fun n : Nat => (n : Int)
  submitted : ∀ id as, handedIn id past = some as →
    (db.answerRows id.value).map unnumbered = places id.value 0 as
  counted : ∀ r ∈ db.sessions,
    r.correct = (db.answerRows r.id).countP fun a => a.userAnswer == a.correctAnswer
  got : ∀ (id : SessionId) (r : SessionRow), db.sessionRow? id.value = some r →
    ((∃ s, (Store.serve (.getSession id) db).1 = .ok s) ↔ r.correct ≤ maxCount)
  returned : ∀ id as s, handedIn id past = some as → (Store.serve (.getSession id) db).1 = .ok s →
    s.answers = as.map Answer.cut
  listed : ∀ q, (∃ ss, (Store.serve (.listSessions q) db).1 = .ok ss) ↔
    ∀ r ∈ db.sessionRows q, r.correct ≤ maxCount

theorem Sound.exists_id (h : db.Sound) {r : SessionRow} (hr : r ∈ db.sessions) :
    ∃ id : SessionId, r.id = id.value := by
  have hpos := (h.mem_ids_iff.mp (List.mem_map_of_mem hr)).1
  exact ⟨⟨r.id.toNat⟩, (Int.toNat_of_nonneg (by omega)).symm⟩

theorem Keeps.isSome_iff (hk : db.Keeps id known) :
    (db.sessionRow? id.value).isSome ↔ known.isSome := by
  cases hk with
  | absent hnone => simpa using hnone
  | present s hc hs => simp [hc.row]

theorem Keeps.contains {as : List Answer} (hk : db.Keeps id (some as)) :
    ∃ s, db.Contains id.value s ∧ s.Valid ∧ s.answers = as := by
  cases hk with
  | present s hc hs => exact ⟨s, hc, hs, rfl⟩

theorem Keeps.contains_of_row {r : SessionRow} (hk : db.Keeps id known)
    (hr : db.sessionRow? id.value = some r) :
    ∃ s, db.Contains id.value s ∧ s.Valid ∧ r = .ofSession id.value s := by
  cases hk with
  | absent hnone => exact absurd (by rw [hr]; rfl) hnone
  | present s hc hs => exact ⟨s, hc, hs, Option.some.inj (hr.symm.trans hc.row)⟩

/-- The rows whose texts match are those of the right answers. -/
theorem countP_places (key position : Int) {as : List Answer} (h : ∀ a ∈ as, a.IsGraded) :
    ((places key position as).countP fun r => r.userAnswer == r.correctAnswer) =
      Session.countCorrect as := by
  induction as generalizing position with
  | nil => rfl
  | cons a as ih =>
    have hgraded : a.isCorrect = (a.userAnswer == a.correctAnswer) := h a List.mem_cons_self
    rw [places, List.countP_cons, ih _ fun b hb => h b (List.mem_cons_of_mem _ hb),
      Session.countCorrect, Session.countCorrect, List.countP_cons, hgraded]
    rfl

theorem Contains.countP_answerRows {key : Int} (hc : db.Contains key s) (hs : s.Valid) :
    ((db.answerRows key).countP fun r => r.userAnswer == r.correctAnswer) = s.correct := by
  rw [hs.counted, ← countP_places key 0 hs.graded, ← hc.map_unnumbered_answerRows, List.countP_map]
  rfl

/-- A session is read exactly if its right answers can be counted. -/
theorem Contains.readSession_iff (hc : db.Contains id.value s) (hs : s.Valid) :
    (∃ t, db.readSession (.ofSession id.value s) = .ok t) ↔ s.correct ≤ maxCount := by
  simp only [hc.readSession_eq, SessionRow.read_ofSession_iff]
  constructor
  · rintro ⟨t, hreadable, -⟩
    exact hreadable.countable
  · intro hcorrect
    exact ⟨_, hs.readable hcorrect, rfl⟩

/-- A list is read exactly if each of its elements is. -/
theorem exists_mapM_eq_ok_iff {α β : Type} {f : α → Except StorageError β} {xs : List α} :
    (∃ ys, xs.mapM f = .ok ys) ↔ ∀ x ∈ xs, ∃ y, f x = .ok y := by
  induction xs with
  | nil => exact ⟨fun _ _ hx => (List.not_mem_nil hx).elim, fun _ => ⟨[], rfl⟩⟩
  | cons x xs ih =>
    rw [List.forall_mem_cons, ← ih, List.mapM_cons]
    constructor
    · rintro ⟨zs, h⟩
      obtain ⟨y, hy, h⟩ := bind_eq_ok.mp h
      obtain ⟨ys, hys, -⟩ := bind_eq_ok.mp h
      exact ⟨⟨y, hy⟩, ys, hys⟩
    · rintro ⟨⟨y, hy⟩, ys, hys⟩
      exact ⟨y :: ys, bind_eq_ok.mpr ⟨y, hy, bind_eq_ok.mpr ⟨ys, hys, rfl⟩⟩⟩

theorem mem_of_mem_sessionRows {q : SessionQuery} {r : SessionRow} (h : r ∈ db.sessionRows q) :
    r ∈ db.sessions := by
  have hmem : r ∈ (db.sessions.filter (SessionRow.isAskedFor q)).mergeSort SessionRow.newestFirst := by
    unfold sessionRows upTo at h
    split at h
    · exact List.mem_of_mem_take h
    · exact h
  exact (List.mem_filter.mp (List.mem_mergeSort.mp hmem)).1

theorem inStep_of_keeps (h : db.Sound) (hk : ∀ id, db.Keeps id (handedIn id past)) :
    InStep past db := by
  have hread : ∀ r ∈ db.sessions,
      (∃ s, db.readSession r = .ok s) ↔ r.correct ≤ maxCount := by
    intro r hr
    obtain ⟨id, hid⟩ := h.exists_id hr
    obtain ⟨s, hc, hs, rfl⟩ := (hk id).contains_of_row (hid ▸ h.sessionRow?_of_mem hr)
    exact (hc.readSession_iff hs).trans Int.ofNat_le.symm
  constructor
  case numbered => exact fun r hr => h.exists_id hr
  case known =>
    intro id
    exact (hk id).isSome_iff
  case owned => exact h.owned
  case placed =>
    intro id as has
    obtain ⟨s, hc, hs, rfl⟩ := (has ▸ hk id).contains
    simp only [hc.map_position_answerRows, map_position_places, Int.zero_add]
  case submitted =>
    intro id as has
    obtain ⟨s, hc, hs, rfl⟩ := (has ▸ hk id).contains
    exact hc.map_unnumbered_answerRows
  case counted =>
    intro r hr
    obtain ⟨id, hid⟩ := h.exists_id hr
    obtain ⟨s, hc, hs, rfl⟩ := (hk id).contains_of_row (hid ▸ h.sessionRow?_of_mem hr)
    exact congrArg Nat.cast (hc.countP_answerRows hs).symm
  case got =>
    intro id r hr
    obtain ⟨s, hc, hs, rfl⟩ := (hk id).contains_of_row hr
    have hget : (Store.serve (.getSession id) db).1 = db.readSession (.ofSession id.value s) :=
      hc.getSession_eq h
    rw [hget]
    exact hread _ (List.mem_of_find?_eq_some hr)
  case returned =>
    intro id as t has hget
    obtain ⟨s, hc, hs, rfl⟩ := (has ▸ hk id).contains
    have hget : db.getSession id = .ok t := hget
    have hcorrect : s.correct ≤ maxCount := by
      rw [hc.getSession_eq h] at hget
      exact (hc.readSession_iff hs).mp ⟨t, hget⟩
    rw [hc.getSession_eq_ok h hs hcorrect] at hget
    cases hget
    rfl
  case listed =>
    intro q
    exact exists_mapM_eq_ok_iff.trans
      (forall₂_congr fun r hr => hread r (mem_of_mem_sessionRows hr))

/-- From empty tables on, whatever is handed in, the tables are in step with it. -/
theorem inStep_exchange {rs : List Request} (h : ∀ r ∈ rs, r.Valid) :
    InStep (exchange rs [] empty).1 (exchange rs [] empty).2 := by
  have hsound : empty.Sound := sound_of_nil rfl rfl
  have hkeeps : ∀ id, empty.Keeps id (handedIn id []) := fun id => .absent Bool.false_ne_true
  obtain ⟨hsound, hkeeps⟩ := keeps_exchange hsound h hkeeps
  exact inStep_of_keeps hsound hkeeps

/-- A session of one right answer is stored, and a wrong one is added to it; another answer finds no
session. -/
theorem inStep_of_answer_added :
    let sum : Answer :=
      ⟨"17 + 25", "42", "42", .skill .twoDigitAddition, true, ⟨0, by decide⟩, .epoch⟩
    let difference : Answer :=
      { sum with expression := "43 - 28", correctAnswer := "15", isCorrect := false }
    let session : Session := { Session.start .mixed 1 .epoch with answers := [sum], correct := 1 }
    let rs := [.insertSession session, .appendAnswer ⟨1⟩ difference, .appendAnswer ⟨2⟩ sum]
    (∀ r ∈ rs, r.Valid) ∧ InStep (exchange rs [] empty).1 (exchange rs [] empty).2 ∧
      handedIn ⟨1⟩ (exchange rs [] empty).1 = some [sum, difference] ∧
      handedIn ⟨2⟩ (exchange rs [] empty).1 = none := by
  intro sum difference session rs
  have hsession : session.Valid :=
    ⟨by decide, rfl, List.forall_mem_singleton.mpr rfl, fun _ he => nomatch he⟩
  have hvalid : ∀ r ∈ rs, r.Valid := by
    simp only [rs, List.forall_mem_cons]
    exact ⟨hsession, rfl, rfl, fun _ hr => (List.not_mem_nil hr).elim⟩
  exact ⟨hvalid, inStep_exchange hvalid, by decide +kernel, by decide +kernel⟩

/-- A session of as many right answers as can be counted takes one more, and then neither it nor a
list with it can be read. -/
theorem not_read_of_appended {a : Answer} (hs : s.Valid) (hcorrect : s.correct = maxCount)
    (hlength : s.answers.length ≤ Text.maxSigned64) (ha : a.IsGraded) (hright : a.isCorrect = true) :
    ∃ db', Store.after [.insertSession s, .appendAnswer ⟨1⟩ a] empty = db' ∧
      (db'.sessionRow? 1).isSome ∧
      (∀ t, (Store.serve (.getSession ⟨1⟩) db').1 ≠ .ok t) ∧
      ∀ ts, (Store.serve (.listSessions ⟨false, none, none, none⟩) db').1 ≠ .ok ts := by
  have hempty : empty.Sound := sound_of_nil rfl rfl
  obtain ⟨db₁, hinsert, hextends⟩ := hempty.serve_insertSession (by decide) s
  have hsound := hextends.sound hempty
  have hc : db₁.Contains (⟨1⟩ : SessionId).value s := hextends.contains hempty
  obtain ⟨db', happend, hx⟩ := hc.serve_appendAnswer hsound hlength a
  have hmany : ¬(s.appended a).correct ≤ maxCount := by
    have hle : s.correct ≤ Text.maxSigned64 := hcorrect.symm ▸ by decide
    show ¬(plusBool s.correct a.isCorrect).toNat ≤ maxCount
    rw [plusBool_of_le hle, hright, hcorrect]
    decide
  have hread : ∀ t, db'.readSession (.ofSession (⟨1⟩ : SessionId).value (s.appended a)) ≠ .ok t :=
    fun t ht => hmany ((hx.contains.readSession_iff (hs.appended ha hlength)).mp ⟨t, ht⟩)
  refine ⟨db', ?_, Option.isSome_of_eq_some hx.contains.row, fun t ht => ?_, fun ts hts => ?_⟩
  · rw [Store.after_cons, hinsert, Store.after_cons]
    exact congrArg Prod.snd happend
  · exact hread t ((hx.contains.getSession_eq (hx.sound hsound)).symm.trans ht)
  · have hmem : SessionRow.ofSession (⟨1⟩ : SessionId).value (s.appended a) ∈
        db'.sessionRows ⟨false, none, none, none⟩ := by
      rw [sessionRows, upTo, List.mem_mergeSort, List.mem_filter]
      exact ⟨List.mem_of_find?_eq_some hx.contains.row, rfl⟩
    obtain ⟨t, ht⟩ := exists_mapM_eq_ok_iff.mp ⟨ts, hts⟩ _ hmem
    exact hread t ht

/-- That every answer is graded and every session valid does not make all that is stored readable.
-/
theorem not_read_of_many :
    let sum : Answer :=
      ⟨"17 + 25", "42", "42", .skill .twoDigitAddition, true, ⟨0, by decide⟩, .epoch⟩
    let session : Session := { Session.start .mixed 4294967295 .epoch with
      answers := List.replicate 4294967295 sum
      correct := 4294967295 }
    let rs := [.insertSession session, .appendAnswer ⟨1⟩ sum]
    (∀ r ∈ rs, r.Valid) ∧ ∃ db, (exchange rs [] empty).2 = db ∧ (db.sessionRow? 1).isSome ∧
      (∀ s, (Store.serve (.getSession ⟨1⟩) db).1 ≠ .ok s) ∧
      ∀ ss, (Store.serve (.listSessions ⟨false, none, none, none⟩) db).1 ≠ .ok ss := by
  intro sum session rs
  have hsession : session.Valid := by
    refine ⟨by decide, ?_, fun a ha => ?_, fun _ he => nomatch he⟩
    · exact (List.countP_replicate.trans (if_pos rfl)).symm
    · rw [List.eq_of_mem_replicate ha]
      rfl
  have hvalid : ∀ r ∈ rs, r.Valid := by
    simp only [rs, List.forall_mem_cons]
    exact ⟨hsession, rfl, fun _ hr => (List.not_mem_nil hr).elim⟩
  have hlength : session.answers.length ≤ Text.maxSigned64 := by
    rw [show session.answers.length = 4294967295 from List.length_replicate]
    decide
  rw [exchange_snd]
  exact ⟨hvalid, not_read_of_appended hsession rfl hlength rfl rfl⟩

end Database

end MentalMath
