import MentalMath.Storage.Relational.Database

/-! What the statements on the tables of sessions and answers do. Each statement has a rule for the
rows that it is given in a transaction, and the rules are chained along the transaction. -/

namespace MentalMath

open Column

namespace Column

theorem ofBool_isBit (b : Bool) : isBit (ofBool b) = true := by
  cases b <;> rfl

theorem ofSpan_nonneg (d : Span) : 0 ≤ ofSpan d :=
  Int.le_max_right _ _

theorem ofId_eq_ok {field : String} {n : Nat} (h : n ≤ Text.maxSigned64) :
    ofId field n = .ok (n : Int) := by
  simp [ofId, h]

theorem ofId_eq_error {field : String} {n : Nat} (h : ¬n ≤ Text.maxSigned64) :
    ofId field n = .error (.serialization (.idTooLarge field)) := by
  simp [ofId, h]

theorem eq_of_ofId {field : String} {n : Nat} {key : Int} (h : ofId field n = .ok key) : key = n := by
  unfold ofId at h
  split at h
  · exact (Except.ok.inj h).symm
  · cases h

theorem plusBool_of_le {n : Nat} (h : n ≤ Text.maxSigned64) (b : Bool) :
    plusBool n b = n + ofBool b :=
  if_pos (Int.ofNat_le.mpr h)

theorem plusBool_nonneg (n : Nat) (b : Bool) : 0 ≤ plusBool n b := by
  unfold plusBool ofBool
  split
  · split <;> omega
  · exact Int.natCast_nonneg n

end Column

theorem SessionRow.isAdmissible_ofSession (key : Int) (s : Session) :
    (ofSession key s).isAdmissible = true := by
  simp [isAdmissible, ofSession, ofSpan_nonneg, ofBool_isBit]

theorem AnswerRow.isAdmissible_ofAnswer (id key : Int) {position : Int} (a : Answer)
    (h : 0 ≤ position) : (ofAnswer id key position a).isAdmissible = true := by
  simp [isAdmissible, ofAnswer, ofSpan_nonneg, ofBool_isBit, h]

/-- The session of a row after an answer was added to it and counted. -/
def Session.appended (s : Session) (a : Answer) : Session :=
  { s with
    answers := s.answers ++ [a]
    correct := (plusBool s.correct a.isCorrect).toNat }

namespace Database

variable {db db' : Database} {key : Int} {s : Session} {r : SessionRow} {a : Answer}

/-! Transactions. -/

theorem run_bind_of_ok {α β : Type} {t : Transaction α} {f : α → Transaction β} {x : α}
    (h : t.run db = .ok (x, db')) : (t >>= f).run db = (f x).run db' := by
  rw [StateT.run_bind, h]
  rfl

theorem run_bind_of_error {α β : Type} {t : Transaction α} {f : α → Transaction β} {e : StorageError}
    (h : t.run db = .error e) : (t >>= f).run db = .error e := by
  rw [StateT.run_bind, h]
  rfl

theorem run_demand {ok : Bool} (h : ok = true) : (demand ok).run db = .ok ((), db) := by
  simp only [demand, h, if_true]
  rfl

theorem run_get_bind {α : Type} (f : Database → Transaction α) :
    (get >>= f).run db = (f db).run db := rfl

/-- A transaction that goes on with another one ends well exactly if both do. -/
theorem run_bind_eq_ok_iff {α β : Type} {t : Transaction α} {f : α → Transaction β} {y : β} :
    (t >>= f).run db = .ok (y, db') ↔
      ∃ x dbx, t.run db = .ok (x, dbx) ∧ (f x).run dbx = .ok (y, db') := by
  cases ht : t.run db with
  | error e =>
    rw [run_bind_of_error ht]
    constructor
    · exact fun h => nomatch h
    · rintro ⟨_, _, h, -⟩
      cases h
  | ok r =>
    rw [run_bind_of_ok ht]
    constructor
    · exact fun h => ⟨r.1, r.2, rfl, h⟩
    · rintro ⟨_, _, h, hf⟩
      cases h
      exact hf

theorem run_lift_eq_ok {α : Type} {x : Except StorageError α} {a : α}
    (h : (liftM x : Transaction α).run db = .ok (a, db')) : db' = db := by
  cases x with
  | error e => cases h
  | ok a =>
    cases h
    rfl

theorem run_demand_eq_ok_iff {ok : Bool} {u : Unit} :
    (demand ok).run db = .ok (u, db') ↔ ok = true ∧ db' = db := by
  cases ok with
  | false => exact ⟨fun h => (nomatch h), fun h => (nomatch h.1)⟩
  | true =>
    rw [run_demand rfl]
    constructor
    · intro h
      cases h
      exact ⟨rfl, rfl⟩
    · rintro ⟨-, rfl⟩
      rfl

/-- What holds of the tables, and after the transaction if it succeeds, holds once it was carried
out. -/
theorem commit_induction {α : Type} {P : Database → Prop} {t : Transaction α} (hself : P db)
    (hrun : ∀ x db', t.run db = .ok (x, db') → P db') : P (commit t db).2 := by
  cases h : t.run db with
  | error e => simpa only [commit, h] using hself
  | ok x => simpa only [commit, h] using hrun x.1 x.2 h

theorem commit_of_ok {α : Type} {t : Transaction α} {x : α} (h : t.run db = .ok (x, db')) :
    commit t db = (.ok x, db') := by
  simp only [commit, h]

theorem commit_of_error {α : Type} {t : Transaction α} {e : StorageError}
    (h : t.run db = .error e) : commit t db = (.error e, db) := by
  simp only [commit, h]

theorem run_ofId {n : Nat} (field : String) (h : n ≤ Text.maxSigned64) :
    (liftM (ofId field n) : Transaction Int).run db = .ok ((n : Int), db) := by
  rw [ofId_eq_ok h]
  rfl

theorem run_ofId_of_large {n : Nat} (field : String) (h : ¬n ≤ Text.maxSigned64) :
    (liftM (ofId field n) : Transaction Int).run db =
      .error (.serialization (.idTooLarge field)) := by
  rw [ofId_eq_error h]
  rfl

/-- A transaction that takes tables with a property to tables with the property. -/
def Preserves {α : Type} (P : Database → Prop) (t : Transaction α) : Prop :=
  ∀ db, P db → ∀ x db', t.run db = .ok (x, db') → P db'

section Preserves

variable {α β : Type} {P : Database → Prop}

theorem preserves_bind {t : Transaction α} {f : α → Transaction β} (ht : Preserves P t)
    (hf : ∀ x, Preserves P (f x)) : Preserves P (t >>= f) := by
  intro db hdb y db' hrun
  cases h : t.run db with
  | error e =>
    rw [run_bind_of_error h] at hrun
    cases hrun
  | ok x =>
    rw [run_bind_of_ok h] at hrun
    exact hf x.1 x.2 (ht db hdb x.1 x.2 h) y db' hrun

theorem preserves_get_bind {f : Database → Transaction β}
    (hf : ∀ db, P db → Preserves P (f db)) : Preserves P (get >>= f) :=
  fun db hdb y db' hrun => hf db hdb db hdb y db' hrun

theorem preserves_pure (x : α) : Preserves P (pure x) := by
  intro db hdb y db' hrun
  cases hrun
  exact hdb

theorem preserves_throw (e : StorageError) : Preserves P (throw e : Transaction α) :=
  fun _ _ _ _ hrun => nomatch hrun

theorem preserves_lift (x : Except StorageError α) : Preserves P (liftM x : Transaction α) := by
  cases x with
  | error e => exact preserves_throw e
  | ok x => exact preserves_pure x

theorem preserves_demand (ok : Bool) : Preserves P (demand ok) := by
  cases ok with
  | false => exact preserves_throw _
  | true => exact preserves_pure ()

theorem preserves_set {db : Database} (h : P db) : Preserves P (set db : Transaction Unit) := by
  intro db' _ y db'' hrun
  cases hrun
  exact h

theorem preserves_modify {f : Database → Database} (h : ∀ db, P db → P (f db)) :
    Preserves P (modify f : Transaction Unit) := by
  intro db hdb y db' hrun
  cases hrun
  exact h db hdb

theorem Preserves.commit {t : Transaction α} (ht : Preserves P t) (h : P db) :
    P (commit t db).2 :=
  commit_induction h (ht db h)

end Preserves

/-! Numbers. -/

theorem le_foldl_max (ids : List Int) (m : Int) :
    m ≤ ids.foldl max m ∧ ∀ n ∈ ids, n ≤ ids.foldl max m := by
  induction ids generalizing m with
  | nil => exact ⟨Int.le_refl m, fun n hn => nomatch hn⟩
  | cons id ids ih =>
    obtain ⟨hm, hids⟩ := ih (max m id)
    refine ⟨Int.le_trans (Int.le_max_left m id) hm, fun n hn => ?_⟩
    cases List.mem_cons.mp hn with
    | inl hn =>
      subst hn
      exact Int.le_trans (Int.le_max_right m n) hm
    | inr hn => exact hids n hn

theorem foldl_max_lt {ids : List Int} {m n : Int} (hm : m < n) (h : ∀ id ∈ ids, id < n) :
    ids.foldl max m < n := by
  induction ids generalizing m with
  | nil => exact hm
  | cons id ids ih =>
    refine ih (Int.max_lt.mpr ⟨hm, h id List.mem_cons_self⟩) fun l hl => ?_
    exact h l (List.mem_cons_of_mem _ hl)

theorem lt_nextNumber {ids : List Int} {n : Int} (h : n ∈ ids) : n < nextNumber ids := by
  cases ids with
  | nil => cases h
  | cons id ids =>
    obtain ⟨hid, hids⟩ := le_foldl_max ids id
    rw [nextNumber]
    cases List.mem_cons.mp h with
    | inl h =>
      subst h
      exact Int.lt_add_one_of_le hid
    | inr h => exact Int.lt_add_one_of_le (hids n h)

theorem nextNumber_le {ids : List Int} {n : Int} (hne : ids ≠ []) (h : ∀ id ∈ ids, id < n) :
    nextNumber ids ≤ n := by
  cases ids with
  | nil => contradiction
  | cons id ids =>
    exact foldl_max_lt (h id List.mem_cons_self) fun l hl => h l (List.mem_cons_of_mem _ hl)

/-! Rows of sessions. -/

theorem sessionRow?_id (h : db.sessionRow? key = some r) : r.id = key :=
  eq_of_beq (List.find?_some (p := fun r : SessionRow => r.id == key) h)

/-- The rows with another row in the place of the one under its number. -/
def replaceRow (r : SessionRow) (rows : List SessionRow) : List SessionRow :=
  rows.map fun old => if old.id == r.id then r else old

theorem map_id_replaceRow (r : SessionRow) (rows : List SessionRow) :
    (replaceRow r rows).map SessionRow.id = rows.map SessionRow.id := by
  rw [replaceRow, List.map_map]
  refine List.map_congr_left fun old _ => ?_
  simp only [Function.comp_apply]
  split
  case isTrue h => exact (eq_of_beq h).symm
  case isFalse => rfl

theorem find?_replaceRow (r : SessionRow) (rows : List SessionRow) :
    (replaceRow r rows).find? (fun old => old.id == key) =
      (rows.find? fun old => old.id == key).map fun old => if old.id == r.id then r else old := by
  rw [replaceRow, List.find?_map]
  refine congrArg (Option.map _) (congrArg (fun p => rows.find? p) (funext fun old => ?_))
  simp only [Function.comp_apply]
  split
  case isTrue h => rw [eq_of_beq h]
  case isFalse => rfl

theorem run_insertSessionRow (h : r.isAdmissible = true) :
    (insertSessionRow r).run db = .ok ((), { db with sessions := db.sessions ++ [r] }) := by
  rw [insertSessionRow, run_bind_of_ok (run_demand h)]
  rfl

theorem run_updateSessionRow (hr : (db.sessionRow? r.id).isSome) (h : r.isAdmissible = true) :
    (updateSessionRow r).run db =
      .ok ((), { db with sessions := replaceRow r db.sessions }) := by
  have hsome : (db.sessionRow? r.id).isNone = false := by simpa using hr
  simp only [updateSessionRow, StateT.run_bind, StateT.run_get, pure_bind, hsome]
  rw [if_neg Bool.false_ne_true, run_bind_of_ok (run_demand h)]
  rfl

theorem run_updateSessionRow_of_none (hr : db.sessionRow? r.id = none) :
    (updateSessionRow r).run db = .error .notFound := by
  simp only [updateSessionRow, StateT.run_bind, StateT.run_get, pure_bind, hr, Option.isNone_none]
  rfl

theorem run_countAnswer (hr : db.sessionRow? key = some (.ofSession key s)) (a : Answer) :
    (countAnswer key a).run db = .ok ((), { db with
      sessions := replaceRow (.ofSession key (s.appended a)) db.sessions }) := by
  simp only [countAnswer, StateT.run_bind, StateT.run_get, pure_bind, hr]
  have hrow : ({ SessionRow.ofSession key s with
        correct := plusBool (SessionRow.ofSession key s).correct a.isCorrect } : SessionRow) =
      .ofSession key (s.appended a) := by
    simp only [SessionRow.ofSession, Session.appended, Int.toNat_of_nonneg (plusBool_nonneg _ _)]
  rw [hrow]
  refine run_updateSessionRow ?_ (SessionRow.isAdmissible_ofSession _ _)
  show (db.sessionRow? key).isSome
  rw [hr]
  rfl

theorem run_countAnswer_of_none (hr : db.sessionRow? key = none) (a : Answer) :
    (countAnswer key a).run db = .error .notFound := by
  simp only [countAnswer, StateT.run_bind, StateT.run_get, pure_bind, hr]
  rfl

/-! Rows of answers. -/

/-- The row of an answer apart from its own number, which nothing reads. -/
def unnumbered (r : AnswerRow) : AnswerRow :=
  { r with id := 0 }

/-- The rows of answers at the places from one on. -/
def places (key : Int) (position : Int) : List Answer → List AnswerRow
  | [] => []
  | a :: as => AnswerRow.ofAnswer 0 key position a :: places key (position + 1) as

/-- The rows of the answers of a session in the order in which they were stored. -/
def answersAt (key : Int) (answers : List AnswerRow) : List AnswerRow :=
  (answers.filter fun r => r.sessionId == key).map unnumbered

theorem places_append (key position : Int) (as bs : List Answer) :
    places key position (as ++ bs) =
      places key position as ++ places key (position + as.length) bs := by
  induction as generalizing position with
  | nil => simp [places]
  | cons a as ih =>
    simp only [List.cons_append, places, ih, List.length_cons]
    rw [show position + 1 + (as.length : Int) = position + ((as.length + 1 : Nat) : Int) by omega]

theorem sessionId_of_mem_places {position : Int} {as : List Answer} {r : AnswerRow}
    (h : r ∈ places key position as) : r.sessionId = key := by
  induction as generalizing position with
  | nil => cases h
  | cons a as ih =>
    cases List.mem_cons.mp h with
    | inl h => rw [h]; rfl
    | inr h => exact ih h

/-- The places are taken one after the other. -/
theorem map_position_places (key position : Int) (as : List Answer) :
    (places key position as).map AnswerRow.position =
      (List.range as.length).map fun n : Nat => position + n := by
  induction as generalizing position with
  | nil => rfl
  | cons a as ih =>
    rw [places, List.map_cons, ih, List.length_cons, List.range_succ_eq_map, List.map_cons,
      List.map_map, Int.natCast_zero, Int.add_zero]
    refine congrArg (List.cons position) (List.map_congr_left fun n _ => ?_)
    show position + 1 + (n : Int) = position + (n + 1 : Nat)
    omega

theorem position_mem_places_iff {position n : Int} {as : List Answer} :
    n ∈ (places key position as).map AnswerRow.position ↔
      position ≤ n ∧ n < position + as.length := by
  rw [map_position_places, List.mem_map]
  constructor
  · rintro ⟨m, hm, rfl⟩
    have hlt := List.mem_range.mp hm
    omega
  · rintro ⟨hle, hlt⟩
    exact ⟨(n - position).toNat, List.mem_range.mpr (by omega), by omega⟩

theorem answersAt_append (key : Int) (xs ys : List AnswerRow) :
    answersAt key (xs ++ ys) = answersAt key xs ++ answersAt key ys := by
  simp [answersAt]

/-- Rows of one session are all of its answers. -/
theorem answersAt_of_forall {rows : List AnswerRow} (h : ∀ r ∈ rows, r.sessionId = key) :
    answersAt key rows = rows.map unnumbered := by
  rw [answersAt, List.filter_eq_self.mpr]
  intro r hr
  rw [h r hr]
  exact beq_self_eq_true key

/-- Rows of other sessions are none of its answers. -/
theorem answersAt_eq_nil {rows : List AnswerRow} (h : ∀ r ∈ rows, r.sessionId ≠ key) :
    answersAt key rows = [] := by
  rw [answersAt, List.filter_eq_nil_iff.mpr, List.map_nil]
  intro r hr
  rw [beq_iff_eq]
  exact h r hr

theorem answersAt_filter_of_ne {key l : Int} (h : key ≠ l) (rows : List AnswerRow) :
    answersAt key (rows.filter fun r => !(r.sessionId == l)) = answersAt key rows := by
  rw [answersAt, List.filter_filter, answersAt]
  refine congrArg _ (List.filter_congr fun r _ => ?_)
  cases hk : r.sessionId == key with
  | false => rfl
  | true => simp [eq_of_beq hk, h]

theorem sessionId_of_map_unnumbered {rows : List AnswerRow} {position : Int} {as : List Answer}
    (h : rows.map unnumbered = places key position as) : ∀ r ∈ rows, r.sessionId = key := by
  intro r hr
  have hmem : unnumbered r ∈ places key position as := h ▸ List.mem_map_of_mem hr
  have hkey : (unnumbered r).sessionId = key := sessionId_of_mem_places hmem
  exact hkey

theorem run_insertAnswer {position : Int} (hs : (db.sessionRow? key).isSome) (hp : 0 ≤ position)
    (hfree : ∀ r ∈ db.answers, r.sessionId = key → r.position ≠ position) (a : Answer) :
    ∃ id, (insertAnswer key position a).run db = .ok ((), { db with
      answers := db.answers ++ [.ofAnswer id key position a] }) := by
  refine ⟨nextNumber (db.answers.map AnswerRow.id), ?_⟩
  have hany : (db.answers.any fun old => old.sessionId == key && old.position == position) = false := by
    rw [List.any_eq_false]
    intro r hr
    rw [Bool.and_eq_true, beq_iff_eq, beq_iff_eq]
    exact fun h => hfree r hr h.1 h.2
  simp only [insertAnswer, insertAnswerRow, StateT.run_bind, StateT.run_get, pure_bind]
  rw [run_demand]
  · rfl
  · rw [Bool.and_eq_true, Bool.and_eq_true]
    refine ⟨⟨AnswerRow.isAdmissible_ofAnswer _ _ a hp, hs⟩, ?_⟩
    exact congrArg not hany

/-- Answers find their places behind those that are there. -/
theorem run_insertAnswers {position : Int} (hs : (db.sessionRow? key).isSome) (hp : 0 ≤ position)
    (hfree : ∀ r ∈ db.answers, r.sessionId = key → r.position < position) (as : List Answer) :
    ∃ rows, rows.map unnumbered = places key position as ∧
      (insertAnswers key position as).run db =
        .ok ((), { db with answers := db.answers ++ rows }) := by
  induction as generalizing db position with
  | nil => exact ⟨[], rfl, by simp only [List.append_nil]; rfl⟩
  | cons a as ih =>
    obtain ⟨id, hid⟩ := run_insertAnswer hs hp (fun r hr hk => Int.ne_of_lt (hfree r hr hk)) a
    let next : Database := { db with answers := db.answers ++ [.ofAnswer id key position a] }
    have hnext : (next.sessionRow? key).isSome := hs
    have hbehind : ∀ r ∈ next.answers, r.sessionId = key → r.position < position + 1 := by
      intro r hr hk
      cases List.mem_append.mp hr with
      | inl hr => exact Int.lt_add_one_of_le (Int.le_of_lt (hfree r hr hk))
      | inr hr =>
        rw [List.mem_singleton.mp hr]
        exact Int.lt_add_one_of_le (Int.le_refl _)
    obtain ⟨rows, hrows, hrun⟩ := ih hnext (Int.le_add_one hp) hbehind
    refine ⟨.ofAnswer id key position a :: rows, ?_, ?_⟩
    · rw [List.map_cons, hrows]
      rfl
    · rw [insertAnswers, run_bind_of_ok hid, hrun, List.append_assoc]
      rfl

end Database

end MentalMath
