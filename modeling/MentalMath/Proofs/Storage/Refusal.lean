import MentalMath.Proofs.Notebook.Labels
import MentalMath.Proofs.Storage.Relational.Disturbance
import MentalMath.Storage.Memory

/-! Requests that are refused. A store that holds its values as they are checks all before it changes
anything. Tables drop what a transaction has done when it fails, but the number of a new row is
checked after that, so there it matters that no number is negative, which is so of all tables that
come about by requests. -/

namespace MentalMath

/-- A store that is as it was after every request that is refused. -/
def Undamaged {σ : Type} (serve : (r : Request) → σ → Except StorageError r.Reply × σ) (m : σ) :
    Prop :=
  ∀ r e m', serve r m = (.error e, m') → m' = m

/-! ### Values as they are -/

theorem Memory.undamaged (m : Memory) : Undamaged Store.serve m := by
  intro r e m' h
  replace h : serve r m = (.error e, m') := h
  -- Each operation checks all it has to before it changes anything.
  cases r with
  | saveSession | appendAnswer | putMistake | getSession | getMistake | deleteMistake =>
    simp only [serve, saveSession, appendAnswer, putMistake, getSession, deleteMistake] at h
    repeat' split at h
    all_goals cases h
    all_goals rfl
  | _ => cases h

/-! ### Tables -/

namespace Database

variable {db db' : Database} {α : Type} {t : Transaction α} {e : StorageError}

theorem eq_of_commit_error (h : commit t db = (.error e, db')) : db' = db := by
  have hdb := commit_snd_of_error (congrArg Prod.fst h)
  rwa [h] at hdb

/-- A number is checked once its row was stored, and only then can a refusal leave something behind. -/
theorem eq_of_numbered_error {β : Type} {field : String} {mk : Nat → β} {t : Transaction Int}
    (h : numbered field mk (commit t db) = (.error e, db'))
    (hnumber : ∀ n db₁, t.run db = .ok (n, db₁) → 0 ≤ n) : db' = db := by
  cases hrun : t.run db with
  | error e' =>
    rw [commit_of_error hrun] at h
    exact (Prod.mk.inj h).2.symm
  | ok r =>
    obtain ⟨n, db₁⟩ := r
    rw [commit_of_ok hrun] at h
    have hread : Column.toId field n = .ok n.toNat := if_pos (hnumber n db₁ hrun)
    simp only [numbered, Except.bind, hread] at h
    cases h

theorem eq_nextNumber_of_insertSession {s : Session} {n : Int}
    (h : (insertSession s).run db = .ok (n, db')) :
    n = nextNumber (db.sessions.map SessionRow.id) := by
  rw [insertSession, run_get_bind] at h
  dsimp only at h
  split at h
  · cases h
  · obtain ⟨_, _, -, h⟩ := run_bind_eq_ok_iff.mp h
    obtain ⟨_, _, -, h⟩ := run_bind_eq_ok_iff.mp h
    cases h
    rfl

theorem eq_nextNumber_of_insertMistake {v : Mistake} {n : Int}
    (h : (insertMistake v).run db = .ok (n, db')) :
    n = nextNumber (db.mistakes.map MistakeRow.id) := by
  rw [insertMistake, run_get_bind] at h
  obtain ⟨_, _, hdemand, h⟩ := run_bind_eq_ok_iff.mp h
  split at h
  · cases h
  · cases h
    rfl

theorem undamaged_of_numbers (hs : 0 ≤ nextNumber (db.sessions.map SessionRow.id))
    (hm : 0 ≤ nextNumber (db.mistakes.map MistakeRow.id)) : Undamaged Store.serve db := by
  intro r e db' h
  replace h : serve r db = (.error e, db') := h
  cases r with
  | insertSession s =>
    refine eq_of_numbered_error h fun n db₁ hrun => ?_
    rwa [eq_nextNumber_of_insertSession hrun]
  | putMistake v =>
    simp only [serve] at h
    split at h
    · exact eq_of_commit_error h
    · refine eq_of_numbered_error h fun n db₁ hrun => ?_
      rwa [eq_nextNumber_of_insertMistake hrun]
  | saveSession | appendAnswer | deleteMistake | savePreferences => exact eq_of_commit_error h
  | getSession | listSessions | findMistake | getMistake | listMistakes | getPreferences =>
    exact (Prod.mk.inj h).2.symm
  | deleteSessions | deleteMistakes | clearPreferences => cases h

theorem undamaged_serveDisturbed (h : Undamaged Store.serve db) (faults : Faults) :
    Undamaged (serveDisturbed faults) db := by
  intro r e db' hserve
  rcases serveDisturbed_cases faults r db with ⟨e', hrefused⟩ | hsame
  · exact (Prod.mk.inj (hserve.symm.trans hrefused)).2
  · exact h r e db' (hsame.symm.trans hserve)

/-! ### Numbers -/

theorem nextNumber_pos {ids : List Int} (h : ∀ id ∈ ids, 0 < id) : 0 < nextNumber ids := by
  cases ids with
  | nil => decide
  | cons id ids => exact Int.lt_trans (h id List.mem_cons_self) (lt_nextNumber List.mem_cons_self)

/-- All mistakes have positive numbers. -/
def Numbered (db : Database) : Prop :=
  ∀ r ∈ db.mistakes, 0 < r.id

theorem Numbered.nextNumber_pos (h : db.Numbered) :
    0 < nextNumber (db.mistakes.map MistakeRow.id) := by
  refine Database.nextNumber_pos fun id hid => ?_
  obtain ⟨r, hr, rfl⟩ := List.mem_map.mp hid
  exact h r hr

theorem numbered_insertMistake (v : Mistake) : Preserves Numbered (insertMistake v) := by
  refine preserves_get_bind fun db h => preserves_bind (preserves_demand _) fun _ => ?_
  have hadd : ({ db with mistakes := db.mistakes ++
      [.ofMistake (nextNumber (db.mistakes.map MistakeRow.id)) v] } : Database).Numbered := by
    intro r hr
    cases List.mem_append.mp hr with
    | inl hr => exact h r hr
    | inr hr =>
      rw [List.mem_singleton.mp hr]
      exact h.nextNumber_pos
  split
  · exact preserves_bind (preserves_throw _) fun _ =>
      preserves_bind (preserves_set hadd) fun _ => preserves_pure _
  · exact preserves_bind (preserves_set hadd) fun _ => preserves_pure _

theorem numbered_updateMistake (id : MistakeId) (v : Mistake) :
    Preserves Numbered (updateMistake id v) := by
  refine preserves_bind (preserves_lift _) fun key => preserves_get_bind fun db h => ?_
  split
  · exact preserves_throw _
  case h_2 r hr =>
    refine preserves_bind (preserves_demand _) fun _ =>
      preserves_bind (preserves_set ?_) fun _ => preserves_pure _
    intro r' hr'
    obtain ⟨old, hold, rfl⟩ := List.mem_map.mp hr'
    split
    · exact h r (List.mem_of_find?_eq_some hr)
    · exact h old hold

theorem Numbered.of_sublist (h : db.Numbered) (hsub : db'.mistakes.Sublist db.mistakes) :
    db'.Numbered :=
  fun r hr => h r (hsub.subset hr)

theorem numbered_deleteMistake (id : MistakeId) : Preserves Numbered (deleteMistake id) := by
  refine preserves_bind (preserves_lift _) fun key => preserves_get_bind fun db h => ?_
  let kept : Database := { db with mistakes := db.mistakes.filter fun r => !(r.id == key) }
  have hkept : kept.Numbered := h.of_sublist List.filter_sublist
  split
  · exact preserves_bind (preserves_throw _) fun _ => preserves_set hkept
  · exact preserves_set hkept

theorem numbered_deleteMistakes (f : MistakeFilter) : Preserves Numbered (deleteMistakes f) :=
  preserves_get_bind fun _ h =>
    preserves_bind (preserves_set (h.of_sublist List.filter_sublist)) fun _ => preserves_pure _

theorem Numbered.commit_of_hasMistakes (h : db.Numbered)
    (ht : Preserves (HasMistakes db.mistakes) t) : (commit t db).2.Numbered := by
  have hsame : (commit t db).2.mistakes = db.mistakes := ht.commit rfl
  exact h.of_sublist (hsame ▸ List.Sublist.refl _)

theorem Numbered.serve (h : db.Numbered) (r : Request) : (Store.serve r db).2.Numbered := by
  show (Database.serve r db).2.Numbered
  cases r with
  | insertSession s => exact h.commit_of_hasMistakes (hasMistakes_insertSession s)
  | saveSession s => exact h.commit_of_hasMistakes (hasMistakes_saveSession s)
  | appendAnswer id a => exact h.commit_of_hasMistakes (hasMistakes_appendAnswer id a)
  | deleteSessions => exact h.commit_of_hasMistakes hasMistakes_deleteSessions
  | savePreferences p => exact h.commit_of_hasMistakes (hasMistakes_savePreferences p)
  | putMistake v =>
    simp only [Database.serve]
    split
    · exact (numbered_updateMistake _ v).commit h
    · exact (numbered_insertMistake v).commit h
  | deleteMistake id => exact (numbered_deleteMistake id).commit h
  | deleteMistakes f => exact (numbered_deleteMistakes f).commit h
  | getSession | listSessions | findMistake | getMistake | listMistakes | getPreferences
  | clearPreferences => exact h

theorem numbered_after_empty (rs : List Request) : (Store.after rs empty).Numbered :=
  Store.after_keeps (fun r _ _ h => h.serve r) fun _ hr => absurd hr List.not_mem_nil

theorem undamaged_after_empty (rs : List Request) : Undamaged Store.serve (Store.after rs empty) := by
  refine undamaged_of_numbers ?_ (Int.le_of_lt (numbered_after_empty rs).nextNumber_pos)
  rw [(sound_after_empty rs).nextNumber]
  omega

end Database

/-- Whatever requests were made of a store, one that is refused leaves it as it is. Of tables this holds
wherever the statements of these requests failed, and wherever its own do. -/
theorem undamaged_after :
    (∀ rs, Undamaged Store.serve (Store.after rs Memory.empty)) ∧
    (∀ rs, Undamaged Store.serve (Store.after rs Database.empty)) ∧
    (∀ turns faults, Undamaged (Database.serveDisturbed faults)
      (Database.afterDisturbed turns Database.empty)) ∧
    ∀ r db, Database.serveDisturbed Database.undisturbed r db = Store.serve r db := by
  refine ⟨fun rs => Memory.undamaged _, Database.undamaged_after_empty, fun turns faults => ?_,
    Database.serveDisturbed_undisturbed⟩
  obtain ⟨rs, hrs⟩ := Database.exists_after_eq_afterDisturbed turns Database.empty
  rw [hrs]
  exact Database.undamaged_serveDisturbed (Database.undamaged_after_empty rs) faults

/-- Requests that are refused, and a save that fails after the row of the session was written and its
answer was removed. -/
theorem undamaged_after_lesson :
    let answer : Answer := ⟨"17 + 25", "42", "32", .skill .twoDigitAddition, false, .zero, .epoch⟩
    let lesson : Session := { Session.start .mixed 1 .epoch with answers := [answer] }
    let ended : Session := { lesson with id := some ⟨1⟩, endedAt := some .epoch, completed := true }
    let uncounted : Mistake := { Mistake.first answer with id := some ⟨1⟩, count := 0 }
    let rs := [.insertSession lesson, .putMistake (.first answer)]
    let m := Store.after rs Memory.empty
    let db := Store.after rs Database.empty
    let faults : Database.Faults := fun n =>
      if n = 3 then some (.connection .offline, Database.empty) else none
    ((Store.serve (.appendAnswer ⟨1⟩ answer) m).1 = .error .conflict ∧
      (Store.serve (.appendAnswer ⟨1⟩ answer) m).2 = m) ∧
    ((Store.serve (.putMistake uncounted) db).1 = .error (.connection .constraint) ∧
      (Store.serve (.putMistake uncounted) db).2 = db) ∧
    (Store.serve (.saveSession ended) db).2 ≠ db ∧
    (Database.serveDisturbed faults (.saveSession ended) db).1 = .error (.connection .offline) ∧
      (Database.serveDisturbed faults (.saveSession ended) db).2 = db := by
  intro answer lesson ended uncounted rs m db faults
  have hfull : (Store.serve (.appendAnswer ⟨1⟩ answer) m).1 = .error .conflict := by decide
  have hzero : (Store.serve (.putMistake uncounted) db).1 = .error (.connection .constraint) := by
    decide +kernel
  have hoffline : (Database.serveDisturbed faults (.saveSession ended) db).1 =
      .error (.connection .offline) := by decide +kernel
  let turns := rs.map fun r => (Database.undisturbed, r)
  have hturns : Database.afterDisturbed turns Database.empty = db := by decide +kernel
  obtain ⟨hmemory, htables, hdisturbed, -⟩ := undamaged_after
  have hsaved := hdisturbed turns faults
  rw [hturns] at hsaved
  refine ⟨⟨hfull, hmemory rs _ _ _ (Prod.ext hfull rfl)⟩,
    ⟨hzero, htables rs _ _ _ (Prod.ext hzero rfl)⟩, by decide +kernel, hoffline, ?_⟩
  exact hsaved _ _ _ (Prod.ext hoffline rfl)

end MentalMath
