import MentalMath.Proofs.Storage.Relational.Requests

/-! What is read back of a session that was written to tables. Spans come back as whole milliseconds,
everything else comes back as it was, and what was read can be written again without a trace. -/

namespace MentalMath

open Column

/-! ### What is cut once stays as it is -/

theorem Column.ofSpan_cut (d : Span) : ofSpan d.cut = ofSpan d := by
  have hmillis : d.cut.wholeMillis = ofSpan d := Int.mul_tdiv_cancel _ (by decide)
  rw [ofSpan, hmillis]
  exact Int.max_eq_left (ofSpan_nonneg d)

theorem Span.cut_cut (d : Span) : d.cut.cut = d.cut := by
  apply Span.ext
  show ofSpan d.cut * 1000000 = ofSpan d * 1000000
  rw [ofSpan_cut]

theorem Answer.cut_regraded_cut (a : Answer) : a.regraded.cut.regraded.cut = a.regraded.cut := by
  simp only [regraded, cut, Span.cut_cut]

theorem Session.answers_regraded_cut (s : Session) :
    s.regraded.cut.regraded.cut.answers = s.regraded.cut.answers := by
  simp only [regraded, cut, List.map_map]
  exact List.map_congr_left fun a _ => a.cut_regraded_cut

theorem SessionRow.ofSession_regraded_cut (key : Int) (s : Session) :
    ofSession key s.regraded.cut = ofSession key s := by
  simp only [ofSession, Session.regraded, Session.cut, ofSpan_cut]

namespace Database

variable {db : Database} {id : SessionId} {s t : Session}

/-! ### Writing and reading -/

theorem Sound.get_inserted (h : db.Sound) (hs : s.Valid) (hcorrect : s.correct ≤ maxCount)
    (hinsert : (Store.serve (.insertSession s) db).1 = .ok id) :
    (Store.serve (.getSession id) (Store.serve (.insertSession s) db).2).1 =
      .ok (s.cut.withId id) := by
  have hw := h.writes_insertSession s
  generalize (Store.serve (.insertSession s) db).2 = db' at hw ⊢
  rw [hinsert] at hw
  cases hw with
  | inserted _ _ hx => exact Contains.getSession_eq_ok (hx.contains h) (hx.sound h) hs hcorrect
  | spared _ _ _ hw => cases hw

theorem Sound.get_saved (h : db.Sound) (hid : s.id = some id)
    (hthere : (db.sessionRow? id.value).isSome) (hs : s.Valid) (hcorrect : s.correct ≤ maxCount) :
    (Store.serve (.saveSession s) db).1 = .ok () ∧
      (Store.serve (.getSession id) (Store.serve (.saveSession s) db).2).1 =
        .ok (s.cut.withId id) := by
  obtain ⟨db', hserve, hx⟩ := h.serve_saveSession hid hthere
  rw [hserve]
  refine ⟨rfl, ?_⟩
  exact hx.contains.getSession_eq_ok (hx.sound h) hs hcorrect

theorem Sound.contains_of_get (h : db.Sound) (hget : db.getSession id = .ok t) :
    ∃ s, db.Contains id.value s ∧ s.Readable ∧ t = s.regraded.cut.withId id := by
  have hthere : (db.sessionRow? id.value).isSome := by
    obtain ⟨key, hkey, hrow⟩ := bind_eq_ok.mp hget
    cases eq_of_ofId hkey
    cases hr : db.sessionRow? id.value with
    | some r => rfl
    | none =>
      rw [hr] at hrow
      cases hrow
  obtain ⟨s, hc⟩ := h.exists_contains hthere
  exact ⟨s, hc, (hc.getSession_eq_ok_iff h).mp hget⟩

/-- Saving what was returned puts the same row and answers that read the same in the place of those
that were there, so no reply changes. -/
theorem Sound.sameReplies_of_get (h : db.Sound) (hget : db.getSession id = .ok t) :
    (Store.serve (.saveSession t) db).1 = .ok () ∧
      SessionTable.SameReplies db (Store.serve (.saveSession t) db).2 := by
  -- grading again and cutting leave no trace in a row or in what is read of one
  obtain ⟨s, hc, -, rfl⟩ := h.contains_of_get hget
  have hthere : (db.sessionRow? id.value).isSome := by
    rw [hc.row]
    rfl
  obtain ⟨db', hserve, hx⟩ := h.serve_saveSession (Session.withId_id _ id) hthere
  rw [hserve]
  refine ⟨rfl, hx.sameReplies h hc ?_ ?_⟩
  · exact SessionRow.ofSession_regraded_cut id.value s
  · exact Session.answers_regraded_cut s

/-- In all tables that can come about, a valid session is returned as it was inserted or saved, with
its spans cut to whole milliseconds, whatever was there before (there is always a number for a new
session short of 2^63 - 1 of them); and saving a session that was returned changes no reply. -/
theorem get_of_written (rs : List Request) (hs : s.Valid) (hcorrect : s.correct ≤ maxCount) :
    let db : Database := Store.after rs empty
    (db.sessions.length < Text.maxSigned64 → ∃ id, (Store.serve (.insertSession s) db).1 = .ok id) ∧
    (∀ id, (Store.serve (.insertSession s) db).1 = .ok id →
      (Store.serve (.getSession id) (Store.serve (.insertSession s) db).2).1 =
        .ok (s.cut.withId id)) ∧
    (∀ id, s.id = some id → (db.sessionRow? id.value).isSome →
      (Store.serve (.saveSession s) db).1 = .ok () ∧
        (Store.serve (.getSession id) (Store.serve (.saveSession s) db).2).1 =
          .ok (s.cut.withId id)) ∧
    ∀ id t, (Store.serve (.getSession id) db).1 = .ok t →
      (Store.serve (.saveSession t) db).1 = .ok () ∧
        SessionTable.SameReplies db (Store.serve (.saveSession t) db).2 := by
  intro db
  have h : db.Sound := sound_after_empty rs
  refine ⟨fun hroom => ?room, fun id hinsert => ?inserted, fun id hid hthere => ?saved,
    fun id t hget => ?again⟩
  case room =>
    obtain ⟨db', hserve, -⟩ := Sound.serve_insertSession h hroom s
    exact ⟨_, congrArg Prod.fst hserve⟩
  case inserted => exact h.get_inserted hs hcorrect hinsert
  case saved => exact h.get_saved hid hthere hs hcorrect
  case again => exact h.sameReplies_of_get hget

/-- A session of one answer is saved over one of two; what is left of a millisecond is lost, and so is
a negative span. -/
theorem get_of_written_shorter :
    let slow : Answer :=
      ⟨"17 + 25", "42", "42", .skill .twoDigitAddition, true, ⟨1500999999, by decide⟩, .epoch⟩
    let quick : Answer := { slow with userAnswer := "32", isCorrect := false, timeSpent := .zero }
    let long : Session := { Session.start .mixed 2 .epoch with answers := [slow, quick], correct := 1 }
    let short : Session := { long with
      id := some ⟨1⟩
      answers := [slow]
      totalTime := ⟨1500999999, by decide⟩
      averageTime := ⟨-1, by decide⟩ }
    let db : Database := Store.after [.insertSession long] empty
    short.Valid ∧ short.correct ≤ maxCount ∧ (Store.serve (.saveSession short) db).1 = .ok () ∧
      (Store.serve (.getSession ⟨1⟩) (Store.serve (.saveSession short) db).2).1 = .ok { short with
        answers := [{ slow with timeSpent := ⟨1500000000, by decide⟩ }]
        totalTime := ⟨1500000000, by decide⟩
        averageTime := .zero } := by
  intro slow quick long short db
  have hshort : short.Valid :=
    ⟨by decide, rfl, List.forall_mem_singleton.mpr rfl, fun _ he => nomatch he⟩
  have hcorrect : short.correct ≤ maxCount := by decide
  have hthere : (db.sessionRow? 1).isSome := by decide +kernel
  obtain ⟨-, -, hsaved, -⟩ := get_of_written [.insertSession long] hshort hcorrect
  obtain ⟨hsave, hget⟩ := hsaved ⟨1⟩ rfl hthere
  exact ⟨hshort, hcorrect, hsave, hget⟩

end Database

end MentalMath
