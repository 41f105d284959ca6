import MentalMath.Proofs.Settings.Loading

/-! What a store keeps of preferences, whatever is done with them. The number of questions stays in
its range, what is loaded is what was stored or the preferences of a new installation, and loading
leaves the store as it is. An update with a number of questions out of range leaves the store as it
is, with all that it names; any other update changes what it names and the time of the last change,
and nothing else of what would have been loaded. -/

namespace MentalMath

/-- A new value is the one that is given, or the old one if none is given. -/
structure Given {α : Type} (given? : Option α) (old new : α) : Prop where
  of_some : ∀ given ∈ given?, new = given
  of_none : given? = none → new = old

theorem given_getD {α : Type} (given? : Option α) (old : α) :
    Given given? old (given?.getD old) := by
  cases given? with
  | none => exact ⟨fun _ h => (nomatch h), fun _ => rfl⟩
  | some given => exact ⟨fun _ h => Option.some.inj h, fun h => nomatch h⟩

/-- New preferences are the old ones with what an update names, changed last at some time. -/
structure PreferencesUpdate.Turns (u : PreferencesUpdate) (now : Instant) (old new : Preferences) :
    Prop where
  questions : Given u.questions old.questions new.questions
  sound : Given u.sound old.sound new.sound
  haptics : Given u.haptics old.haptics new.haptics
  autoSubmit : Given u.autoSubmit old.autoSubmit new.autoSubmit
  createdAt : new.createdAt = old.createdAt
  updatedAt : new.updatedAt = now

namespace Preferences

variable {p p' : Preferences} {u : PreferencesUpdate} {now : Instant}

theorem turns_updated : u.Turns now p (p.updated u now) :=
  ⟨given_getD _ _, given_getD _ _, given_getD _ _, given_getD _ _, rfl, rfl⟩

/-- An update is refused with the number of questions that is out of range. -/
theorem apply_of_not_inRange (p : Preferences) (now : Instant) (h : ¬u.InRange) :
    ∃ n, u.questions = some n ∧ p.apply u now = .error (.questionsOutOfRange n) := by
  cases hu : u.questions with
  | none =>
    refine absurd (fun n hn => ?_) h
    rw [hu] at hn
    cases hn
  | some n =>
    have hn : ¬(minQuestions ≤ n ∧ n ≤ maxQuestions) := by
      intro hn
      apply h
      intro n' hn'
      rw [hu] at hn'
      cases hn'
      exact hn
    refine ⟨n, rfl, ?_⟩
    simp only [apply, hu, checkQuestions, if_neg hn]
    rfl

end Preferences

namespace Settings

open SettingsTable

/-- Preferences are kept as they should be: loading returns a number of questions in its range and
changes nothing, and an update is refused and changes nothing, or it makes of what would be loaded
what is loaded afterwards. -/
structure WellKept {σ : Type} [Store σ] (m : σ) : Prop where
  loads : ∀ now, ∃ p, (load now).run.run m = (.ok p, m) ∧ p.InRange
  refuses : ∀ u asked changed, ¬u.InRange → ∃ n, u.questions = some n ∧
    (updateBetween u asked changed).run.run m = (.error (.preferences (.questionsOutOfRange n)), m)
  updates : ∀ u asked changed, u.InRange → ∃ old new m', loaded asked m = .ok old ∧
    (updateBetween u asked changed).run.run m = (.ok new, m') ∧ u.Turns changed old new ∧
    ∀ now, loaded now m' = .ok new

/-- What is loaded is in range, whether it was stored or not. -/
theorem inRange_getD {p? : Option Preferences} (h : ∀ p ∈ p?, p.InRange) (now : Instant) :
    (p?.getD (Preferences.defaults now)).InRange := by
  cases p? with
  | none => exact Preferences.inRange_defaults now
  | some p => exact h p rfl

section Laws

variable {σ : Type} [Store σ] [SettingsTable σ] [LawfulSettingsTable σ] {m : σ}
  {p? : Option Preferences}

/-- A store keeps preferences well if it stores what an update makes of them as it is. -/
theorem Holds.wellKept (h : Holds m p?) (hinstead : ∀ u asked changed p,
    (Change.update u asked changed).made p? = .ok p → instead σ p? p = p) : WellKept m := by
  refine ⟨fun now => ⟨_, run_load h now, inRange_getD h.inRange now⟩, ?refuses, ?updates⟩
  case refuses =>
    intro u asked changed hu
    obtain ⟨n, hn, happly⟩ :=
      (p?.getD (Preferences.defaults asked)).apply_of_not_inRange changed hu
    refine ⟨n, hn, ?_⟩
    obtain ⟨e, hmade, hrun⟩ | ⟨p, m', hmade, -⟩ := run_change h (.update u asked changed)
    · obtain rfl := Except.error.inj (happly.symm.trans hmade)
      exact hrun
    · exact nomatch happly.symm.trans hmade
  case updates =>
    intro u asked changed hu
    have hmade : (Change.update u asked changed).made p? = .ok _ := made_update.mpr ⟨hu, rfl⟩
    obtain ⟨e, herror, -⟩ | ⟨p, m', hok, hrun, hholds⟩ := run_change h (.update u asked changed)
    · exact nomatch hmade.symm.trans herror
    · obtain rfl := Except.ok.inj (hmade.symm.trans hok)
      rw [hinstead u asked changed _ hmade] at hholds
      exact ⟨_, _, m', loaded_of_holds h asked, hrun, Preferences.turns_updated,
        fun now => loaded_of_holds hholds now⟩

end Laws

theorem wellKept_memory {m : Memory} {p? : Option Preferences} (h : Holds m p?) : WellKept m :=
  h.wellKept fun _ _ _ _ _ => rfl

theorem wellKept_database {db : Database} {p? : Option Preferences} (h : Holds db p?) :
    WellKept db :=
  h.wellKept fun _ _ _ _ hmade => (instead_eq_self_iff hmade).mpr True.intro

end Settings

theorem Column.eq_of_toCount {field : String} {n : Int} {k : Nat} (h : toCount field n = .ok k) :
    n = k := by
  rw [toCount] at h
  split at h
  case isTrue hn =>
    obtain rfl := Except.ok.inj h
    omega
  case isFalse => cases h

/-- A row that is read has the number of questions of the preferences. -/
theorem PreferencesRow.questions_of_read {r : PreferencesRow} {p : Preferences}
    (h : r.read = .ok p) : r.questions = p.questions := by
  obtain ⟨questions, hquestions, h⟩ := Column.bind_eq_ok.mp h
  obtain ⟨createdAt, -, h⟩ := Column.bind_eq_ok.mp h
  obtain ⟨updatedAt, -, h⟩ := Column.bind_eq_ok.mp h
  cases hrestore : Preferences.restore questions (Column.toBool r.sound) (Column.toBool r.haptics)
      (Column.toBool r.autoSubmit) createdAt updatedAt with
  | error e =>
    rw [hrestore] at h
    cases h
  | ok p' =>
    rw [hrestore] at h
    obtain rfl := Except.ok.inj h
    obtain ⟨-, rfl⟩ := Preferences.restore_eq_ok_iff.mp hrestore
    exact Column.eq_of_toCount hquestions

/-- Preferences that are read from a row are in range as the row has them. -/
theorem Database.inRange_of_row {db : Database} {p? : Option Preferences} (h : Settings.Holds db p?)
    {r : PreferencesRow} (hr : r ∈ db.preferences) :
    Preferences.minQuestions ≤ r.questions ∧ r.questions ≤ Preferences.maxQuestions := by
  have hmap := Database.holds_iff.mp h
  rw [Option.mem_def.mp hr, Option.mapM_some] at hmap
  obtain ⟨p, hread, hsome⟩ := Column.bind_eq_ok.mp hmap
  obtain rfl := Except.ok.inj hsome
  obtain ⟨hmin, hmax⟩ := h.inRange p rfl
  rw [PreferencesRow.questions_of_read hread]
  exact ⟨Int.ofNat_le.mpr hmin, Int.ofNat_le.mpr hmax⟩

namespace Settings

/-- From a store without preferences on, and whatever is done with preferences, both stores keep
them well, and the number of questions that they store is in its range. -/
theorem wellKept_after {m : Memory} {db : Database} (hm : Holds m none) (hdb : Holds db none)
    (ops : List Operation) :
    WellKept (after ops m) ∧ WellKept (after ops db) ∧
      (∀ p ∈ (after ops m).preferences, p.InRange) ∧
      ∀ r ∈ (after ops db).preferences,
        Preferences.minQuestions ≤ r.questions ∧ r.questions ≤ Preferences.maxQuestions := by
  have hm' := holds_after hm ops
  have hdb' := holds_after hdb ops
  refine ⟨wellKept_memory hm', wellKept_database hdb', ?_, ?_⟩
  · obtain ⟨hstored, hrange⟩ := Memory.holds_iff.mp hm'
    rw [hstored]
    exact hrange
  · exact fun r hr => Database.inRange_of_row hdb' hr

/-- The first update stores the preferences of a new installation with five questions. The next one
is refused for its number of questions, and its sound is not taken over either. -/
theorem wellKept_of_refused :
    let first : Instant := ⟨1700000000, 0, by decide, by decide⟩
    let later : Instant := ⟨1700000001, 0, by decide, by decide⟩
    let wide : PreferencesUpdate := ⟨some 51, some false, none, none⟩
    let ops : List Operation := [.change (.update ⟨some 5, none, none, none⟩ first later),
      .change (.update wide later later)]
    Holds Memory.empty none ∧ Holds Database.empty none ∧ WellKept (after ops Memory.empty) ∧
      (updateBetween wide later later).run.run (after ops Database.empty) =
        (.error (.preferences (.questionsOutOfRange 51)), after ops Database.empty) ∧
      loaded later (after ops Database.empty) =
        .ok { Preferences.defaults first with questions := 5, updatedAt := later } := by
  intro first later wide ops
  have hm := Memory.holds_empty_none
  have hdb := Database.holds_empty_none
  obtain ⟨hmemory, hdatabase, -, -⟩ := wellKept_after hm hdb ops
  obtain ⟨n, hn, hrefused⟩ := hdatabase.refuses wide later later (by decide)
  obtain rfl := Option.some.inj hn
  exact ⟨hm, hdb, hmemory, hrefused, loaded_of_holds (holds_after hdb ops) later⟩

end Settings

end MentalMath
