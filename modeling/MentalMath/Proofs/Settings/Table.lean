import MentalMath.Proofs.Storage.Relational.Reading
import MentalMath.Storage.Memory

/-! What a store has to do with preferences, whatever it is made of: it returns those that were stored
last, and keeps them while sessions and mistakes are removed. Values as they are take the place of
older ones. A row of a table keeps the time at which its first preferences were made. -/

namespace MentalMath

namespace Preferences

variable {p p' : Preferences}

/-- Whether the number of questions is one that preferences may have. -/
def InRange (p : Preferences) : Prop :=
  minQuestions ≤ p.questions ∧ p.questions ≤ maxQuestions

theorem inRange_defaults (now : Instant) : (defaults now).InRange := by
  show minQuestions ≤ defaultQuestions ∧ defaultQuestions ≤ maxQuestions
  decide

/-- Preferences are rebuilt as they are, if they are in range. -/
theorem restore_eq_ok_iff {questions : Nat} {sound haptics autoSubmit : Bool}
    {createdAt updatedAt : Instant} :
    restore questions sound haptics autoSubmit createdAt updatedAt = .ok p ↔
      p.InRange ∧ p = ⟨questions, sound, haptics, autoSubmit, createdAt, updatedAt⟩ := by
  cases hcheck : checkQuestions questions with
  | ok =>
    have hrange := checkQuestions_eq_ok_iff.mp hcheck
    have hrestore : restore questions sound haptics autoSubmit createdAt updatedAt =
        .ok ⟨questions, sound, haptics, autoSubmit, createdAt, updatedAt⟩ := by
      rw [restore, hcheck]
      rfl
    rw [hrestore]
    constructor
    · intro h
      obtain rfl := Except.ok.inj h
      exact ⟨hrange, rfl⟩
    · rintro ⟨-, rfl⟩
      rfl
  | error e =>
    have hrestore : restore questions sound haptics autoSubmit createdAt updatedAt = .error e := by
      rw [restore, hcheck]
      rfl
    rw [hrestore]
    constructor
    · exact fun h => nomatch h
    · rintro ⟨hrange, rfl⟩
      rw [checkQuestions_eq_ok_iff.mpr hrange] at hcheck
      cases hcheck

end Preferences

namespace Settings

/-- A store that returns these preferences, or says that it has none. -/
structure Holds {σ : Type} [Store σ] (m : σ) (p? : Option Preferences) : Prop where
  get : Store.serve .getPreferences m = (.ok p?, m)
  inRange : ∀ p ∈ p?, p.InRange

end Settings

open Settings (Holds)

class SettingsTable (σ : Type) where
  /-- What preferences become when they are stored in the place of others. -/
  instead : Option Preferences → Preferences → Preferences

open SettingsTable in
/-- What requests make of the preferences of a store. -/
class LawfulSettingsTable (σ : Type) [Store σ] [SettingsTable σ] : Prop where
  saves {m : σ} {p? : Option Preferences} {p : Preferences} : Holds m p? → p.InRange →
    ∃ m', Store.serve (.savePreferences p) m = (.ok (), m') ∧ Holds m' (some (instead σ p? p))
  clears {m : σ} {p? : Option Preferences} : Holds m p? →
    ∃ m', Store.serve .clearPreferences m = (.ok (), m') ∧ Holds m' none
  spares_sessions {m : σ} {p? : Option Preferences} : Holds m p? →
    ∃ n m', Store.serve .deleteSessions m = (.ok n, m') ∧ Holds m' p?
  spares_mistakes {m : σ} {p? : Option Preferences} (f : MistakeFilter) : Holds m p? →
    ∃ n m', Store.serve (.deleteMistakes f) m = (.ok n, m') ∧ Holds m' p?

/-! ### Values as they are -/

namespace Memory

theorem holds_iff {m : Memory} {p? : Option Preferences} :
    Holds m p? ↔ m.preferences = p? ∧ ∀ p ∈ p?, p.InRange := by
  constructor
  · rintro ⟨hget, hrange⟩
    exact ⟨Except.ok.inj (congrArg Prod.fst hget), hrange⟩
  · rintro ⟨rfl, hrange⟩
    exact ⟨rfl, hrange⟩

theorem holds_empty_none : Holds empty none :=
  holds_iff.mpr ⟨rfl, fun _ h => nomatch h⟩

theorem holds_of_preferences_eq {m m' : Memory} {p? : Option Preferences} (h : Holds m p?)
    (heq : m'.preferences = m.preferences) : Holds m' p? := by
  rw [holds_iff] at h ⊢
  rwa [heq]

instance : SettingsTable Memory := ⟨fun _ p => p⟩

instance : LawfulSettingsTable Memory where
  saves _ hp := ⟨_, rfl, holds_iff.mpr ⟨rfl, by rintro _ ⟨⟩; exact hp⟩⟩
  clears _ := ⟨_, rfl, holds_iff.mpr ⟨rfl, fun _ h => nomatch h⟩⟩
  spares_sessions h := ⟨_, _, rfl, holds_of_preferences_eq h rfl⟩
  spares_mistakes _ h := ⟨_, _, rfl, holds_of_preferences_eq h rfl⟩

end Memory

/-! ### Rows of tables -/

namespace PreferencesRow

open Column

variable {r : PreferencesRow} {p : Preferences} {t : Instant}

theorem isAdmissible_ofPreferences (h : p.InRange) : (ofPreferences p).isAdmissible = true := by
  obtain ⟨hmin, hmax⟩ := h
  rw [isAdmissible, Bool.and_eq_true, decide_eq_true_eq, decide_eq_true_eq]
  exact ⟨Int.ofNat_le.mpr hmin, Int.ofNat_le.mpr hmax⟩

/-- A row that is read yields preferences in range, which were made when its column says. -/
theorem of_read (h : r.read = .ok p) :
    p.InRange ∧ toInstant "created_at" r.createdAt = .ok p.createdAt := by
  obtain ⟨questions, -, h⟩ := bind_eq_ok.mp h
  obtain ⟨createdAt, hcreated, h⟩ := bind_eq_ok.mp h
  obtain ⟨updatedAt, -, h⟩ := bind_eq_ok.mp h
  cases hrestore : Preferences.restore questions (toBool r.sound) (toBool r.haptics)
      (toBool r.autoSubmit) createdAt updatedAt with
  | error e =>
    rw [hrestore] at h
    cases h
  | ok p' =>
    rw [hrestore] at h
    obtain rfl := Except.ok.inj h
    obtain ⟨hrange, hp⟩ := Preferences.restore_eq_ok_iff.mp hrestore
    rw [hp] at hrange ⊢
    exact ⟨hrange, hcreated⟩

/-- Preferences are read back from their row, except that they were made when its column says. -/
theorem read_ofPreferences (hp : p.InRange) {text : String}
    (ht : toInstant "created_at" text = .ok t) :
    ({ ofPreferences p with createdAt := text } : PreferencesRow).read =
      .ok { p with createdAt := t } := by
  have hcount : p.questions ≤ maxCount := Nat.le_trans hp.2 (by decide)
  have hrestore : Preferences.restore p.questions p.sound p.haptics p.autoSubmit t p.updatedAt =
      .ok { p with createdAt := t } :=
    Preferences.restore_eq_ok_iff.mpr ⟨hp, rfl⟩
  simp only [read, ofPreferences, toCount_natCast _ hcount, ht, toInstant_storedText, toBool_ofBool,
    hrestore, bind, Except.bind, pure, Except.pure]

end PreferencesRow

namespace Database

variable {db : Database} {p? : Option Preferences} {p : Preferences}

theorem holds_iff : Holds db p? ↔ db.preferences.mapM PreferencesRow.read = .ok p? := by
  constructor
  · rintro ⟨hget, -⟩
    exact congrArg Prod.fst hget
  · intro hread
    refine ⟨Prod.ext hread rfl, fun p hp => ?_⟩
    cases hrow : db.preferences with
    | none =>
      rw [hrow] at hread
      obtain rfl := Except.ok.inj hread
      cases hp
    | some r =>
      rw [hrow, Option.mapM_some] at hread
      obtain ⟨p', hr, hsome⟩ := Column.bind_eq_ok.mp hread
      obtain rfl := Except.ok.inj hsome
      obtain rfl := Option.mem_some.mp hp
      exact (PreferencesRow.of_read hr).1

theorem holds_empty_none : Holds empty none :=
  holds_iff.mpr rfl

theorem holds_of_preferences_eq {db' : Database} (h : Holds db p?)
    (heq : db'.preferences = db.preferences) : Holds db' p? := by
  rw [holds_iff] at h ⊢
  rwa [heq]

theorem holds_some {r : PreferencesRow} (hrow : db.preferences = some r) (hread : r.read = .ok p) :
    Holds db (some p) := by
  rw [holds_iff, hrow, Option.mapM_some, hread]
  rfl

/-- The row in which preferences are stored. -/
def rowInstead (r? : Option PreferencesRow) (p : Preferences) : PreferencesRow :=
  { PreferencesRow.ofPreferences p with
    createdAt := (r?.map PreferencesRow.createdAt).getD p.createdAt.storedText }

theorem serve_savePreferences (db : Database) (hp : p.InRange) :
    Store.serve (.savePreferences p) db =
      (.ok (), { db with preferences := some (rowInstead db.preferences p) }) := by
  have hrun : (savePreferences p).run db =
      .ok ((), { db with preferences := some (rowInstead db.preferences p) }) := by
    rw [savePreferences, run_get_bind,
      run_bind_of_ok (run_demand (PreferencesRow.isAdmissible_ofPreferences hp))]
    cases db.preferences with
    | none => rfl
    | some r => rfl
  exact commit_of_ok hrun

/-- When preferences that take the place of others say that they were made. -/
def madeAt (p? : Option Preferences) (p : Preferences) : Instant :=
  (p?.map Preferences.createdAt).getD p.createdAt

instance : SettingsTable Database := ⟨fun p? p => { p with createdAt := madeAt p? p }⟩

/-- Preferences that are stored in the place of others are read back, except that they were made when
the others were. -/
theorem read_rowInstead (h : Holds db p?) (hp : p.InRange) :
    (rowInstead db.preferences p).read = .ok { p with createdAt := madeAt p? p } := by
  rw [holds_iff] at h
  apply PreferencesRow.read_ofPreferences hp
  cases hrow : db.preferences with
  | none =>
    rw [hrow] at h
    obtain rfl := Except.ok.inj h
    exact Column.toInstant_storedText "created_at" p.createdAt
  | some r =>
    rw [hrow, Option.mapM_some] at h
    obtain ⟨old, hold, hsome⟩ := Column.bind_eq_ok.mp h
    obtain rfl := Except.ok.inj hsome
    exact (PreferencesRow.of_read hold).2

instance : LawfulSettingsTable Database where
  saves h hp := ⟨_, serve_savePreferences _ hp, holds_some rfl (read_rowInstead h hp)⟩
  clears _ := ⟨_, rfl, holds_iff.mpr rfl⟩
  spares_sessions h := ⟨_, _, rfl, holds_of_preferences_eq h rfl⟩
  spares_mistakes _ h := ⟨_, _, rfl, holds_of_preferences_eq h rfl⟩

end Database

end MentalMath
