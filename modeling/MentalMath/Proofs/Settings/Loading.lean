import MentalMath.Proofs.Settings.Operation

/-! What is loaded after a change. A store that holds its values as they are loads what the change
returned. Tables load it with the time at which the stored preferences were first made; an update
returns that time too, but what puts the preferences back returns its own time. So the two agree
unless preferences are put back that were made at another time. -/

namespace MentalMath

namespace Settings

open SettingsTable

/-- Whether a change is granted. -/
def Change.Granted : Change → Prop
  | .update u _ _ => u.InRange
  | .restore _ => True
  | .resetAll _ => True

instance (c : Change) : Decidable c.Granted :=
  match c with
  | .update u _ _ => inferInstanceAs (Decidable u.InRange)
  | .restore _ => .isTrue True.intro
  | .resetAll _ => .isTrue True.intro

/-- When a change makes preferences, should none be stored. -/
def Change.asked : Change → Instant
  | .update _ asked _ => asked
  | .restore now => now
  | .resetAll now => now

/-- When the stored preferences were first made, after an operation. -/
def Operation.dates (t? : Option Instant) : Operation → Option Instant
  | .load _ => t?
  | .change c => if c.Granted then some (t?.getD c.asked) else t?
  | .clear => none

/-- Whether a change that puts the preferences back does so at the time when they were first made. -/
def Change.KeepsDate (t? : Option Instant) : Change → Prop
  | .update _ _ _ => True
  | .restore now => ∀ t ∈ t?, t = now
  | .resetAll now => ∀ t ∈ t?, t = now

/-- What a change returns after some operations, the next load returns. -/
def ReadsBack {σ : Type} [Store σ] (m : σ) (ops : List Operation) (c : Change) : Prop :=
  ∀ p now, c.reply (after ops m) = .ok p → loaded now (after (ops ++ [.change c]) m) = .ok p

variable {p? : Option Preferences} {p : Preferences} {c : Change}

theorem made_update {u : PreferencesUpdate} {asked changed : Instant} :
    (Change.update u asked changed).made p? = .ok p ↔
      u.InRange ∧ p = (p?.getD (Preferences.defaults asked)).updated u changed :=
  Preferences.apply_eq_ok_iff

/-- Whether a change is granted does not depend on the stored preferences. -/
theorem exists_made_iff : (∃ p, c.made p? = .ok p) ↔ c.Granted := by
  cases c with
  | update u asked changed =>
    constructor
    · rintro ⟨p, hp⟩
      exact (made_update.mp hp).1
    · exact fun hu => ⟨_, made_update.mpr ⟨hu, rfl⟩⟩
  | restore now => exact ⟨fun _ => True.intro, fun _ => ⟨_, rfl⟩⟩
  | resetAll now => exact ⟨fun _ => True.intro, fun _ => ⟨_, rfl⟩⟩

/-- New preferences were made when those in their place were, or when the change asked the clock. -/
theorem createdAt_of_made (h : c.made none = .ok p) : p.createdAt = c.asked := by
  cases c with
  | update u asked changed =>
    obtain ⟨-, rfl⟩ := made_update.mp h
    rfl
  | restore now =>
    obtain rfl := Except.ok.inj h
    rfl
  | resetAll now =>
    obtain rfl := Except.ok.inj h
    rfl

theorem keepsDate_of_not_granted {t? : Option Instant} (h : ¬c.Granted) : c.KeepsDate t? := by
  cases c with
  | update u asked changed => exact True.intro
  | restore now => exact absurd True.intro h
  | resetAll now => exact absurd True.intro h

section Dates

/-- Tables date the preferences that they hold as the operations do. -/
theorem createdAt_leaves (op : Operation) :
    (op.leaves (instead Database) p?).map Preferences.createdAt =
      op.dates (p?.map Preferences.createdAt) := by
  cases op with
  | load now => rfl
  | clear => rfl
  | change c =>
    rw [Operation.leaves, Operation.dates]
    cases hmade : c.made p? with
    | error e =>
      have hrefused : ¬c.Granted := by
        rw [← exists_made_iff, hmade]
        rintro ⟨p, ⟨⟩⟩
      rw [if_neg hrefused]
    | ok p =>
      have hgranted : c.Granted := exists_made_iff.mp ⟨p, hmade⟩
      rw [if_pos hgranted]
      cases p? with
      | none => exact congrArg some (createdAt_of_made hmade)
      | some old => rfl

theorem createdAt_foldl_leaves (ops : List Operation) :
    (ops.foldl (Operation.leaves (instead Database)) p?).map Preferences.createdAt =
      ops.foldl Operation.dates (p?.map Preferences.createdAt) := by
  induction ops generalizing p? with
  | nil => rfl
  | cons op ops ih => rw [List.foldl_cons, List.foldl_cons, ih, createdAt_leaves]

theorem withDate_eq_self_iff {t : Instant} : { p with createdAt := t } = p ↔ t = p.createdAt := by
  constructor
  · exact fun h => congrArg Preferences.createdAt h
  · rintro rfl
    rfl

theorem madeAt_defaults_iff {now : Instant} :
    Database.madeAt p? (Preferences.defaults now) = now ↔
      ∀ t ∈ p?.map Preferences.createdAt, t = now := by
  cases p? with
  | none => exact iff_of_true rfl fun _ ht => nomatch ht
  | some old =>
    constructor
    · rintro h t ⟨⟩
      exact h
    · exact fun h => h _ rfl

/-- Tables store what a change returns exactly if it keeps their date. -/
theorem instead_eq_self_iff (h : c.made p? = .ok p) :
    instead Database p? p = p ↔ c.KeepsDate (p?.map Preferences.createdAt) := by
  refine withDate_eq_self_iff.trans ?_
  cases c with
  | update u asked changed =>
    obtain ⟨-, rfl⟩ := made_update.mp h
    refine iff_of_true ?_ True.intro
    cases p? with
    | none => rfl
    | some old => rfl
  | restore now =>
    obtain rfl := Except.ok.inj h
    exact madeAt_defaults_iff
  | resetAll now =>
    obtain rfl := Except.ok.inj h
    exact madeAt_defaults_iff

end Dates

section Laws

variable {σ : Type} [Store σ] [SettingsTable σ] [LawfulSettingsTable σ] {m : σ}

/-- The next load returns what the store made of the preferences that the change returned. -/
theorem loaded_of_reply (h : Holds m p?) (ops : List Operation)
    (hreply : c.reply (after ops m) = .ok p) (now : Instant) :
    loaded now (after (ops ++ [.change c]) m) =
      .ok (instead σ (ops.foldl (Operation.leaves (instead σ)) p?) p) := by
  have hops := holds_after h ops
  have hnext := holds_next hops (.change c)
  have hmade := (reply_eq_ok_iff hops c).mp hreply
  rw [Operation.leaves, hmade] at hnext
  rw [after_concat]
  exact loaded_of_holds hnext now

theorem exists_reply_iff (h : Holds m p?) (ops : List Operation) (c : Change) :
    (∃ p, c.reply (after ops m) = .ok p) ↔ c.Granted := by
  rw [← exists_made_iff]
  exact exists_congr fun p => reply_eq_ok_iff (holds_after h ops) c

end Laws

/-- Tables read back what a change returns exactly if it keeps their date. -/
theorem readsBack_database_iff {db : Database} (h : Holds db p?) (ops : List Operation) (c : Change) :
    ReadsBack db ops c ↔
      c.KeepsDate (ops.foldl Operation.dates (p?.map Preferences.createdAt)) := by
  rw [← createdAt_foldl_leaves]
  have hmade : ∀ p, c.reply (after ops db) = .ok p →
      c.made (ops.foldl (Operation.leaves (instead Database)) p?) = .ok p :=
    fun p => (reply_eq_ok_iff (holds_after h ops) c).mp
  constructor
  · intro hback
    by_cases hgranted : c.Granted
    · obtain ⟨p, hreply⟩ := (exists_reply_iff h ops c).mpr hgranted
      have hloaded := hback p .epoch hreply
      rw [loaded_of_reply h ops hreply] at hloaded
      exact (instead_eq_self_iff (hmade p hreply)).mp (Except.ok.inj hloaded)
    · exact keepsDate_of_not_granted hgranted
  · intro hkeeps p now hreply
    rw [loaded_of_reply h ops hreply, (instead_eq_self_iff (hmade p hreply)).mpr hkeeps]

/-- Values as they are read back what every change returns. Tables return it as made when the stored
preferences were first made, going by the operations, which differs from what a change returned exactly
if it puts back preferences that were made at another time. Over both, all changes are granted but
updates to a number of questions out of range. -/
theorem readsBack_unless_redated {m : Memory} {db : Database} {p? q? : Option Preferences}
    (hm : Holds m p?) (hdb : Holds db q?) (ops : List Operation) (c : Change) :
    ReadsBack m ops c ∧
      (ReadsBack db ops c ↔
        c.KeepsDate (ops.foldl Operation.dates (q?.map Preferences.createdAt))) ∧
      (∀ p now, c.reply (after ops db) = .ok p →
        loaded now (after (ops ++ [.change c]) db) = .ok { p with
          createdAt :=
            (ops.foldl Operation.dates (q?.map Preferences.createdAt)).getD p.createdAt }) ∧
      ((∃ p, c.reply (after ops m) = .ok p) ↔ c.Granted) ∧
      ((∃ p, c.reply (after ops db) = .ok p) ↔ c.Granted) := by
  refine ⟨fun p now hreply => loaded_of_reply hm ops hreply now, readsBack_database_iff hdb ops c,
    fun p now hreply => ?_, exists_reply_iff hm ops c, exists_reply_iff hdb ops c⟩
  rw [loaded_of_reply hdb ops hreply now, ← createdAt_foldl_leaves]
  rfl

/-- Preferences are put back, and a second later again, or updated in between. -/
theorem readsBack_of_restored :
    let first : Instant := ⟨1700000000, 0, by decide, by decide⟩
    let later : Instant := ⟨1700000001, 0, by decide, by decide⟩
    let ops : List Operation := [.change (.restore first)]
    let u : PreferencesUpdate := ⟨some 5, none, some false, none⟩
    ReadsBack Memory.empty ops (.restore later) ∧
      ReadsBack Database.empty ops (.update u later later) ∧
      loaded later (after (ops ++ [.change (.restore later)]) Database.empty) =
        .ok { Preferences.defaults later with createdAt := first } := by
  intro first later ops u
  have hreply : Change.reply (.restore later) (after ops Database.empty) =
      .ok (Preferences.defaults later) :=
    (reply_eq_ok_iff (holds_after Database.holds_empty_none ops) _).mpr rfl
  obtain ⟨hmemory, -, hdatabase, -, -⟩ :=
    readsBack_unless_redated Memory.holds_empty_none Database.holds_empty_none ops (.restore later)
  obtain ⟨-, hupdate, -, -, -⟩ :=
    readsBack_unless_redated Memory.holds_empty_none Database.holds_empty_none ops
      (.update u later later)
  exact ⟨hmemory, hupdate.mpr True.intro, hdatabase _ later hreply⟩

/-- Tables keep the time of the first preferences while those that take their place claim another. -/
theorem not_readsBack_of_restored :
    let first : Instant := ⟨1700000000, 0, by decide, by decide⟩
    let later : Instant := ⟨1700000001, 0, by decide, by decide⟩
    ¬ReadsBack Database.empty [.change (.restore first)] (.restore later) := by
  intro first later hback
  have hkeeps := (readsBack_database_iff Database.holds_empty_none _ _).mp hback
  have hsame : first = later := hkeeps first rfl
  exact absurd hsame (by decide)

end Settings

end MentalMath
