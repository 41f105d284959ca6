import MentalMath.Proofs.Program
import MentalMath.Proofs.Settings.Table
import MentalMath.Service.Settings

/-! What can be done with preferences, and what it makes of those that a store holds. Changes say what
they make of the stored preferences, and store it; what is stored may still differ from it, as the
store has it. Only an update can be refused, for its number of questions. -/

namespace MentalMath

/-- Whether the number of questions of an update, if it has one, is one that preferences may have. -/
def PreferencesUpdate.InRange (u : PreferencesUpdate) : Prop :=
  ∀ n ∈ u.questions, Preferences.minQuestions ≤ n ∧ n ≤ Preferences.maxQuestions

instance (u : PreferencesUpdate) : Decidable u.InRange :=
  inferInstanceAs (Decidable (∀ n ∈ u.questions, _))

namespace Preferences

variable {p p' : Preferences} {u : PreferencesUpdate} {now : Instant}

/-- The preferences with the values of an update in the place of their own. -/
def updated (p : Preferences) (u : PreferencesUpdate) (now : Instant) : Preferences :=
  { p with
    questions := u.questions.getD p.questions
    sound := u.sound.getD p.sound
    haptics := u.haptics.getD p.haptics
    autoSubmit := u.autoSubmit.getD p.autoSubmit
    updatedAt := now }

/-- An update is refused only for its number of questions. -/
theorem apply_eq_ok_iff : p.apply u now = .ok p' ↔ u.InRange ∧ p' = p.updated u now := by
  cases hu : u.questions with
  | none =>
    have happly : p.apply u now = .ok (p.updated u now) := by
      simp only [apply, updated, hu]
      rfl
    have hrange : u.InRange := fun n hn => by
      rw [hu] at hn
      cases hn
    rw [happly]
    constructor
    · intro h
      exact ⟨hrange, (Except.ok.inj h).symm⟩
    · rintro ⟨-, rfl⟩
      rfl
  | some n =>
    have hiff : u.InRange ↔ checkQuestions n = .ok () := by
      rw [checkQuestions_eq_ok_iff, PreferencesUpdate.InRange, hu]
      simp
    have happly : p.apply u now = checkQuestions n >>= fun _ => .ok (p.updated u now) := by
      simp only [apply, updated, hu]
      rfl
    rw [hiff, happly]
    cases checkQuestions n with
    | error e =>
      constructor
      · exact fun h => nomatch h
      · exact fun h => nomatch h.1
    | ok =>
      constructor
      · intro h
        exact ⟨rfl, (Except.ok.inj h).symm⟩
      · rintro ⟨-, rfl⟩
        rfl

theorem InRange.updated (h : p.InRange) (hu : u.InRange) : (p.updated u now).InRange := by
  show minQuestions ≤ u.questions.getD p.questions ∧ u.questions.getD p.questions ≤ maxQuestions
  cases hn : u.questions with
  | none => exact h
  | some n => exact hu n hn

end Preferences

namespace Settings

inductive Change where
  | update (u : PreferencesUpdate) (asked changed : Instant)
  | restore (now : Instant)
  | resetAll (now : Instant)
  deriving DecidableEq, Repr

inductive Operation where
  | load (now : Instant)
  | change (c : Change)
  | clear
  deriving DecidableEq, Repr

/-- The program of a change, which returns the new preferences. -/
def Change.program : Change → ExceptT SettingsError Program Preferences
  | .update u asked changed => updateBetween u asked changed
  | .restore now => stored (Settings.restore now)
  | .resetAll now => ResetSummary.preferences <$> stored (Settings.resetAll now)

/-- What a change makes of the stored preferences. -/
def Change.made (p? : Option Preferences) : Change → Except PreferencesError Preferences
  | .update u asked changed => (p?.getD (Preferences.defaults asked)).apply u changed
  | .restore now => .ok (Preferences.defaults now)
  | .resetAll now => .ok (Preferences.defaults now)

section Run

variable {σ : Type} [Store σ]

/-- What a store loads. -/
def loaded (now : Instant) (m : σ) : Except StorageError Preferences :=
  ((load now).run.run m).1

def Change.reply (c : Change) (m : σ) : Except SettingsError Preferences :=
  (c.program.run.run m).1

def Operation.next (m : σ) : Operation → σ
  | .load now => ((Settings.load now).run.run m).2
  | .change c => (c.program.run.run m).2
  | .clear => (Store.serve .clearPreferences m).2

def after (ops : List Operation) (m : σ) : σ :=
  ops.foldl Operation.next m

theorem after_concat (ops : List Operation) (op : Operation) (m : σ) :
    after (ops ++ [op]) m = op.next (after ops m) := by
  rw [after, List.foldl_append]
  rfl

end Run

section Laws

open SettingsTable

variable {σ : Type} [Store σ] {m m' : σ} {p? : Option Preferences} {p : Preferences} {now : Instant}

theorem run_stored {α : Type} {q : StoreM α} {r : Except StorageError α} (h : q.run.run m = (r, m')) :
    (stored q).run.run m = (r.mapError .storage, m') := by
  show Program.run (q.run >>= _) m = _
  rw [Program.run_bind, h]
  rfl

theorem run_load (h : Holds m p?) (now : Instant) :
    (load now).run.run m = (.ok (p?.getD (Preferences.defaults now)), m) :=
  Program.run_bind_of_ok (p := StoreM.request .getPreferences) h.get

theorem loaded_of_holds (h : Holds m p?) (now : Instant) :
    loaded now m = .ok (p?.getD (Preferences.defaults now)) :=
  congrArg Prod.fst (run_load h now)

/-- What an update makes of the preferences of a store can be stored. -/
theorem inRange_of_apply {u : PreferencesUpdate} {asked changed : Instant} (h : Holds m p?)
    (happly : (p?.getD (Preferences.defaults asked)).apply u changed = .ok p) : p.InRange := by
  obtain ⟨hu, rfl⟩ := Preferences.apply_eq_ok_iff.mp happly
  refine Preferences.InRange.updated ?_ hu
  cases p? with
  | none => exact Preferences.inRange_defaults asked
  | some old => exact h.inRange old rfl

variable [SettingsTable σ] [LawfulSettingsTable σ]

open LawfulSettingsTable

theorem run_restore (h : Holds m p?) (now : Instant) :
    ∃ m', (Settings.restore now).run.run m = (.ok (Preferences.defaults now), m') ∧
      Holds m' (some (instead σ p? (Preferences.defaults now))) := by
  obtain ⟨m', hserve, hholds⟩ := saves h (Preferences.inRange_defaults now)
  exact ⟨m', Program.run_bind_of_ok (p := StoreM.request (.savePreferences _)) hserve, hholds⟩

theorem run_resetAll (h : Holds m p?) (now : Instant) :
    ∃ sessions mistakes m', (Settings.resetAll now).run.run m =
        (.ok ⟨sessions, mistakes, Preferences.defaults now⟩, m') ∧
      Holds m' (some (instead σ p? (Preferences.defaults now))) := by
  obtain ⟨sessions, m₁, hsessions, h₁⟩ := spares_sessions h
  obtain ⟨mistakes, m₂, hmistakes, h₂⟩ := spares_mistakes .all h₁
  obtain ⟨m', hrestore, hholds⟩ := run_restore h₂ now
  refine ⟨sessions, mistakes, m', ?_, hholds⟩
  rw [Settings.resetAll, Program.run_bind_of_ok (p := StoreM.request .deleteSessions) hsessions,
    Program.run_bind_of_ok (p := StoreM.request (.deleteMistakes .all)) hmistakes,
    Program.run_bind_of_ok hrestore]
  rfl

/-- A change is refused and leaves the store alone, or it returns what it makes of the preferences and
stores that. -/
theorem run_change (h : Holds m p?) (c : Change) :
    (∃ e, c.made p? = .error e ∧ c.program.run.run m = (.error (.preferences e), m)) ∨
      ∃ p m', c.made p? = .ok p ∧ c.program.run.run m = (.ok p, m') ∧
        Holds m' (some (instead σ p? p)) := by
  cases c with
  | update u asked changed =>
    have hload := run_stored (run_load h asked)
    cases happly : (p?.getD (Preferences.defaults asked)).apply u changed with
    | error e =>
      refine .inl ⟨e, happly, ?_⟩
      rw [Change.program, updateBetween, Program.run_bind_of_ok hload, happly]
      rfl
    | ok p =>
      obtain ⟨m', hserve, hholds⟩ := saves h (inRange_of_apply h happly)
      have hsave := run_stored (q := StoreM.request (.savePreferences p)) hserve
      refine .inr ⟨p, m', happly, ?_, hholds⟩
      rw [Change.program, updateBetween, Program.run_bind_of_ok hload]
      simp only [happly]
      rw [Program.run_bind_of_ok hsave]
      rfl
  | restore now =>
    obtain ⟨m', hrun, hholds⟩ := run_restore h now
    exact .inr ⟨_, m', rfl, run_stored hrun, hholds⟩
  | resetAll now =>
    obtain ⟨sessions, mistakes, m', hrun, hholds⟩ := run_resetAll h now
    exact .inr ⟨_, m', rfl, Program.run_bind_of_ok (run_stored hrun), hholds⟩

theorem reply_eq_ok_iff (h : Holds m p?) (c : Change) : c.reply m = .ok p ↔ c.made p? = .ok p := by
  obtain ⟨e, hmade, hrun⟩ | ⟨p', m', hmade, hrun, -⟩ := run_change h c
  · rw [Change.reply, hrun, hmade]
    constructor
    · exact fun h => nomatch h
    · exact fun h => nomatch h
  · rw [Change.reply, hrun, hmade]
    exact ⟨fun h => congrArg _ (Except.ok.inj h), fun h => congrArg _ (Except.ok.inj h)⟩

/-- The preferences that are stored after an operation, for a store with its own way to put new ones in
the place of those that it holds. -/
def Operation.leaves (instead : Option Preferences → Preferences → Preferences)
    (p? : Option Preferences) : Operation → Option Preferences
  | .load _ => p?
  | .change c =>
    match c.made p? with
    | .ok p => some (instead p? p)
    | .error _ => p?
  | .clear => none

theorem holds_next (h : Holds m p?) (op : Operation) :
    Holds (op.next m) (op.leaves (instead σ) p?) := by
  cases op with
  | load now =>
    rw [Operation.next, run_load h now]
    exact h
  | change c =>
    obtain ⟨e, hmade, hrun⟩ | ⟨p, m', hmade, hrun, hholds⟩ := run_change h c
    · simp only [Operation.next, Operation.leaves, hrun, hmade]
      exact h
    · simp only [Operation.next, Operation.leaves, hrun, hmade]
      exact hholds
  | clear =>
    obtain ⟨m', hserve, hholds⟩ := clears h
    rw [Operation.next, hserve]
    exact hholds

theorem holds_after (h : Holds m p?) (ops : List Operation) :
    Holds (after ops m) (ops.foldl (Operation.leaves (instead σ)) p?) := by
  induction ops generalizing m p? with
  | nil => exact h
  | cons op ops ih => exact ih (holds_next h op)

end Laws

end Settings

end MentalMath
