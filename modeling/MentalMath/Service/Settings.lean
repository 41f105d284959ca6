import MentalMath.Storage.Program

/-! The preferences of an installation, and putting all of its data back to the start. An
installation that stores no preferences has those of a new one. -/

namespace MentalMath

inductive SettingsError where
  | preferences (e : PreferencesError)
  | storage (e : StorageError)
  deriving DecidableEq, Repr

def SettingsError.message : SettingsError → String
  | .preferences e => e.message
  | .storage e => e.message

/-- What was removed when all data was put back to the start. -/
structure ResetSummary where
  sessions : Nat
  mistakes : Nat
  preferences : Preferences
  deriving DecidableEq, Repr

namespace Settings

def load (now : Instant) : StoreM Preferences := do
  return (← StoreM.request .getPreferences).getD (Preferences.defaults now)

/-- A program whose storage errors are those of settings. -/
def stored {α : Type} (m : StoreM α) : ExceptT SettingsError Program α :=
  ExceptT.mk (Except.mapError .storage <$> m.run)

/-- Changes the preferences. If none are stored, those of a new installation are made at one reading
of the clock; the change is made at the next. -/
def updateBetween (u : PreferencesUpdate) (asked changed : Instant) :
    ExceptT SettingsError Program Preferences := do
  let old ← stored (load asked)
  match old.apply u changed with
  | .error e => throw (.preferences e)
  | .ok new => do
    stored (StoreM.request (.savePreferences new))
    return new

/-- Changes the preferences while the clock stands still. -/
def update (u : PreferencesUpdate) (now : Instant) : ExceptT SettingsError Program Preferences :=
  updateBetween u now now

def restore (now : Instant) : StoreM Preferences := do
  StoreM.request (.savePreferences (Preferences.defaults now))
  return Preferences.defaults now

/-- Removes all sessions and mistakes, and puts the preferences back. -/
def resetAll (now : Instant) : StoreM ResetSummary := do
  let sessions ← StoreM.request .deleteSessions
  let mistakes ← StoreM.request (.deleteMistakes .all)
  let preferences ← restore now
  return ⟨sessions, mistakes, preferences⟩

end Settings

end MentalMath
