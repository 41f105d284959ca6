import MentalMath.Time.Instant

/-! Preferences of practice: how many questions a session has, and what the display does. The number
of questions is between 5 and 50. -/

namespace MentalMath

inductive PreferencesError where
  | questionsOutOfRange (questions : Nat)
  deriving DecidableEq, Repr

def PreferencesError.message : PreferencesError → String
  | .questionsOutOfRange n =>
    "questions per session must be between 5 and 50, got " ++ toString n

/-- The preferences of an installation. -/
structure Preferences where
  questions : Nat
  sound : Bool
  haptics : Bool
  autoSubmit : Bool
  createdAt : Instant
  updatedAt : Instant
  deriving DecidableEq, Repr

/-- A change of some preferences; what is missing stays. -/
structure PreferencesUpdate where
  questions : Option Nat
  sound : Option Bool
  haptics : Option Bool
  autoSubmit : Option Bool
  deriving DecidableEq, Repr

def PreferencesUpdate.isEmpty (u : PreferencesUpdate) : Bool :=
  u.questions.isNone && u.sound.isNone && u.haptics.isNone && u.autoSubmit.isNone

namespace Preferences

def minQuestions : Nat := 5

def maxQuestions : Nat := 50

def defaultQuestions : Nat := 20

/-- The preferences of a new installation. -/
def defaults (now : Instant) : Preferences :=
  ⟨defaultQuestions, true, true, true, now, now⟩

def checkQuestions (n : Nat) : Except PreferencesError Unit :=
  if minQuestions ≤ n ∧ n ≤ maxQuestions then .ok () else .error (.questionsOutOfRange n)

/-- Preferences rebuilt from what was stored. -/
def restore (questions : Nat) (sound haptics autoSubmit : Bool) (createdAt updatedAt : Instant) :
    Except PreferencesError Preferences := do
  checkQuestions questions
  return ⟨questions, sound, haptics, autoSubmit, createdAt, updatedAt⟩

/-- The preferences after an update. -/
def apply (p : Preferences) (u : PreferencesUpdate) (now : Instant) :
    Except PreferencesError Preferences := do
  if let some n := u.questions then checkQuestions n
  return { p with
    questions := u.questions.getD p.questions
    sound := u.sound.getD p.sound
    haptics := u.haptics.getD p.haptics
    autoSubmit := u.autoSubmit.getD p.autoSubmit
    updatedAt := now }

theorem checkQuestions_eq_ok_iff {n : Nat} :
    checkQuestions n = .ok () ↔ minQuestions ≤ n ∧ n ≤ maxQuestions := by
  simp only [checkQuestions]
  split <;> simp_all

end Preferences

end MentalMath
