import MentalMath.Mistake
import MentalMath.Storage.Error

/-! What can be asked of a store of sessions, mistakes and preferences, and what it answers if all
goes well. -/

namespace MentalMath

/-- Which sessions to list, the latest start first. -/
structure SessionQuery where
  completedOnly : Bool
  startedFrom : Option Instant
  category : Option Category
  limit : Option Nat
  deriving DecidableEq, Repr

namespace SessionQuery

def completed : SessionQuery := ⟨true, none, none, none⟩

/-- Whether a session is asked for, apart from the limit. -/
def admits (q : SessionQuery) (s : Session) : Bool :=
  (!q.completedOnly || s.completed)
    && q.startedFrom.all (fun t => decide (t ≤ s.startedAt))
    && q.category.all (· == s.category)

end SessionQuery

/-- The first entries of a list, or all of them without a limit. -/
def upTo {α : Type} (limit : Option Nat) (xs : List α) : List α :=
  match limit with
  | some n => xs.take n
  | none => xs

/-- A request to a store. -/
inductive Request where
  | insertSession (s : Session)
  | saveSession (s : Session)
  /-- Add an answer to a stored session. -/
  | appendAnswer (id : SessionId) (a : Answer)
  | getSession (id : SessionId)
  | listSessions (q : SessionQuery)
  | deleteSessions
  | findMistake (expression : String)
  | getMistake (id : MistakeId)
  /-- Store a mistake: a new one, or the one under its number. -/
  | putMistake (m : Mistake)
  | listMistakes (f : MistakeFilter)
  | deleteMistake (id : MistakeId)
  | deleteMistakes (f : MistakeFilter)
  | getPreferences
  | savePreferences (p : Preferences)
  | clearPreferences
  deriving DecidableEq, Repr

inductive RequestKind where
  | insertSession
  | saveSession
  | appendAnswer
  | getSession
  | listSessions
  | deleteSessions
  | findMistake
  | getMistake
  | putMistake
  | listMistakes
  | deleteMistake
  | deleteMistakes
  | getPreferences
  | savePreferences
  | clearPreferences
  deriving DecidableEq, Repr

namespace Request

/-- What a store answers to a request. Removals answer how much they removed. -/
abbrev Reply : Request → Type
  | .insertSession _ => SessionId
  | .saveSession _ => Unit
  | .appendAnswer _ _ => Unit
  | .getSession _ => Session
  | .listSessions _ => List Session
  | .deleteSessions => Nat
  | .findMistake _ => Option Mistake
  | .getMistake _ => Mistake
  | .putMistake _ => MistakeId
  | .listMistakes _ => List Mistake
  | .deleteMistake _ => Unit
  | .deleteMistakes _ => Nat
  | .getPreferences => Option Preferences
  | .savePreferences _ => Unit
  | .clearPreferences => Unit

def kind : Request → RequestKind
  | .insertSession _ => .insertSession
  | .saveSession _ => .saveSession
  | .appendAnswer _ _ => .appendAnswer
  | .getSession _ => .getSession
  | .listSessions _ => .listSessions
  | .deleteSessions => .deleteSessions
  | .findMistake _ => .findMistake
  | .getMistake _ => .getMistake
  | .putMistake _ => .putMistake
  | .listMistakes _ => .listMistakes
  | .deleteMistake _ => .deleteMistake
  | .deleteMistakes _ => .deleteMistakes
  | .getPreferences => .getPreferences
  | .savePreferences _ => .savePreferences
  | .clearPreferences => .clearPreferences

end Request

end MentalMath
