import MentalMath.Category
import MentalMath.Preferences
import MentalMath.Session

/-! Why a store cannot answer: what was asked for is missing or already there, the store cannot be
reached or refuses a row, or what it holds cannot be read. -/

namespace MentalMath

/-- Why a store cannot carry out a request. -/
inductive ConnectionCause where
  | offline
  | constraint
  /-- The number of the next row is past 64 bits. -/
  | numberTooLarge
  deriving DecidableEq, Repr

/-- Why a stored value cannot be read or a value cannot be stored. -/
inductive SerializationCause where
  | idTooLarge (field : String)
  | idNegative (field : String)
  | count (field : String) (value : Int)
  | negativeSpan (field : String) (millis : Int)
  | category (raw : String)
  | session (e : SessionError)
  | preferences (e : PreferencesError)
  /-- A stored value is not of the kind of its column. -/
  | unreadable (column : String) (reason : String)
  deriving DecidableEq, Repr

/-- Why a store cannot answer. -/
inductive StorageError where
  | notFound
  /-- What was to be added is already there, or has no room. -/
  | conflict
  | connection (cause : ConnectionCause)
  | serialization (cause : SerializationCause)
  deriving DecidableEq, Repr

def ConnectionCause.message : ConnectionCause → String
  | .offline => "offline"
  | .constraint => "constraint failed"
  | .numberTooLarge => "number too large"

def SerializationCause.message : SerializationCause → String
  | .idTooLarge field => field ++ " overflow"
  | .idNegative field => field ++ " sign overflow"
  | .count field value => "invalid " ++ field ++ ": " ++ toString value
  | .negativeSpan field millis => "negative " ++ field ++ ": " ++ toString millis
  | .category raw => Category.unknownMessage raw
  | .session e => e.message
  | .preferences e => e.message
  | .unreadable column reason =>
    "error occurred while decoding column \"" ++ column ++ "\": " ++ reason

def StorageError.message : StorageError → String
  | .notFound => "not found"
  | .conflict => "conflict"
  | .connection cause => "connection error: " ++ cause.message
  | .serialization cause => "serialization error: " ++ cause.message

end MentalMath
