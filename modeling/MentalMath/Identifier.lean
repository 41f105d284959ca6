import MentalMath.Text.Cut
import MentalMath.Text.Numeral
import MentalMath.Text.Quoted

/-! The numbers by which stored sessions and notebook entries are found. They have 64 bits, are
typed as plain numbers, and name their kind only where a message needs it. -/

namespace MentalMath

open Text

/-- The number of a stored session. -/
structure SessionId where
  value : Nat
  deriving DecidableEq, Repr

/-- The number of a stored notebook entry. -/
structure MistakeId where
  value : Nat
  deriving DecidableEq, Repr

/-- The number that a text is, apart from blanks around it. -/
def readId? (s : String) : Option Nat :=
  (readNat maxUnsigned64 (trim s)).toOption

namespace SessionId

def kind : String := "session id"

def ofText? (s : String) : Option SessionId :=
  (readId? s).map SessionId.mk

def label (i : SessionId) : String :=
  kind ++ "#" ++ toString i.value

def invalidMessage (raw : String) : String :=
  "invalid " ++ kind ++ ": " ++ quote raw

end SessionId

namespace MistakeId

def kind : String := "wrong answer id"

def ofText? (s : String) : Option MistakeId :=
  (readId? s).map MistakeId.mk

def label (i : MistakeId) : String :=
  kind ++ "#" ++ toString i.value

def invalidMessage (raw : String) : String :=
  "invalid " ++ kind ++ ": " ++ quote raw

end MistakeId

end MentalMath
