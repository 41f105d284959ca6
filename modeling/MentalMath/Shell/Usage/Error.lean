import MentalMath.Shell.Usage.Parameter
import MentalMath.Text.Control
import MentalMath.Text.Numeral

/-! Why the arguments of the program are refused, and reading the value of a parameter. -/

namespace MentalMath.Shell

open Text

/-- Why a text is no value of a parameter. -/
inductive ValueFault where
  | numeral (e : NumeralError)
  /-- The number is no number of questions. -/
  | outOfRange (n : Int)
  | notListed
  | category
  | range
  | mistake
  deriving DecidableEq, Repr

/-- Why the arguments are refused. -/
inductive UsageError where
  /-- An option or a value is not known to the command. -/
  | unknownArgument (argument : String)
  | unknownCommand (name : String)
  | missingCommand
  /-- A value is missing from its place. -/
  | missingPlace (p : Parameter)
  | missingValue (p : Parameter)
  /-- A flag has a value. -/
  | strayValue (p : Parameter) (value : String)
  | repeated (p : Parameter)
  | invalidValue (p : Parameter) (value : String) (fault : ValueFault)
  deriving DecidableEq, Repr

/-- What is wrong with a text, as far as the message says it. -/
def ValueFault.reason (raw : String) : ValueFault → Option String
  | .numeral e => some e.message
  | .outOfRange n => some (toString n ++ " is not in " ++ toString Preferences.minQuestions ++ "..="
      ++ toString Preferences.maxQuestions)
  | .notListed => none
  | .category => some (Category.unknownMessage raw)
  | .range => some (HistoryRange.unknownMessage raw)
  | .mistake => some (MistakeId.invalidMessage raw)

/-- A text of the caller that is refused, as a terminal shows it. -/
def refused (s : String) : String := styled "33" s

/-- A name of the program, as a terminal shows it. -/
def known (s : String) : String := styled "1" s

def UsageError.message : UsageError → String
  | .unknownArgument argument => "unexpected argument '" ++ refused argument ++ "' found"
  | .unknownCommand name => "unrecognized subcommand '" ++ refused name ++ "'"
  | .missingCommand =>
    "'" ++ refused "quickcal" ++ "' requires a subcommand but one was not provided"
  | .missingPlace p =>
    "the following required arguments were not provided:\n  " ++ known p.form.text
  | .missingValue p =>
    "a value is required for '" ++ known p.form.text ++ "' but none was supplied"
  | .strayValue p value =>
    "unexpected value '" ++ refused value ++ "' for '" ++ known p.form.text
      ++ "' found; no more were expected"
  | .repeated p => "the argument '" ++ refused p.form.text ++ "' cannot be used multiple times"
  | .invalidValue p raw fault =>
    "invalid value '" ++ refused raw ++ "' for '" ++ known p.form.text ++ "'" ++
      match fault.reason raw with
      | some reason => ": " ++ reason
      | none => ""

def readQuestions (raw : String) : Except ValueFault Nat := do
  let n ← (readInt maxSigned64 raw).mapError .numeral
  if Preferences.minQuestions ≤ n ∧ n ≤ Preferences.maxQuestions then return n.toNat
  else throw (.outOfRange n)

/-- The texts that choose a filter. -/
def filterChoices : List (String × MistakeFilter) :=
  [("all", .all), ("not-mastered", .notMastered), ("mastered", .mastered)]

/-- The texts that choose yes or no. -/
def boolChoices : List (String × Bool) :=
  [("true", true), ("false", false)]

namespace Parameter

/-- The value that a text chooses from a list. An empty text counts as none. -/
def choose {α : Type} (p : Parameter) (choices : List (String × α)) (raw : String) :
    Except UsageError α :=
  match choices.lookup raw with
  | some value => .ok value
  | none =>
    if raw.isEmpty then .error (.missingValue p) else .error (.invalidValue p raw .notListed)

/-- The value that was found, or the fault of the text. -/
def found {α : Type} (p : Parameter) (raw : String) (fault : ValueFault) :
    Option α → Except UsageError α
  | some value => .ok value
  | none => .error (.invalidValue p raw fault)

/-- The value that was read, or the fault of the text. -/
def checked {α : Type} (p : Parameter) (raw : String) (result : Except ValueFault α) :
    Except UsageError α :=
  result.mapError (.invalidValue p raw)

/-- Reads the value of a parameter. -/
def read (p : Parameter) (raw : String) : Except UsageError p.Value :=
  match p with
  | .database | .attempt => .ok raw
  | .seed => checked .seed raw ((readNat maxUnsigned64 raw).mapError .numeral)
  | .count => checked .count raw (readQuestions raw)
  | .questions => checked .questions raw (readQuestions raw)
  | .category => found .category raw .category (Category.ofText? raw)
  | .only => found .only raw .category (Category.ofText? raw)
  | .filter => choose .filter filterChoices raw
  | .mistake => found .mistake raw .mistake (MistakeId.ofText? raw)
  | .range => found .range raw .range (HistoryRange.ofText? raw)
  | .sound => choose .sound boolChoices raw
  | .haptics => choose .haptics boolChoices raw
  | .autoSubmit => choose .autoSubmit boolChoices raw
  | .grouped | .yes | .help | .version => .ok ()

end Parameter

end MentalMath.Shell
