import MentalMath.Mistake
import MentalMath.Preferences
import MentalMath.Service.History

/-! What a command can be given: how each parameter is written, and what its values are. A parameter
is an option with a value, a flag without one, or a value that stands in its place. -/

namespace MentalMath.Shell

/-- What a command can be given. -/
inductive Parameter where
  | database
  | seed
  | category
  | count
  | filter
  | grouped
  | mistake
  | attempt
  | range
  | only
  | questions
  | sound
  | haptics
  | autoSubmit
  | yes
  | help
  | version
  deriving DecidableEq, Repr

/-- How a parameter is written. -/
inductive Form where
  /-- A name after two dashes, or a letter after one, and a value. -/
  | option (name : String) (letter : Option Char)
  /-- A name after two dashes, or a letter after one. -/
  | flag (name : String) (letter : Option Char)
  /-- A value in its place, which must be there. -/
  | place (label : String)
  /-- A value in its place, which may be left out. -/
  | optionalPlace (label : String)
  deriving DecidableEq, Repr

/-- What the value of an option is called: its name in capitals of ASCII, with underscores. -/
def valueLabel (name : String) : String :=
  name.map fun c => if c = '-' then '_' else c.toUpper

namespace Form

def text : Form → String
  | .option name _ => "--" ++ name ++ " <" ++ valueLabel name ++ ">"
  | .flag name _ => "--" ++ name
  | .place label => "<" ++ label ++ ">"
  | .optionalPlace label => "[" ++ label ++ "]"

def isNamed (f : Form) (s : String) : Bool :=
  match f with
  | .option name _ | .flag name _ => name == s
  | _ => false

def isLettered (f : Form) (c : Char) : Bool :=
  match f with
  | .option _ letter | .flag _ letter => letter == some c
  | _ => false

def isPlace : Form → Bool
  | .place _ | .optionalPlace _ => true
  | _ => false

end Form

namespace Parameter

/-- How a parameter is written. -/
def form : Parameter → Form
  | .database => .option "db" none
  | .seed => .option "seed" none
  | .category => .optionalPlace "CATEGORY"
  | .count => .option "count" (some 'n')
  | .filter => .option "filter" none
  | .grouped => .flag "grouped" none
  | .mistake => .place "ID"
  | .attempt => .optionalPlace "ANSWER"
  | .range => .option "range" none
  | .only => .option "category" none
  | .questions => .option "questions" none
  | .sound => .option "sound" none
  | .haptics => .option "haptics" none
  | .autoSubmit => .option "auto-submit" none
  | .yes => .flag "yes" none
  | .help => .flag "help" (some 'h')
  | .version => .flag "version" (some 'V')

/-- What a parameter is for, as help shows it. -/
def summary : Parameter → String
  | .database => "where the database is"
  | .seed => "seed for problems that can be repeated"
  | .category => "slug of a category (default mixed)"
  | .count => "number of problems, 5 to 50 (default as in the settings)"
  | .filter => "all, not-mastered or mastered"
  | .grouped => "list the entries by category"
  | .mistake => "number of an entry"
  | .attempt => "answer to check; asked for if it is left out"
  | .range => "today, week, month or all"
  | .only => "only sessions of this category"
  | .questions => "questions per session, 5 to 50"
  | .sound => "true or false"
  | .haptics => "true or false"
  | .autoSubmit => "true or false"
  | .yes => "do not ask for confirmation"
  | .help => "show help"
  | .version => "show the version"

abbrev Value : Parameter → Type
  | .database | .attempt => String
  | .seed | .count | .questions => Nat
  | .category | .only => Category
  | .filter => MistakeFilter
  | .mistake => MistakeId
  | .range => HistoryRange
  | .sound | .haptics | .autoSubmit => Bool
  | .grouped | .yes | .help | .version => Unit

end Parameter

/-- A parameter with its value. -/
structure Setting where
  parameter : Parameter
  value : parameter.Value

/-- The value of a parameter in the first setting that is about it. -/
def setting? (p : Parameter) : List Setting → Option p.Value
  | [] => none
  | s :: rest => if h : s.parameter = p then some (h ▸ s.value) else setting? p rest

end MentalMath.Shell
