import MentalMath.Shell.Usage.Error

/-! The commands of the program, and the levels at which their names stand: the names at the top,
and those below the command for mistakes. Each level knows its parameters. -/

namespace MentalMath.Shell

/-- What the program is asked to do. -/
inductive Command where
  | categories
  | practice (category : Category) (count : Option Nat)
  | mistakes (filter : MistakeFilter) (grouped : Bool)
  | master (id : MistakeId)
  /-- Checks a new attempt at a mistake, which is asked for if it is missing. -/
  | retry (id : MistakeId) (attempt : Option String)
  | clear (filter : MistakeFilter)
  | history (range : HistoryRange) (category : Option Category)
  /-- Shows the preferences after a change, which may be empty. -/
  | settings (update : PreferencesUpdate)
  /-- Puts all data back to the start, after a question if it is not confirmed. -/
  | reset (confirmed : Bool)
  deriving DecidableEq, Repr

/-- A point in the arguments: after no name, or after the name of a command. -/
inductive Level where
  | top
  | categories
  | practice
  | mistakes
  | list
  | master
  | retry
  | clearMastered
  | clearAll
  | history
  | settings
  | reset
  /-- After `help`, at the top or below `mistakes`. -/
  | help
  deriving DecidableEq, Repr

namespace Level

/-- The names that may come next. -/
def names : Level → List (String × Level)
  | .top => [("categories", .categories), ("practice", .practice), ("mistakes", .mistakes),
      ("history", .history), ("settings", .settings), ("reset", .reset), ("help", .help)]
  | .mistakes => [("list", .list), ("master", .master), ("retry", .retry),
      ("clear-mastered", .clearMastered), ("clear-all", .clearAll), ("help", .help)]
  | _ => []

def below? (l : Level) (name : String) : Option Level :=
  l.names.lookup name

/-- The parameters of a level. -/
def parameters (l : Level) : List Parameter :=
  let own : List Parameter := match l with
    | .top => [.version]
    | .practice => [.category, .count]
    | .list => [.filter, .grouped]
    | .master => [.mistake]
    | .retry => [.mistake, .attempt]
    | .history => [.range, .only]
    | .settings => [.questions, .sound, .haptics, .autoSubmit]
    | .reset => [.yes]
    | _ => []
  own ++ [.database, .seed, .help]

/-- The parameters whose values stand in their places, in order. -/
def places (l : Level) : List Parameter :=
  l.parameters.filter fun p => p.form.isPlace

def named? (l : Level) (name : String) : Option Parameter :=
  l.parameters.find? fun p => p.form.isNamed name

def lettered? (l : Level) (letter : Char) : Option Parameter :=
  l.parameters.find? fun p => p.form.isLettered letter

/-- What a level is for, as help shows it. -/
def summary : Level → String
  | .top => "mental arithmetic practice"
  | .categories => "list the categories"
  | .practice => "practice at the terminal"
  | .mistakes => "look through the notebook of mistakes"
  | .list => "list entries"
  | .master => "mark an entry as mastered"
  | .retry => "answer an entry again"
  | .clearMastered => "remove mastered entries"
  | .clearAll => "remove all entries"
  | .history => "show completed sessions"
  | .settings => "show or change the settings"
  | .reset => "remove all sessions and mistakes and restore the settings"
  | .help => "show help"

/-- The command of a level with the settings that were given at it. -/
def command (l : Level) (given : List Setting) : Except UsageError Command :=
  match l with
  | .top | .help => .error .missingCommand
  | .categories => .ok .categories
  | .practice =>
    .ok (.practice ((setting? .category given).getD .mixed) (setting? .count given))
  | .mistakes => .ok (.mistakes .all true)
  | .list =>
    .ok (.mistakes ((setting? .filter given).getD .all) (setting? .grouped given).isSome)
  | .master =>
    match setting? .mistake given with
    | some id => .ok (.master id)
    | none => .error (.missingPlace .mistake)
  | .retry =>
    match setting? .mistake given with
    | some id => .ok (.retry id (setting? .attempt given))
    | none => .error (.missingPlace .mistake)
  | .clearMastered => .ok (.clear .mastered)
  | .clearAll => .ok (.clear .all)
  | .history =>
    .ok (.history ((setting? .range given).getD .default) (setting? .only given))
  | .settings => .ok (.settings ⟨setting? .questions given, setting? .sound given,
      setting? .haptics given, setting? .autoSubmit given⟩)
  | .reset => .ok (.reset (setting? .yes given).isSome)

end Level

end MentalMath.Shell
