import MentalMath.Storage.Relational.Database

/-! Single columns of stored rows set by hand, past the programs that use the store. The rules of
the tables hold all the same: a column keeps its kind, numbers of rows and expressions stay unique,
and answers stay with a session that is there. -/

namespace MentalMath

/-- A value for a column. -/
inductive Cell where
  | null
  | integer (n : Int)
  | text (s : String)
  deriving DecidableEq, Repr

namespace Cell

/-- The value in a column of whole numbers. -/
def toInteger? : Cell → Option Int
  | .integer n => some n
  | _ => none

/-- The value in a column of texts. A number becomes its digits. -/
def toText? : Cell → Option String
  | .text s => some s
  | .integer n => some (toString n)
  | .null => none

/-- The value in a column of texts that may be empty. -/
def toOptionalText? : Cell → Option (Option String)
  | .null => some none
  | v => v.toText?.map some

end Cell

/-- The columns of the table of sessions. -/
def SessionRow.columns : List String :=
  ["id", "category", "total_questions", "correct_answers", "total_time_ms", "average_time_ms",
    "started_at", "ended_at", "is_completed"]

def AnswerRow.columns : List String :=
  ["id", "session_id", "position", "expression", "correct_answer", "user_answer", "category",
    "is_correct", "time_spent_ms", "answered_at"]

def MistakeRow.columns : List String :=
  ["id", "expression", "correct_answer", "user_answer", "category", "wrong_count",
    "first_wrong_at", "last_wrong_at", "is_mastered"]

def PreferencesRow.columns : List String :=
  ["id", "questions_per_session", "sound_enabled", "haptic_feedback_enabled",
    "auto_submit_enabled", "created_at", "updated_at"]

/-- The row with another value in one column, if the table has the column and it takes the value. -/
def SessionRow.set? (r : SessionRow) (column : String) (v : Cell) : Option SessionRow :=
  match column with
  | "id" => v.toInteger?.map fun n => { r with id := n }
  | "category" => v.toText?.map fun s => { r with category := s }
  | "total_questions" => v.toInteger?.map fun n => { r with total := n }
  | "correct_answers" => v.toInteger?.map fun n => { r with correct := n }
  | "total_time_ms" => v.toInteger?.map fun n => { r with totalMillis := n }
  | "average_time_ms" => v.toInteger?.map fun n => { r with averageMillis := n }
  | "started_at" => v.toText?.map fun s => { r with startedAt := s }
  | "ended_at" => v.toOptionalText?.map fun s => { r with endedAt := s }
  | "is_completed" => v.toInteger?.map fun n => { r with completed := n }
  | _ => none

def AnswerRow.set? (r : AnswerRow) (column : String) (v : Cell) : Option AnswerRow :=
  match column with
  | "id" => v.toInteger?.map fun n => { r with id := n }
  | "session_id" => v.toInteger?.map fun n => { r with sessionId := n }
  | "position" => v.toInteger?.map fun n => { r with position := n }
  | "expression" => v.toText?.map fun s => { r with expression := s }
  | "correct_answer" => v.toText?.map fun s => { r with correctAnswer := s }
  | "user_answer" => v.toText?.map fun s => { r with userAnswer := s }
  | "category" => v.toText?.map fun s => { r with category := s }
  | "is_correct" => v.toInteger?.map fun n => { r with isCorrect := n }
  | "time_spent_ms" => v.toInteger?.map fun n => { r with timeSpentMillis := n }
  | "answered_at" => v.toText?.map fun s => { r with answeredAt := s }
  | _ => none

def MistakeRow.set? (r : MistakeRow) (column : String) (v : Cell) : Option MistakeRow :=
  match column with
  | "id" => v.toInteger?.map fun n => { r with id := n }
  | "expression" => v.toText?.map fun s => { r with expression := s }
  | "correct_answer" => v.toText?.map fun s => { r with correctAnswer := s }
  | "user_answer" => v.toText?.map fun s => { r with userAnswer := s }
  | "category" => v.toText?.map fun s => { r with category := s }
  | "wrong_count" => v.toInteger?.map fun n => { r with count := n }
  | "first_wrong_at" => v.toText?.map fun s => { r with firstAt := s }
  | "last_wrong_at" => v.toText?.map fun s => { r with lastAt := s }
  | "is_mastered" => v.toInteger?.map fun n => { r with mastered := n }
  | _ => none

def PreferencesRow.set? (r : PreferencesRow) (column : String) (v : Cell) : Option PreferencesRow :=
  match column with
  | "id" => v.toInteger?.bind fun n => if n = 1 then some r else none
  | "questions_per_session" => v.toInteger?.map fun n => { r with questions := n }
  | "sound_enabled" => v.toInteger?.map fun n => { r with sound := n }
  | "haptic_feedback_enabled" => v.toInteger?.map fun n => { r with haptics := n }
  | "auto_submit_enabled" => v.toInteger?.map fun n => { r with autoSubmit := n }
  | "created_at" => v.toText?.map fun s => { r with createdAt := s }
  | "updated_at" => v.toText?.map fun s => { r with updatedAt := s }
  | _ => none

namespace Database

/-- The row after a change, or a failure if there is none. -/
def changed {α : Type} : Option α → Transaction α
  | some r => pure r
  | none => throw (.connection .constraint)

/-- Sets a column of a session. The number of a session with answers stays. -/
def patchSession (id : Int) (column : String) (v : Cell) : Transaction Nat := do
  let db ← get
  match db.sessionRow? id with
  | none => return 0
  | some old =>
    let new ← changed (old.set? column v)
    demand (new.isAdmissible && (new.id == id
      || ((db.sessionRow? new.id).isNone && (db.answerRows id).isEmpty)))
    let rows := db.sessions.map fun (r : SessionRow) => if r.id == id then new else r
    set { db with sessions := rows }
    return 1

def patchAnswer (id : Int) (column : String) (v : Cell) : Transaction Nat := do
  let db ← get
  match db.answers.find? fun r => r.id == id with
  | none => return 0
  | some old =>
    let new ← changed (old.set? column v)
    let clashes (r : AnswerRow) : Bool :=
      r.id != id
        && (r.id == new.id || (r.sessionId == new.sessionId && r.position == new.position))
    demand (new.isAdmissible && (db.sessionRow? new.sessionId).isSome && !db.answers.any clashes)
    let rows := db.answers.map fun (r : AnswerRow) => if r.id == id then new else r
    set { db with answers := rows }
    return 1

def patchMistake (id : Int) (column : String) (v : Cell) : Transaction Nat := do
  let db ← get
  match db.mistakeRow? id with
  | none => return 0
  | some old =>
    let new ← changed (old.set? column v)
    let clashes (r : MistakeRow) : Bool :=
      r.id != id && (r.id == new.id || r.expression == new.expression)
    demand (new.isAdmissible && !db.mistakes.any clashes)
    let rows := db.mistakes.map fun (r : MistakeRow) => if r.id == id then new else r
    set { db with mistakes := rows }
    return 1

/-- Sets a column of the preferences, which are under the number one. -/
def patchPreferences (id : Int) (column : String) (v : Cell) : Transaction Nat := do
  let db ← get
  match db.preferences with
  | none => return 0
  | some old =>
    if id = 1 then
      let new ← changed (old.set? column v)
      demand new.isAdmissible
      set { db with preferences := some new }
      return 1
    else return 0

/-- Carries out a change of a column, if it is one of the columns of the table. -/
def within (columns : List String) (column : String) (change : Transaction Nat) :
    Transaction Nat := do
  demand (columns.contains column)
  change

/-- Sets a column of the row under a number. The answer is how many rows there are to change. -/
def patch (table : String) (id : Int) (column : String) (v : Cell) : Transaction Nat :=
  match table with
  | "practice_sessions" => within SessionRow.columns column (patchSession id column v)
  | "submitted_answers" => within AnswerRow.columns column (patchAnswer id column v)
  | "wrong_answers" => within MistakeRow.columns column (patchMistake id column v)
  | "user_preferences" => within PreferencesRow.columns column (patchPreferences id column v)
  | _ => throw (.connection .constraint)

end Database

end MentalMath
