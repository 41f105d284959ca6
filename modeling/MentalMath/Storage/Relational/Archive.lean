import MentalMath.Storage.Relational.Database
import MentalMath.Text.Cut
import MentalMath.Text.Numeral

/-! The text form of a database, for keeping it in a file: a line for each row, with the name of the
table and the columns between tabs. Tabs and line ends inside a column are escaped, so a line is
read back as the columns that it was made of. -/

namespace MentalMath.Archive

open Text

/-- A character of a column. -/
def escape (c : Char) : List Char :=
  match c with
  | '\\' => ['\\', '\\']
  | '\t' => ['\\', 't']
  | '\n' => ['\\', 'n']
  | c => [c]

/-- The characters that were escaped. -/
def unescape? : List Char → Option (List Char)
  | [] => some []
  | '\\' :: '\\' :: cs => (unescape? cs).map ('\\' :: ·)
  | '\\' :: 't' :: cs => (unescape? cs).map ('\t' :: ·)
  | '\\' :: 'n' :: cs => (unescape? cs).map ('\n' :: ·)
  | c :: cs => if c = '\\' then none else (unescape? cs).map (c :: ·)

def lineOf (columns : List String) : String :=
  String.ofList (['\t'].intercalate (columns.map fun s => s.toList.flatMap escape))

def columns? (line : List Char) : Option (List String) :=
  (pieces '\t' line).mapM fun piece => (unescape? piece).map String.ofList

/-- The column of a text that may be missing. -/
def ofOptional : Option String → String
  | none => "-"
  | some s => "+" ++ s

/-- Reads a text that may be missing. -/
def toOptional? (s : String) : Option (Option String) :=
  match s.toList with
  | ['-'] => some none
  | '+' :: cs => some (some (String.ofList cs))
  | _ => none

def toInteger? (s : String) : Option Int :=
  (readInt maxSigned64 s).toOption

def ofSession (r : SessionRow) : List String :=
  ["session", toString r.id, r.category, toString r.total, toString r.correct,
    toString r.totalMillis, toString r.averageMillis, r.startedAt, ofOptional r.endedAt,
    toString r.completed]

def ofAnswer (r : AnswerRow) : List String :=
  ["answer", toString r.id, toString r.sessionId, toString r.position, r.expression,
    r.correctAnswer, r.userAnswer, r.category, toString r.isCorrect, toString r.timeSpentMillis,
    r.answeredAt]

def ofMistake (r : MistakeRow) : List String :=
  ["mistake", toString r.id, r.expression, r.correctAnswer, r.userAnswer, r.category,
    toString r.count, r.firstAt, r.lastAt, toString r.mastered]

def ofPreferences (r : PreferencesRow) : List String :=
  ["preferences", toString r.questions, toString r.sound, toString r.haptics,
    toString r.autoSubmit, r.createdAt, r.updatedAt]

/-- Adds the row that some columns are to its table. -/
def addRow (db : Database) : List String → Option Database
  | ["session", id, category, total, correct, time, average, started, ended, completed] => do
    let r : SessionRow := ⟨← toInteger? id, category, ← toInteger? total, ← toInteger? correct,
      ← toInteger? time, ← toInteger? average, started, ← toOptional? ended,
      ← toInteger? completed⟩
    return { db with sessions := db.sessions ++ [r] }
  | ["answer", id, session, position, expression, correct, user, category, right, time, at_] => do
    let r : AnswerRow := ⟨← toInteger? id, ← toInteger? session, ← toInteger? position, expression,
      correct, user, category, ← toInteger? right, ← toInteger? time, at_⟩
    return { db with answers := db.answers ++ [r] }
  | ["mistake", id, expression, correct, user, category, count, first, last, mastered] => do
    let r : MistakeRow := ⟨← toInteger? id, expression, correct, user, category,
      ← toInteger? count, first, last, ← toInteger? mastered⟩
    return { db with mistakes := db.mistakes ++ [r] }
  | ["preferences", questions, sound, haptics, autoSubmit, created, updated] => do
    let r : PreferencesRow := ⟨← toInteger? questions, ← toInteger? sound, ← toInteger? haptics,
      ← toInteger? autoSubmit, created, updated⟩
    return { db with preferences := some r }
  | _ => none

def write (db : Database) : String :=
  let rows := db.sessions.map ofSession ++ db.answers.map ofAnswer ++ db.mistakes.map ofMistake
    ++ (db.preferences.map ofPreferences).toList
  String.join (rows.map fun columns => lineOf columns ++ "\n")

def read? (s : String) : Option Database :=
  ((pieces '\n' s.toList).filter fun line => !line.isEmpty).foldlM
    (fun db line => (columns? line).bind (addRow db)) Database.empty

theorem unescape?_escape_append (c : Char) (cs : List Char) :
    unescape? (escape c ++ cs) = (unescape? cs).map (c :: ·) := by
  by_cases h1 : c = '\\'
  · subst h1
    rfl
  by_cases h2 : c = '\t'
  · subst h2
    rfl
  by_cases h3 : c = '\n'
  · subst h3
    rfl
  have h : escape c = [c] := by
    unfold escape
    split <;> simp_all
  rw [h, List.singleton_append, unescape?.eq_def]
  split <;> simp_all

/-- A column is read back as it was. -/
theorem unescape?_flatMap_escape (cs : List Char) : unescape? (cs.flatMap escape) = some cs := by
  induction cs with
  | nil => rfl
  | cons c cs ih => rw [List.flatMap_cons, unescape?_escape_append, ih, Option.map_some]

end MentalMath.Archive
