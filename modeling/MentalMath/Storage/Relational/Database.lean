import MentalMath.Storage.Program
import MentalMath.Storage.Relational.Row

/-! A store made of tables of rows. A new row gets the number after the largest one of its table, so
numbers at the end can be given out again. Statements that break a rule of a table fail, and a
transaction with a statement that fails has no effect at all. The rows of a session and those of its
answers are read by separate queries. -/

namespace MentalMath

/-- A store made of tables of rows. -/
structure Database where
  sessions : List SessionRow
  answers : List AnswerRow
  mistakes : List MistakeRow
  preferences : Option PreferencesRow
  deriving DecidableEq, Repr

namespace Database

open Column

def empty : Database := ⟨[], [], [], none⟩

/-- The number of the next row of a table, given the numbers of its rows. -/
def nextNumber : List Int → Int
  | [] => 1
  | id :: ids => ids.foldl max id + 1

/-- The place after the last one of some answers. -/
def nextPosition : List AnswerRow → Int
  | [] => 0
  | rows => nextNumber (rows.map AnswerRow.position)

/-- A sequence of statements. When one fails, what came before it is lost. -/
abbrev Transaction := StateT Database (Except StorageError)

/-- Carries out a transaction. One that fails has no effect. -/
def commit {α : Type} (t : Transaction α) (db : Database) : Except StorageError α × Database :=
  match t.run db with
  | .ok (a, db) => (.ok a, db)
  | .error e => (.error e, db)

/-- Refuses a row that breaks a rule of its table. -/
def demand (ok : Bool) : Transaction Unit :=
  if ok then pure () else throw (.connection .constraint)

/-! Queries. -/

def sessionRow? (id : Int) (db : Database) : Option SessionRow :=
  db.sessions.find? fun r => r.id == id

/-- The rows of the sessions of a query. -/
def sessionRows (q : SessionQuery) (db : Database) : List SessionRow :=
  upTo q.limit ((db.sessions.filter (SessionRow.isAskedFor q)).mergeSort SessionRow.newestFirst)

/-- The rows of the answers of a session, by their places. -/
def answerRows (sessionId : Int) (db : Database) : List AnswerRow :=
  (db.answers.filter fun r => r.sessionId == sessionId).mergeSort fun a b => a.position ≤ b.position

def answersOf (sessionId : Int) (db : Database) : Except StorageError (List Answer) :=
  (db.answerRows sessionId).mapM AnswerRow.read

/-- The session of a row, with the answers that the tables hold. -/
def readSession (r : SessionRow) (db : Database) : Except StorageError Session := do
  r.read (← db.answersOf r.id)

def getSession (id : SessionId) (db : Database) : Except StorageError Session := do
  let key ← ofId "session_id" id.value
  match db.sessionRow? key with
  | some r => db.readSession r
  | none => throw .notFound

def listSessions (q : SessionQuery) (db : Database) : Except StorageError (List Session) :=
  (db.sessionRows q).mapM fun r => db.readSession r

def mistakeRow? (id : Int) (db : Database) : Option MistakeRow :=
  db.mistakes.find? fun r => r.id == id

def findMistake (expression : String) (db : Database) : Except StorageError (Option Mistake) :=
  (db.mistakes.find? fun r => r.expression == expression).mapM MistakeRow.read

def getMistake (id : MistakeId) (db : Database) : Except StorageError Mistake := do
  let key ← ofId "wrong_answer_id" id.value
  match db.mistakeRow? key with
  | some r => r.read
  | none => throw .notFound

def listMistakes (f : MistakeFilter) (db : Database) : Except StorageError (List Mistake) :=
  ((db.mistakes.filter (MistakeRow.isShown f)).mergeSort MistakeRow.newestFirst).mapM
    MistakeRow.read

/-! Statements. -/

def insertSessionRow (r : SessionRow) : Transaction Unit := do
  demand r.isAdmissible
  modify fun db => { db with sessions := db.sessions ++ [r] }

/-- Replaces the row of a session, if there is one under its number. -/
def updateSessionRow (r : SessionRow) : Transaction Unit := do
  if ((← get).sessionRow? r.id).isNone then throw .notFound
  demand r.isAdmissible
  modify fun db =>
    { db with sessions := db.sessions.map fun old => if old.id == r.id then r else old }

/-- Adds the row of an answer. Its session must be there, and its place free. -/
def insertAnswerRow (r : AnswerRow) : Transaction Unit := do
  let db ← get
  demand (r.isAdmissible && (db.sessionRow? r.sessionId).isSome
    && !db.answers.any fun old => old.sessionId == r.sessionId && old.position == r.position)
  set { db with answers := db.answers ++ [r] }

/-- Adds an answer to a session at a place. -/
def insertAnswer (sessionId position : Int) (a : Answer) : Transaction Unit := do
  let id := nextNumber ((← get).answers.map AnswerRow.id)
  insertAnswerRow (AnswerRow.ofAnswer id sessionId position a)

/-- Adds answers to a session, from a place on. -/
def insertAnswers (sessionId : Int) (position : Int) : List Answer → Transaction Unit
  | [] => pure ()
  | a :: as => do
    insertAnswer sessionId position a
    insertAnswers sessionId (position + 1) as

def deleteAnswers (sessionId : Int) : Transaction Unit :=
  modify fun db => { db with answers := db.answers.filter fun r => !(r.sessionId == sessionId) }

/-- Adds one to the number of right answers of a session if an answer is right. -/
def countAnswer (sessionId : Int) (a : Answer) : Transaction Unit := do
  match (← get).sessionRow? sessionId with
  | none => throw .notFound
  | some r => updateSessionRow { r with correct := plusBool r.correct a.isCorrect }

/-! Transactions. -/

/-- Stores a new session with its answers. -/
def insertSession (s : Session) : Transaction Int := do
  let id := nextNumber ((← get).sessions.map SessionRow.id)
  if Text.maxSigned64 < id then throw (.connection .numberTooLarge)
  insertSessionRow (SessionRow.ofSession id s)
  insertAnswers id 0 s.answers
  return id

/-- Stores a session and its answers in place of what is under its number. -/
def saveSession (s : Session) : Transaction Unit := do
  match s.id with
  | none => throw .notFound
  | some id =>
    let key ← ofId "session_id" id.value
    updateSessionRow (SessionRow.ofSession key s)
    deleteAnswers key
    insertAnswers key 0 s.answers

/-- Adds an answer after the last one of a session. -/
def appendAnswer (id : SessionId) (a : Answer) : Transaction Unit := do
  let key ← ofId "session_id" id.value
  countAnswer key a
  let position := nextPosition ((← get).answerRows key)
  if Text.maxSigned64 < position then throw (.connection .numberTooLarge)
  insertAnswer key position a

/-- Removes all sessions, and their answers with them. -/
def deleteSessions : Transaction Nat := do
  let db ← get
  set { db with
    sessions := []
    answers := db.answers.filter fun r => (db.sessionRow? r.sessionId).isNone }
  return db.sessions.length

def insertMistake (m : Mistake) : Transaction Int := do
  let db ← get
  let r := MistakeRow.ofMistake (nextNumber (db.mistakes.map MistakeRow.id)) m
  demand r.isAdmissible
  if db.mistakes.any fun old => old.expression == r.expression then throw .conflict
  set { db with mistakes := db.mistakes ++ [r] }
  return r.id

/-- Stores a mistake in place of what is under its number. -/
def updateMistake (id : MistakeId) (m : Mistake) : Transaction MistakeId := do
  let key ← ofId "wrong_answer_id" id.value
  let db ← get
  match db.mistakeRow? key with
  | none => throw .notFound
  | some r =>
    demand (r.update m).isAdmissible
    let rows := db.mistakes.map fun (old : MistakeRow) => if old.id == key then r.update m else old
    set { db with mistakes := rows }
    return id

def deleteMistake (id : MistakeId) : Transaction Unit := do
  let key ← ofId "wrong_answer_id" id.value
  let db ← get
  if (db.mistakeRow? key).isNone then throw .notFound
  set { db with mistakes := db.mistakes.filter fun r => !(r.id == key) }

def deleteMistakes (f : MistakeFilter) : Transaction Nat := do
  let db ← get
  let kept := db.mistakes.filter fun r => !r.isShown f
  set { db with mistakes := kept }
  return db.mistakes.length - kept.length

/-- Stores preferences. The time when they were made stays that of the first ones. -/
def savePreferences (p : Preferences) : Transaction Unit := do
  let new := PreferencesRow.ofPreferences p
  let r := match (← get).preferences with
    | some old => { new with createdAt := old.createdAt }
    | none => new
  demand new.isAdmissible
  modify fun db => { db with preferences := some r }

/-! Requests. -/

/-- An answer that leaves the tables as they are. -/
def answer {α : Type} (query : Database → Except StorageError α) (db : Database) :
    Except StorageError α × Database :=
  (query db, db)

/-- The number of a row that was stored, if it is not negative. -/
def numbered {α : Type} (field : String) (mk : Nat → α) :
    Except StorageError Int × Database → Except StorageError α × Database
  | (result, db) => (result.bind fun id => (toId field id).map mk, db)

def serve : (r : Request) → Database → Except StorageError r.Reply × Database
  | .insertSession s, db => numbered "session_id" SessionId.mk (commit (insertSession s) db)
  | .saveSession s, db => commit (saveSession s) db
  | .appendAnswer id a, db => commit (appendAnswer id a) db
  | .getSession id, db => answer (getSession id) db
  | .listSessions q, db => answer (listSessions q) db
  | .deleteSessions, db => commit deleteSessions db
  | .findMistake expression, db => answer (findMistake expression) db
  | .getMistake id, db => answer (getMistake id) db
  | .putMistake m, db =>
    match m.id with
    | some id => commit (updateMistake id m) db
    | none => numbered "wrong_answer_id" MistakeId.mk (commit (insertMistake m) db)
  | .listMistakes f, db => answer (listMistakes f) db
  | .deleteMistake id, db => commit (deleteMistake id) db
  | .deleteMistakes f, db => commit (deleteMistakes f) db
  | .getPreferences, db => answer (fun db => db.preferences.mapM PreferencesRow.read) db
  | .savePreferences p, db => commit (savePreferences p) db
  | .clearPreferences, db => (.ok (), { db with preferences := none })

instance : Store Database := ⟨serve⟩

/-- A transaction that fails has no effect. -/
theorem commit_snd_of_error {α : Type} {t : Transaction α} {db : Database} {e : StorageError}
    (h : (commit t db).1 = .error e) : (commit t db).2 = db := by
  simp only [commit] at h ⊢
  split <;> simp_all

end Database

end MentalMath
