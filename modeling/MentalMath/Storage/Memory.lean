import MentalMath.Storage.Program

/-! A store that holds its values as they are. Sessions and mistakes are kept in the order of their
numbers, which come from one count and are never given out twice. -/

namespace MentalMath

/-- A store that holds its values as they are. -/
structure Memory where
  /-- The sessions in the order of their numbers. -/
  sessions : List (SessionId × Session)
  /-- The mistakes in the order of their numbers. -/
  mistakes : List (MistakeId × Mistake)
  preferences : Option Preferences
  /-- The last number that was given out. -/
  lastNumber : Nat
  deriving DecidableEq, Repr

/-- Whether a session comes before another: the later start first, then the larger number. -/
def Session.newestFirst (a b : Session) : Bool :=
  b.startedAt < a.startedAt
    || (a.startedAt == b.startedAt
      && (b.id.map SessionId.value).getD 0 ≤ (a.id.map SessionId.value).getD 0)

/-- Whether a mistake comes before another: the later miss first, then the larger number. -/
def Mistake.newestFirst (a b : Mistake) : Bool :=
  b.lastAt < a.lastAt
    || (a.lastAt == b.lastAt
      && (b.id.map MistakeId.value).getD 0 ≤ (a.id.map MistakeId.value).getD 0)

namespace Memory

def empty : Memory := ⟨[], [], none, 0⟩

abbrev Answered (α : Type) := Except StorageError α × Memory

/-- The value under a key. -/
def lookup? {κ α : Type} [BEq κ] (k : κ) (entries : List (κ × α)) : Option α :=
  (entries.find? fun e => e.1 == k).map Prod.snd

/-- The entries with another value under a key. -/
def replace {κ α : Type} [BEq κ] (k : κ) (v : α) (entries : List (κ × α)) : List (κ × α) :=
  entries.map fun e => if e.1 == k then (k, v) else e

def insertSession (s : Session) (m : Memory) : Answered SessionId :=
  let id : SessionId := ⟨m.lastNumber + 1⟩
  (.ok id, { m with
    sessions := m.sessions ++ [(id, s.withId id)]
    lastNumber := m.lastNumber + 1 })

def saveSession (s : Session) (m : Memory) : Answered Unit :=
  match s.id with
  | none => (.error .notFound, m)
  | some id =>
    match lookup? id m.sessions with
    | none => (.error .notFound, m)
    | some _ => (.ok (), { m with sessions := replace id s m.sessions })

/-- Adds an answer to a stored session, if the session has room for it. -/
def appendAnswer (id : SessionId) (a : Answer) (m : Memory) : Answered Unit :=
  match lookup? id m.sessions with
  | none => (.error .notFound, m)
  | some s =>
    match s.record a with
    | .ok s => (.ok (), { m with sessions := replace id s m.sessions })
    | .error _ => (.error .conflict, m)

def getSession (id : SessionId) (m : Memory) : Answered Session :=
  match lookup? id m.sessions with
  | some s => (.ok s, m)
  | none => (.error .notFound, m)

def select (q : SessionQuery) (m : Memory) : List Session :=
  upTo q.limit (((m.sessions.map Prod.snd).filter q.admits).mergeSort Session.newestFirst)

/-- Stores a mistake: a new one unless its expression is known, or the one under its number. -/
def putMistake (v : Mistake) (m : Memory) : Answered MistakeId :=
  match v.id with
  | some id =>
    match lookup? id m.mistakes with
    | none => (.error .notFound, m)
    | some _ => (.ok id, { m with mistakes := replace id v m.mistakes })
  | none =>
    if m.mistakes.any fun e => e.2.expression == v.expression then (.error .conflict, m)
    else
      let id : MistakeId := ⟨m.lastNumber + 1⟩
      (.ok id, { m with
        mistakes := m.mistakes ++ [(id, v.withId id)]
        lastNumber := m.lastNumber + 1 })

def findMistake (expression : String) (m : Memory) : Option Mistake :=
  (m.mistakes.map Prod.snd).find? fun v => v.expression == expression

def listMistakes (f : MistakeFilter) (m : Memory) : List Mistake :=
  ((m.mistakes.map Prod.snd).filter f.admits).mergeSort Mistake.newestFirst

def deleteMistake (id : MistakeId) (m : Memory) : Answered Unit :=
  match lookup? id m.mistakes with
  | none => (.error .notFound, m)
  | some _ => (.ok (), { m with mistakes := m.mistakes.filter fun e => !(e.1 == id) })

def deleteMistakes (f : MistakeFilter) (m : Memory) : Answered Nat :=
  let kept := m.mistakes.filter fun e => !f.admits e.2
  (.ok (m.mistakes.length - kept.length), { m with mistakes := kept })

def serve : (r : Request) → Memory → Except StorageError r.Reply × Memory
  | .insertSession s, m => m.insertSession s
  | .saveSession s, m => m.saveSession s
  | .appendAnswer id a, m => m.appendAnswer id a
  | .getSession id, m => m.getSession id
  | .listSessions q, m => (.ok (m.select q), m)
  | .deleteSessions, m => (.ok m.sessions.length, { m with sessions := [] })
  | .findMistake expression, m => (.ok (m.findMistake expression), m)
  | .getMistake id, m =>
    match lookup? id m.mistakes with
    | some v => (.ok v, m)
    | none => (.error .notFound, m)
  | .putMistake v, m => m.putMistake v
  | .listMistakes f, m => (.ok (m.listMistakes f), m)
  | .deleteMistake id, m => m.deleteMistake id
  | .deleteMistakes f, m => m.deleteMistakes f
  | .getPreferences, m => (.ok m.preferences, m)
  | .savePreferences p, m => (.ok (), { m with preferences := some p })
  | .clearPreferences, m => (.ok (), { m with preferences := none })

instance : Store Memory := ⟨serve⟩

end Memory

end MentalMath
