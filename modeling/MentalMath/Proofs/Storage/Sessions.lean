import MentalMath.Proofs.Session
import MentalMath.Storage.Program

/-! What a store has to do with its sessions, whatever it is made of. A store holds sessions under
numbers; the laws say what each request makes of them, also when it is refused. -/

namespace MentalMath

/-- Whether requests of a kind can write sessions. -/
def RequestKind.writesSessions : RequestKind → Bool
  | .insertSession | .saveSession | .appendAnswer | .deleteSessions => true
  | _ => false

/-- Whether a request leaves some stored sessions alone. -/
def Request.Spares (ids : List SessionId) : Request → Prop
  | .saveSession s => ∀ id, s.id = some id → id ∉ ids
  | .appendAnswer id _ => id ∉ ids
  | .deleteSessions => ids = []
  | _ => True

/-- The sessions of a store. -/
class SessionTable (σ : Type) where
  /-- The store before anything is stored. -/
  empty : σ
  /-- What holds of the store from its start on. -/
  Sound : σ → Prop
  /-- The numbers of the sessions in the order in which they were stored. -/
  numbers : σ → List SessionId
  /-- The store holds exactly a session under a number, whatever number the session itself has. -/
  Holds : σ → SessionId → Session → Prop
  /-- A session as the store returns it. -/
  shown : Session → Session

namespace SessionTable

variable {σ : Type} [SessionTable σ]

/-- What can come of storing a new session. -/
inductive Inserts (m : σ) (s : Session) : Except StorageError SessionId → σ → Prop
  | stored (id : SessionId) (m' : σ) (hnew : id ∉ numbers m)
      (hnumbers : numbers m' = numbers m ++ [id]) (hholds : Holds m' id s) : Inserts m s (.ok id) m'
  | refused (e : StorageError) : Inserts m s (.error e) m

/-- What can come of storing a session under its number. -/
inductive Saves (m : σ) (id : SessionId) (s : Session) : Except StorageError Unit → σ → Prop
  | stored (m' : σ) (hmem : id ∈ numbers m) (hholds : Holds m' id s) : Saves m id s (.ok ()) m'
  | refused (e : StorageError) (hmissing : e = .notFound → id ∉ numbers m) :
    Saves m id s (.error e) m

/-- What can come of adding an answer to the session under a number. -/
inductive Appends (m : σ) (id : SessionId) (a : Answer) : Except StorageError Unit → σ → Prop
  | stored (m' : σ) (hmem : id ∈ numbers m)
      (hholds : ∀ s, Holds m id s → ∃ s', s'.answers = s.answers ++ [a] ∧ Holds m' id s') :
    Appends m id a (.ok ()) m'
  | refused (e : StorageError) : Appends m id a (.error e) m

/-- Two stores answer the same when they are asked for sessions. -/
structure SameReplies [Store σ] (m m' : σ) : Prop where
  get : ∀ id, (Store.serve (.getSession id) m').1 = (Store.serve (.getSession id) m).1
  list : ∀ q, (Store.serve (.listSessions q) m').1 = (Store.serve (.listSessions q) m).1

end SessionTable

open SessionTable

/-- What the requests make of the sessions of a store. -/
class LawfulSessionTable (σ : Type) [Store σ] [SessionTable σ] : Prop where
  sound_empty : Sound (empty : σ)
  numbers_empty : numbers (empty : σ) = []
  sound_serve {m : σ} (r : Request) : Sound m → Sound (Store.serve r m).2
  nodup_numbers {m : σ} : Sound m → (numbers m).Nodup
  mem_numbers_iff {m : σ} {id : SessionId} : Sound m → (id ∈ numbers m ↔ ∃ s, Holds m id s)
  holds_withId {m : σ} {id : SessionId} {s : Session} (own : SessionId) :
    Holds m id s → Holds m id (s.withId own)
  holds_serve {m : σ} {r : Request} {id : SessionId} {s : Session} :
    Sound m → r.Spares [id] → Holds m id s → Holds (Store.serve r m).2 id s
  numbers_serve {m : σ} {r : Request} : Sound m → r.kind ≠ .insertSession →
    r.kind ≠ .deleteSessions → numbers (Store.serve r m).2 = numbers m
  numbers_delete {m : σ} : Sound m → numbers (Store.serve .deleteSessions m).2 = []
  inserts {m : σ} (s : Session) : Sound m →
    Inserts m s (Store.serve (.insertSession s) m).1 (Store.serve (.insertSession s) m).2
  saves {m : σ} {id : SessionId} {s : Session} : Sound m → s.id = some id →
    Saves m id s (Store.serve (.saveSession s) m).1 (Store.serve (.saveSession s) m).2
  appends {m : σ} (id : SessionId) (a : Answer) : Sound m →
    Appends m id a (Store.serve (.appendAnswer id a) m).1 (Store.serve (.appendAnswer id a) m).2
  get_of_holds {m : σ} {id : SessionId} {s : Session} : Sound m → Holds m id s → s.Coherent →
    (Store.serve (.getSession id) m).1 = .ok ((shown σ s).withId id)
  saves_again {m : σ} {id : SessionId} {s : Session} : Sound m → Holds m id s → s.id = some id →
    (Store.serve (.saveSession s) m).1 = .ok () ∧
      SameReplies m (Store.serve (.saveSession s) m).2

/-! Requests that write no session. -/

theorem Request.spares_of_other {r : Request} (hr : r.kind.writesSessions = false)
    (ids : List SessionId) : r.Spares ids := by
  cases r with
  | saveSession | appendAnswer | deleteSessions => cases hr
  | _ => exact True.intro

theorem LawfulSessionTable.numbers_of_other {σ : Type} [Store σ] [SessionTable σ]
    [LawfulSessionTable σ] {m : σ} {r : Request} (hm : Sound m)
    (hr : r.kind.writesSessions = false) : numbers (Store.serve r m).2 = numbers m := by
  apply numbers_serve hm
  · intro hi
    rw [hi] at hr
    cases hr
  · intro hd
    rw [hd] at hr
    cases hr

end MentalMath
