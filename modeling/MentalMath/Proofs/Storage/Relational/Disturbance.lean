import MentalMath.Proofs.Storage.Relational.Requests

/-! Requests that are disturbed. A request that writes sessions is made of several statements, which
work on tables of their own until the last one is done and these become the tables of the store. Any
statement may fail for reasons that are not in the tables, and the request then drops what it has done
so far. So a disturbed request does what it does otherwise, or it is refused and does nothing. -/

namespace MentalMath.Database

open Column

/-- The statements of a transaction. What one yields decides how the transaction goes on. -/
inductive Script (α : Type) : Type 1
  | done (a : α)
  | step {β : Type} (t : Transaction β) (next : β → Script α)

/-- Why the statement in a place fails, and what it leaves of the tables that it works on. The place
after the last statement is that of the commit. -/
abbrev Faults := Nat → Option (StorageError × Database)

/-- No statement fails but for what is in the tables. -/
def undisturbed : Faults :=
  fun _ => none

/-- The tables of a store, and those that an open transaction works on. -/
structure Connection where
  shared : Database
  own : Database

namespace Script

variable {α : Type}

/-- The transaction of the statements. -/
def transaction : Script α → Transaction α
  | .done a => pure a
  | .step t next => t >>= fun b => (next b).transaction

/-- Carries out the statements from a place on, then the commit. -/
def perform (faults : Faults) : Script α → Nat → Connection → Except StorageError α × Connection
  | .done a, n, c =>
    match faults n with
    | some (e, own) => (.error e, { c with own := own })
    | none => (.ok a, { c with shared := c.own })
  | .step t next, n, c =>
    match faults n with
    | some (e, own) => (.error e, { c with own := own })
    | none =>
      match t.run c.own with
      | .ok (b, own) => (next b).perform faults (n + 1) { c with own := own }
      | .error e => (.error e, c)

/-- Carries out the statements on tables, whose own copy is dropped if that fails. -/
def carryOut (faults : Faults) (script : Script α) (db : Database) :
    Except StorageError α × Database :=
  let (result, c) := script.perform faults 0 ⟨db, db⟩
  (result, c.shared)

/-- Until all is committed, nothing is shared. -/
theorem perform_cases (faults : Faults) (script : Script α) (n : Nat) (c : Connection) :
    (∃ e own, script.perform faults n c = (.error e, { c with own := own })) ∨
      ∃ a own, script.transaction.run c.own = .ok (a, own) ∧
        script.perform faults n c = (.ok a, ⟨own, own⟩) := by
  induction script generalizing n c with
  | done a =>
    cases hn : faults n with
    | some fault => exact .inl ⟨fault.1, fault.2, by simp only [perform, hn]⟩
    | none => exact .inr ⟨a, c.own, rfl, by simp only [perform, hn]⟩
  | step t next ih =>
    cases hn : faults n with
    | some fault => exact .inl ⟨fault.1, fault.2, by simp only [perform, hn]⟩
    | none =>
      cases ht : t.run c.own with
      | error e => exact .inl ⟨e, c.own, by simp only [perform, hn, ht]⟩
      | ok r =>
        obtain ⟨b, own⟩ := r
        have hstep : (step t next).perform faults n c =
            (next b).perform faults (n + 1) { c with own := own } := by
          simp only [perform, hn, ht]
        rw [hstep, transaction, run_bind_of_ok ht]
        exact ih b (n + 1) { c with own := own }

/-- A script is all carried out, or nothing of it is. -/
theorem carryOut_cases (faults : Faults) (script : Script α) (db : Database) :
    (∃ e, script.carryOut faults db = (.error e, db)) ∨
      script.carryOut faults db = commit script.transaction db := by
  obtain ⟨e, own, hperform⟩ | ⟨a, own, hrun, hperform⟩ := script.perform_cases faults 0 ⟨db, db⟩
  · exact .inl ⟨e, by rw [carryOut, hperform]⟩
  · exact .inr (by rw [carryOut, hperform, commit_of_ok hrun])

theorem perform_undisturbed (script : Script α) (n : Nat) (c : Connection) :
    ((script.perform undisturbed n c).1, (script.perform undisturbed n c).2.shared) =
      match script.transaction.run c.own with
      | .ok (a, own) => (.ok a, own)
      | .error e => (.error e, c.shared) := by
  induction script generalizing n c with
  | done a => rfl
  | step t next ih =>
    cases ht : t.run c.own with
    | error e => simp only [perform, undisturbed, ht, transaction, run_bind_of_error ht]
    | ok r =>
      simp only [perform, undisturbed, ht, transaction, run_bind_of_ok ht]
      exact ih r.1 (n + 1) { c with own := r.2 }

theorem carryOut_undisturbed (script : Script α) (db : Database) :
    script.carryOut undisturbed db = commit script.transaction db :=
  script.perform_undisturbed 0 ⟨db, db⟩

end Script

/-! ### The statements of the requests -/

section Scripts

variable {α : Type}

/-- Adds answers one after the other, then goes on. -/
def addingAnswers (key : Int) (rest : Script α) : Int → List Answer → Script α
  | _, [] => rest
  | position, a :: as => .step (insertAnswer key position a) fun _ =>
    addingAnswers key rest (position + 1) as

/-- Adds the row of a new session. -/
def insertHeader (s : Session) : Transaction Int := do
  let id := nextNumber ((← get).sessions.map SessionRow.id)
  if Text.maxSigned64 < id then throw (.connection .numberTooLarge)
  insertSessionRow (SessionRow.ofSession id s)
  return id

/-- The place of the next answer of a session. -/
def freePosition (key : Int) : Transaction Int := do
  let position := nextPosition ((← get).answerRows key)
  if Text.maxSigned64 < position then throw (.connection .numberTooLarge)
  return position

/-- Stores a new session: its row, then each answer. -/
def inserting (s : Session) : Script Int :=
  .step (insertHeader s) fun id => addingAnswers id (.done id) 0 s.answers

/-- Stores a session under its number: its row, then its answers in place of those that were there. -/
def saving (s : Session) : Script Unit :=
  match s.id with
  | none => .step (throw .notFound) .done
  | some id =>
    .step (liftM (ofId "session_id" id.value)) fun key =>
    .step (updateSessionRow (SessionRow.ofSession key s)) fun _ =>
    .step (deleteAnswers key) fun _ =>
    addingAnswers key (.done ()) 0 s.answers

/-- Adds an answer: it is counted, its place is read, then its row is added. -/
def appending (id : SessionId) (a : Answer) : Script Unit :=
  .step (liftM (ofId "session_id" id.value)) fun key =>
  .step (countAnswer key a) fun _ =>
  .step (freePosition key) fun position =>
  .step (insertAnswer key position a) .done

theorem transaction_addingAnswers (key : Int) (rest : Script α) (position : Int)
    (as : List Answer) : (addingAnswers key rest position as).transaction =
      insertAnswers key position as >>= fun _ => rest.transaction := by
  induction as generalizing position with
  | nil => rfl
  | cons a as ih =>
    simp only [addingAnswers, Script.transaction, insertAnswers, ih, bind_assoc]

theorem transaction_inserting (s : Session) : (inserting s).transaction = insertSession s := by
  simp only [inserting, Script.transaction, transaction_addingAnswers, insertHeader, insertSession,
    bind_assoc]
  refine bind_congr fun db => ?_
  split <;> simp only [bind_assoc, pure_bind]

theorem transaction_saving (s : Session) : (saving s).transaction = saveSession s := by
  cases hid : s.id with
  | none =>
    simp only [saving, saveSession, hid]
    rfl
  | some id =>
    simp only [saving, saveSession, hid, Script.transaction, transaction_addingAnswers,
      bind_pure_unit]

theorem transaction_appending (id : SessionId) (a : Answer) :
    (appending id a).transaction = appendAnswer id a := by
  simp only [appending, Script.transaction, freePosition, appendAnswer, bind_assoc]
  refine bind_congr fun key => bind_congr fun _ => bind_congr fun db => ?_
  split <;> simp only [bind_assoc, pure_bind, bind_pure]

end Scripts

/-! ### Requests -/

/-- Answers a request that is a single statement, or queries only. It has no effect if it fails. -/
def serveAtOnce (faults : Faults) (r : Request) (db : Database) :
    Except StorageError r.Reply × Database :=
  match faults 0 with
  | some (e, _) => (.error e, db)
  | none => serve r db

/-- Answers a request whose statements may fail. -/
def serveDisturbed (faults : Faults) :
    (r : Request) → Database → Except StorageError r.Reply × Database
  | .insertSession s, db =>
    numbered "session_id" SessionId.mk ((inserting s).carryOut faults db)
  | .saveSession s, db => (saving s).carryOut faults db
  | .appendAnswer id a, db => (appending id a).carryOut faults db
  | r, db => serveAtOnce faults r db

theorem serveDisturbed_undisturbed (r : Request) (db : Database) :
    serveDisturbed undisturbed r db = Store.serve r db := by
  cases r with
  | insertSession s =>
    rw [serveDisturbed, Script.carryOut_undisturbed, transaction_inserting]
    rfl
  | saveSession s =>
    rw [serveDisturbed, Script.carryOut_undisturbed, transaction_saving]
    rfl
  | appendAnswer id a =>
    rw [serveDisturbed, Script.carryOut_undisturbed, transaction_appending]
    rfl
  | _ => rfl

theorem serveAtOnce_cases (faults : Faults) (r : Request) (db : Database) :
    (∃ e, serveAtOnce faults r db = (.error e, db)) ∨
      serveAtOnce faults r db = Store.serve r db := by
  cases hfault : faults 0 with
  | some fault => exact .inl ⟨fault.1, by simp only [serveAtOnce, hfault]⟩
  | none => exact .inr (by simp only [serveAtOnce, hfault]; rfl)

/-- A disturbed request is refused and does nothing, or it does what it does undisturbed. -/
theorem serveDisturbed_cases (faults : Faults) (r : Request) (db : Database) :
    (∃ e, serveDisturbed faults r db = (.error e, db)) ∨
      serveDisturbed faults r db = Store.serve r db := by
  cases r with
  | insertSession s =>
    rcases (inserting s).carryOut_cases faults db with ⟨e, h⟩ | h
    · exact .inl ⟨e, by rw [serveDisturbed, h]; rfl⟩
    · refine .inr ?_
      rw [serveDisturbed, h, transaction_inserting]
      rfl
  | saveSession s =>
    rcases (saving s).carryOut_cases faults db with ⟨e, h⟩ | h
    · exact .inl ⟨e, h⟩
    · exact .inr (h.trans (by rw [transaction_saving]; rfl))
  | appendAnswer id a =>
    rcases (appending id a).carryOut_cases faults db with ⟨e, h⟩ | h
    · exact .inl ⟨e, h⟩
    · exact .inr (h.trans (by rw [transaction_appending]; rfl))
  | _ => exact serveAtOnce_cases faults _ db

/-- The tables after requests, each of which was disturbed in its own way. -/
def afterDisturbed (turns : List (Faults × Request)) (db : Database) : Database :=
  turns.foldl (fun db turn => (serveDisturbed turn.1 turn.2 db).2) db

/-- Disturbances lead to no tables that requests would not lead to without them. -/
theorem exists_after_eq_afterDisturbed (turns : List (Faults × Request)) (db : Database) :
    ∃ rs, afterDisturbed turns db = Store.after rs db := by
  induction turns generalizing db with
  | nil => exact ⟨[], rfl⟩
  | cons turn turns ih =>
    obtain ⟨rs, hrs⟩ := ih (serveDisturbed turn.1 turn.2 db).2
    rcases serveDisturbed_cases turn.1 turn.2 db with ⟨e, h⟩ | h
    · exact ⟨rs, hrs.trans (by rw [h])⟩
    · exact ⟨turn.2 :: rs, hrs.trans (by rw [h]; rfl)⟩

end MentalMath.Database
