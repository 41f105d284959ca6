import MentalMath.Proofs.Program
import MentalMath.Proofs.Storage.Memory
import MentalMath.Service.Notebook
import MentalMath.Service.Practice

/-! What can be done with the notebook of mistakes, and what it makes of a store that holds its values
as they are: a miss of a new expression adds an entry, and everything else changes entries where they
are or takes them out. -/

namespace MentalMath

namespace Notebook

inductive Operation where
  | miss (a : Answer)
  | list (f : MistakeFilter)
  | grouped (f : MistakeFilter)
  | counts
  | get (id : MistakeId)
  | retry (id : MistakeId) (input : String)
  | master (id : MistakeId)
  | clear (f : MistakeFilter)
  deriving DecidableEq, Repr

/-- What an operation returns if all goes well. -/
inductive Reply where
  | number (id : MistakeId)
  | mistakes (ms : List Mistake)
  | groups (gs : List MistakeGroup)
  | counts (c : MistakeCounts)
  | mistake (m : Mistake)
  | result (r : RetryResult)
  | removed (n : Nat)
  deriving DecidableEq, Repr

def Operation.program : Operation → StoreM Reply
  | .miss a => return .number (← Practice.recordMiss a)
  | .list f => return .mistakes (← Notebook.list f)
  | .grouped f => return .groups (← Notebook.grouped f)
  | .counts => return .counts (← Notebook.counts)
  | .get id => return .mistake (← Notebook.get id)
  | .retry id input => return .result (← Notebook.retry id input)
  | .master id => return .mistake (← Notebook.master id)
  | .clear f => return .removed (← Notebook.clear f)

variable {σ : Type} [Store σ]

/-- What a program that may fail returns on a store, and the store after it. -/
def perform {α : Type} (p : StoreM α) (s : σ) : Except StorageError α × σ :=
  p.run.run s

def operate (op : Operation) (s : σ) : Except StorageError Reply × σ :=
  perform op.program s

/-! ### Programs request by request -/

section Perform

variable {α β : Type} {p : StoreM α} {f : α → StoreM β} {s s' : σ}

theorem perform_bind_of_ok {a : α} (h : perform p s = (.ok a, s')) :
    perform (p >>= f) s = perform (f a) s' :=
  Program.run_bind_of_ok h

theorem perform_bind_of_error {e : StorageError} (h : perform p s = (.error e, s')) :
    perform (p >>= f) s = (.error e, s') :=
  Program.run_bind_of_error h

theorem perform_map {g : α → β} {r : Except StorageError α} (h : perform p s = (r, s')) :
    perform (do return g (← p)) s = (r.map g, s') := by
  cases r with
  | error e => exact perform_bind_of_error h
  | ok a => exact perform_bind_of_ok h

end Perform

section Requests

variable {a : Answer} {f : MistakeFilter} {id : MistakeId} {m : Mistake} {s s' : σ}

theorem operate_miss {known : Option Mistake} {r : Except StorageError MistakeId}
    (hfind : Store.serve (.findMistake a.expression) s = (.ok known, s))
    (hput : Store.serve (.putMistake (Mistake.afterMiss a known)) s = (r, s')) :
    operate (.miss a) s = (r.map .number, s') :=
  perform_map (p := Practice.recordMiss a) <|
    (perform_bind_of_ok (p := StoreM.request _) hfind).trans hput

theorem operate_list {r : Except StorageError (List Mistake)}
    (h : Store.serve (.listMistakes f) s = (r, s)) :
    operate (.list f) s = (r.map .mistakes, s) :=
  perform_map (p := list f) h

theorem operate_grouped {r : Except StorageError (List Mistake)}
    (h : Store.serve (.listMistakes f) s = (r, s)) :
    operate (.grouped f) s = ((r.map group).map .groups, s) :=
  perform_map (p := grouped f) (perform_map (p := list f) h)

/-- The numbers of all entries, of those that are not mastered and of those that are. -/
def count (ms : List Mistake) : MistakeCounts :=
  ⟨ms.length, ms.length - ms.countP Mistake.mastered, ms.countP Mistake.mastered⟩

theorem operate_counts {r : Except StorageError (List Mistake)}
    (h : Store.serve (.listMistakes .all) s = (r, s)) :
    operate .counts s = ((r.map count).map .counts, s) :=
  perform_map (p := counts) (perform_map (p := list .all) h)

theorem operate_get {r : Except StorageError Mistake}
    (h : Store.serve (.getMistake id) s = (r, s)) :
    operate (.get id) s = (r.map .mistake, s) :=
  perform_map (p := Notebook.get id) h

theorem operate_retry {r : Except StorageError Mistake} (input : String)
    (h : Store.serve (.getMistake id) s = (r, s)) : operate (.retry id input) s =
      ((r.map fun m => RetryResult.mk (m.retry input) m.correctAnswer).map .result, s) :=
  perform_map (p := Notebook.retry id input) (perform_map (p := Notebook.get id) h)

theorem operate_master_of_error {e : StorageError}
    (h : Store.serve (.getMistake id) s = (.error e, s)) :
    operate (.master id) s = (.error e, s) :=
  perform_map (p := Notebook.master id) (perform_bind_of_error (p := Notebook.get id) h)

theorem operate_master_of_mastered (h : Store.serve (.getMistake id) s = (.ok m, s))
    (hm : m.mastered = true) : operate (.master id) s = (.ok (.mistake m), s) := by
  refine perform_map (p := Notebook.master id) (r := .ok m) ?_
  refine (perform_bind_of_ok (p := Notebook.get id) h).trans ?_
  rw [if_pos hm]
  rfl

theorem operate_master {i : MistakeId} (h : Store.serve (.getMistake id) s = (.ok m, s))
    (hm : m.mastered = false) (hput : Store.serve (.putMistake m.master) s = (.ok i, s')) :
    operate (.master id) s = (.ok (.mistake m.master), s') := by
  refine perform_map (p := Notebook.master id) (r := .ok m.master) ?_
  refine (perform_bind_of_ok (p := Notebook.get id) h).trans ?_
  rw [if_neg (by rw [hm]; exact Bool.false_ne_true)]
  exact perform_bind_of_ok (p := StoreM.request _) hput

theorem operate_clear {r : Except StorageError Nat}
    (h : Store.serve (.deleteMistakes f) s = (r, s')) :
    operate (.clear f) s = (r.map .removed, s') :=
  perform_map (p := clear f) h

end Requests

end Notebook

end MentalMath
