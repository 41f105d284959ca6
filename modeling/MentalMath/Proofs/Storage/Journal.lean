import MentalMath.Proofs.Program
import MentalMath.Proofs.Storage.Sessions

/-! A store with a journal of the sessions that were written. The journal changes no reply. From it
and from the store before, it can be told what a client has done to the sessions: a request writes at
most one of them, under a number that is new or was in use, and leaves the others as they were. -/

namespace MentalMath

open SessionTable

/-- The number under which a request has written a session, going by its reply. -/
def Request.written? : (r : Request) → Except StorageError r.Reply → Option SessionId
  | .insertSession _, .ok id => some id
  | .saveSession s, .ok _ => s.id
  | .appendAnswer id _, .ok _ => some id
  | _, _ => none

/-- A store with the numbers under which sessions were written, in their order. -/
structure Journal (σ : Type) where
  store : σ
  written : List SessionId

namespace Journal

variable {σ : Type}

section Sessions

variable [SessionTable σ]

/-- The sessions are those of an earlier store, and nothing is written down. -/
structure Quiet (m : σ) (j : Journal σ) : Prop where
  sound : Sound j.store
  written : j.written = []
  kept : numbers j.store = numbers m
  holds : ∀ l s, Holds m l s → Holds j.store l s

/-- A session was added under a new number. -/
structure Inserted (m : σ) (id : SessionId) (j : Journal σ) : Prop where
  sound : Sound j.store
  written : j.written = [id]
  new : id ∉ numbers m
  added : numbers j.store = numbers m ++ [id]
  holds : ∀ l s, Holds m l s → Holds j.store l s

/-- The session under a number was written again, or an answer was added to it. -/
structure Rewritten (m : σ) (id : SessionId) (j : Journal σ) : Prop where
  sound : Sound j.store
  written : j.written = [id]
  there : id ∈ numbers m
  kept : numbers j.store = numbers m
  holds : ∀ l s, l ≠ id → Holds m l s → Holds j.store l s

theorem quiet_self {m : σ} (h : Sound m) : Quiet m ⟨m, []⟩ :=
  ⟨h, rfl, rfl, fun _ _ h => h⟩

end Sessions

variable [Store σ]

instance : Store (Journal σ) where
  serve r j :=
    let (reply, store) := Store.serve r j.store
    (reply, ⟨store, j.written ++ (r.written? reply).toList⟩)

theorem serve_eq (r : Request) (j : Journal σ) :
    Store.serve r j = ((Store.serve r j.store).1, ⟨(Store.serve r j.store).2,
      j.written ++ (r.written? (Store.serve r j.store).1).toList⟩) := rfl

/-- Programs do not notice the journal. -/
theorem run_store {α : Type} (p : Program α) (j : Journal σ) :
    (p.run j).1 = (p.run j.store).1 ∧ (p.run j).2.store = (p.run j.store).2 := by
  induction p generalizing j with
  | done a => exact ⟨rfl, rfl⟩
  | ask r next ih => exact ih _ (Store.serve r j).2

variable [SessionTable σ] [LawfulSessionTable σ] {m : σ} {j j' : Journal σ} {id : SessionId}
  {s : Session}

open LawfulSessionTable Program

/-- A request that writes no session leaves all of them as they are. -/
theorem keeps_of_other {r : Request} {reply : Except StorageError r.Reply}
    (ht : Served r j reply j') (hj : Sound j.store) (hr : r.kind.writesSessions = false) :
    j'.written = j.written ∧ numbers j'.store = numbers j.store ∧
      ∀ l s, Holds j.store l s → Holds j'.store l s := by
  cases ht
  have hnone : r.written? (Store.serve r j.store).1 = none := by
    cases r with
    | insertSession | saveSession | appendAnswer => cases hr
    | _ => rfl
  refine ⟨?_, numbers_of_other hj hr, fun l s hl => holds_serve hj (r.spares_of_other hr [l]) hl⟩
  show j.written ++ (r.written? (Store.serve r j.store).1).toList = j.written
  rw [hnone, Option.toList_none, List.append_nil]

theorem sound_of_served {r : Request} {reply : Except StorageError r.Reply}
    (ht : Served r j reply j') (hj : Sound j.store) : Sound j'.store := by
  cases ht
  exact sound_serve r hj

theorem Quiet.other {r : Request} {reply : Except StorageError r.Reply} (h : j.Quiet m)
    (ht : Served r j reply j') (hr : r.kind.writesSessions = false) : j'.Quiet m := by
  obtain ⟨hwritten, hnumbers, hholds⟩ := keeps_of_other ht h.sound hr
  exact ⟨sound_of_served ht h.sound, hwritten.trans h.written, hnumbers.trans h.kept,
    fun l s hl => hholds l s (h.holds l s hl)⟩

theorem Inserted.other {r : Request} {reply : Except StorageError r.Reply} (h : j.Inserted m id)
    (ht : Served r j reply j') (hr : r.kind.writesSessions = false) : j'.Inserted m id := by
  obtain ⟨hwritten, hnumbers, hholds⟩ := keeps_of_other ht h.sound hr
  exact ⟨sound_of_served ht h.sound, hwritten.trans h.written, h.new, hnumbers.trans h.added,
    fun l s hl => hholds l s (h.holds l s hl)⟩

theorem Rewritten.other {r : Request} {reply : Except StorageError r.Reply} (h : j.Rewritten m id)
    (ht : Served r j reply j') (hr : r.kind.writesSessions = false) : j'.Rewritten m id := by
  obtain ⟨hwritten, hnumbers, hholds⟩ := keeps_of_other ht h.sound hr
  exact ⟨sound_of_served ht h.sound, hwritten.trans h.written, h.there, hnumbers.trans h.kept,
    fun l s hne hl => hholds l s (h.holds l s hne hl)⟩

/-- A new session gets a new number, or nothing happens. -/
theorem Quiet.insertSession {reply : Except StorageError (Request.insertSession s).Reply}
    (h : j.Quiet m) (ht : Served (.insertSession s) j reply j') :
    (∃ id, reply = .ok id ∧ j'.Inserted m id ∧ Holds j'.store id s) ∨
      ∃ e, reply = .error e ∧ j'.Quiet m := by
  have hkeeps : ∀ l s', Holds j.store l s' → Holds (Store.serve (.insertSession s) j.store).2 l s' :=
    fun l s' hl => holds_serve (r := .insertSession s) h.sound True.intro hl
  have hsound := sound_serve (.insertSession s) h.sound
  have hcases := inserts s h.sound
  rw [Served, serve_eq] at ht
  generalize (Store.serve (.insertSession s) j.store).1 = result,
    (Store.serve (.insertSession s) j.store).2 = m' at hcases hkeeps hsound ht
  cases ht
  cases hcases with
  | stored id _ hnew hnumbers hholds =>
    left
    refine ⟨id, rfl, ⟨hsound, ?_, h.kept ▸ hnew, ?_, fun l s' hl => ?_⟩, hholds⟩
    · rw [h.written]
      rfl
    · rw [← h.kept]
      exact hnumbers
    · exact hkeeps l s' (h.holds l s' hl)
  | refused e =>
    right
    refine ⟨e, rfl, hsound, ?_, h.kept, h.holds⟩
    rw [h.written]
    rfl

/-- A session is written again under a number that is in use, or nothing happens. -/
theorem Quiet.saveSession {reply : Except StorageError (Request.saveSession s).Reply}
    (h : j.Quiet m) (hid : s.id = some id) (ht : Served (.saveSession s) j reply j') :
    (reply = .ok () ∧ j'.Rewritten m id ∧ Holds j'.store id s) ∨
      ∃ e, reply = .error e ∧ (e = .notFound → id ∉ numbers m) ∧ j'.Quiet m := by
  have hspares : ∀ l, l ≠ id → (Request.saveSession s).Spares [l] := by
    intro l hl i hi hmem
    rw [hid] at hi
    exact hl (Option.some.inj hi ▸ List.mem_singleton.mp hmem).symm
  have hkeeps : ∀ l s', l ≠ id → Holds j.store l s' →
      Holds (Store.serve (.saveSession s) j.store).2 l s' :=
    fun l s' hl hs => holds_serve h.sound (hspares l hl) hs
  have hsound := sound_serve (.saveSession s) h.sound
  have hsame : numbers (Store.serve (.saveSession s) j.store).2 = numbers j.store :=
    numbers_serve h.sound RequestKind.noConfusion RequestKind.noConfusion
  have hcases := saves h.sound hid
  rw [Served, serve_eq] at ht
  generalize (Store.serve (.saveSession s) j.store).1 = result,
    (Store.serve (.saveSession s) j.store).2 = m' at hcases hkeeps hsound hsame ht
  cases ht
  cases hcases with
  | stored _ hmem hholds =>
    left
    refine ⟨rfl, ⟨hsound, ?_, h.kept ▸ hmem, hsame.trans h.kept, fun l s' hl hs => ?_⟩, hholds⟩
    · show j.written ++ s.id.toList = [id]
      rw [h.written, hid]
      rfl
    · exact hkeeps l s' hl (h.holds l s' hs)
  | refused e hmissing =>
    right
    refine ⟨e, rfl, fun he => h.kept ▸ hmissing he, hsound, ?_, h.kept, h.holds⟩
    rw [h.written]
    rfl

/-- An answer is added to a session that is stored, or nothing happens. -/
theorem Quiet.appendAnswer {a : Answer} {reply : Except StorageError (Request.appendAnswer id a).Reply}
    (h : j.Quiet m) (ht : Served (.appendAnswer id a) j reply j') :
    j'.Rewritten m id ∨ j'.Quiet m := by
  have hkeeps : ∀ l s', l ≠ id → Holds j.store l s' →
      Holds (Store.serve (.appendAnswer id a) j.store).2 l s' := by
    intro l s' hl hs
    refine holds_serve (r := .appendAnswer id a) h.sound (fun hmem => ?_) hs
    exact hl (List.mem_singleton.mp hmem).symm
  have hsound := sound_serve (.appendAnswer id a) h.sound
  have hsame : numbers (Store.serve (.appendAnswer id a) j.store).2 = numbers j.store :=
    numbers_serve h.sound RequestKind.noConfusion RequestKind.noConfusion
  have hcases := appends id a h.sound
  rw [Served, serve_eq] at ht
  generalize (Store.serve (.appendAnswer id a) j.store).1 = result,
    (Store.serve (.appendAnswer id a) j.store).2 = m' at hcases hkeeps hsound hsame ht
  cases ht
  cases hcases with
  | stored _ hmem _ =>
    left
    refine ⟨hsound, ?_, h.kept ▸ hmem, hsame.trans h.kept, fun l s' hl hs => ?_⟩
    · rw [h.written]
      rfl
    · exact hkeeps l s' hl (h.holds l s' hs)
  | refused e =>
    right
    refine ⟨hsound, ?_, h.kept, h.holds⟩
    rw [h.written]
    rfl

end Journal

end MentalMath
