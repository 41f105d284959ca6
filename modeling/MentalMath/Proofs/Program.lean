import MentalMath.Storage.Program

/-! Reasoning about programs that ask a store. `Ends` is about what a program can end with when the
store may answer anything; `Always` follows a state beside the program, from request to request, and
asks for an invariant at each of them. Both go through the tree of requests, and both have a rule for
programs that go on with another one, so that a fact about a program is put together from those about
its parts. -/

namespace MentalMath.Program

variable {α β : Type}

@[simp]
theorem pure_bind (a : α) (f : α → Program β) : ((pure a : Program α) >>= f) = f a := rfl

/-- Whatever the store answers, the program ends with a value as described. -/
def Ends (post : α → Prop) : Program α → Prop
  | .done a => post a
  | .ask _ next => ∀ reply, (next reply).Ends post

namespace Ends

variable {post : α → Prop}

theorem mono {post' : α → Prop} {p : Program α} (h : p.Ends post) (hp : ∀ a, post a → post' a) :
    p.Ends post' := by
  induction p with
  | done a => exact hp a h
  | ask r next ih => exact fun reply => ih reply (h reply)

theorem bind {post : β → Prop} {p : Program α} {f : α → Program β}
    (h : p.Ends fun a => (f a).Ends post) : (p >>= f).Ends post := by
  induction p with
  | done a => exact h
  | ask r next ih => exact fun reply => ih reply (h reply)

theorem map {post : β → Prop} {f : α → β} {p : Program α} (h : p.Ends fun a => post (f a)) :
    (f <$> p).Ends post :=
  bind (f := fun a => pure (f a)) h

/-- Every program ends with some value. -/
theorem trivial (p : Program α) : p.Ends fun _ => True := by
  induction p with
  | done a => exact True.intro
  | ask r next ih => exact ih

/-- What holds at every end holds at the end of every run. -/
theorem run {σ : Type} [Store σ] {p : Program α} (h : p.Ends post) (s : σ) : post (p.run s).1 := by
  induction p generalizing s with
  | done a => exact h
  | ask r next ih => exact ih _ (h _) _

end Ends

/-- From a state on, and whichever turns the requests take, the invariant holds at every request and
the program ends as described. A turn leads from a request and a state to an answer and a state. -/
def Always {S : Type} (turn : (r : Request) → S → Except StorageError r.Reply → S → Prop)
    (inv : S → Prop) (post : α → S → Prop) : Program α → S → Prop
  | .done a, s => post a s
  | .ask r next, s => inv s ∧ ∀ reply s', turn r s reply s' → (next reply).Always turn inv post s'

namespace Always

variable {S : Type} {turn : (r : Request) → S → Except StorageError r.Reply → S → Prop}
  {inv : S → Prop} {post : α → S → Prop} {s : S}

theorem mono {post' : α → S → Prop} {p : Program α} (h : p.Always turn inv post s)
    (hp : ∀ a s, post a s → post' a s) : p.Always turn inv post' s := by
  induction p generalizing s with
  | done a => exact hp a s h
  | ask r next ih => exact ⟨h.1, fun reply s' ht => ih reply (h.2 reply s' ht)⟩

theorem bind {post : β → S → Prop} {p : Program α} {f : α → Program β}
    (h : p.Always turn inv (fun a s => (f a).Always turn inv post s) s) :
    (p >>= f).Always turn inv post s := by
  induction p generalizing s with
  | done a => exact h
  | ask r next ih => exact ⟨h.1, fun reply s' ht => ih reply (h.2 reply s' ht)⟩

theorem map {post : β → S → Prop} {f : α → β} {p : Program α}
    (h : p.Always turn inv (fun a s => post (f a) s) s) : (f <$> p).Always turn inv post s :=
  bind (f := fun a => pure (f a)) h

end Always

/-- The turns of a store that serves every request. -/
def Served {S : Type} [Store S] (r : Request) (s : S) (reply : Except StorageError r.Reply)
    (s' : S) : Prop :=
  Store.serve r s = (reply, s')

/-- A program that a store serves ends as described. -/
theorem Always.run {S : Type} [Store S] {inv : S → Prop} {post : α → S → Prop} {p : Program α} {s : S}
    (h : p.Always Served inv post s) : post (p.run s).1 (p.run s).2 := by
  induction p generalizing s with
  | done a => exact h
  | ask r next ih => exact ih _ (h.2 _ _ rfl)

/-- What a store keeps from request to request, it keeps over a whole program. -/
theorem run_keeps {S : Type} [Store S] {P : S → Prop}
    (hserve : ∀ (r : Request) (s : S), P s → P (Store.serve r s).2) (p : Program α) {s : S} (h : P s) :
    P (p.run s).2 := by
  induction p generalizing s with
  | done a => exact h
  | ask r next ih => exact ih _ (hserve r s h)

section Failing

variable {σ ε : Type} [Store σ] {p : ExceptT ε Program α} {f : α → ExceptT ε Program β} {s s' : σ}

/-- A program that may fail goes on from the value that its first part returns. -/
theorem run_bind_of_ok {a : α} (h : p.run.run s = (.ok a, s')) :
    (p >>= f).run.run s = (f a).run.run s' := by
  show Program.run (p.run >>= _) s = _
  rw [run_bind, h]
  rfl

theorem run_bind_of_error {e : ε} (h : p.run.run s = (.error e, s')) :
    (p >>= f).run.run s = (.error e, s') := by
  show Program.run (p.run >>= _) s = _
  rw [run_bind, h]
  rfl

end Failing

end MentalMath.Program
