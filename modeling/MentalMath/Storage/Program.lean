import MentalMath.Storage.Request

/-! Stores, and programs that use them. A store answers one request after the other. A program is a
tree of requests, so that it can be run on any store, on one that fails now and then, or request by
request beside other programs. -/

namespace MentalMath

/-- What answers requests: a step takes the state to the answer and the state after it. -/
class Store (σ : Type) where
  serve : (r : Request) → σ → Except StorageError r.Reply × σ

/-- A calculation that asks a store. -/
inductive Program (α : Type) where
  | done (a : α)
  | ask (r : Request) (next : Except StorageError r.Reply → Program α)

namespace Program

def bind {α β : Type} : Program α → (α → Program β) → Program β
  | .done a, f => f a
  | .ask r next, f => .ask r fun reply => (next reply).bind f

instance : Monad Program where
  pure := .done
  bind := bind

/-- A single request. -/
def request (r : Request) : Program (Except StorageError r.Reply) :=
  .ask r .done

def run {σ α : Type} [Store σ] : Program α → σ → α × σ
  | .done a, s => (a, s)
  | .ask r next, s => (next (Store.serve r s).1).run (Store.serve r s).2

@[simp]
theorem run_pure {σ α : Type} [Store σ] (a : α) (s : σ) : (pure a : Program α).run s = (a, s) := rfl

@[simp]
theorem run_done {σ α : Type} [Store σ] (a : α) (s : σ) : (Program.done a).run s = (a, s) := rfl

@[simp]
theorem run_request {σ : Type} [Store σ] (r : Request) (s : σ) :
    (request r).run s = Store.serve r s := rfl

@[simp]
theorem run_bind {σ α β : Type} [Store σ] (p : Program α) (f : α → Program β) (s : σ) :
    (p >>= f).run s = (f (p.run s).1).run (p.run s).2 := by
  show (p.bind f).run s = _
  induction p generalizing s with
  | done a => rfl
  | ask r next ih => exact ih _ _

end Program

/-- A program that may end with a storage error. -/
abbrev StoreM := ExceptT StorageError Program

/-- A single request, whose failure ends the program. -/
def StoreM.request (r : Request) : StoreM r.Reply :=
  ExceptT.mk (Program.request r)

/-- A store, and the kinds of requests that fail. -/
structure Unreliable (σ : Type) where
  inner : σ
  failing : List RequestKind

namespace Unreliable

def serve {σ : Type} [Store σ] (r : Request) (u : Unreliable σ) :
    Except StorageError r.Reply × Unreliable σ :=
  if r.kind ∈ u.failing then (.error (.connection .offline), u)
  else
    let (reply, inner) := Store.serve r u.inner
    (reply, { u with inner := inner })

instance {σ : Type} [Store σ] : Store (Unreliable σ) := ⟨serve⟩

/-- A request that fails leaves the store behind as it is. -/
theorem serve_of_failing {σ : Type} [Store σ] {r : Request} {u : Unreliable σ}
    (h : r.kind ∈ u.failing) : Store.serve r u = (.error (.connection .offline), u) := by
  show serve r u = _
  simp [serve, h]

end Unreliable

end MentalMath
