import MentalMath.Proofs.Storage.Sessions

/-! Requests that are made of a store one after the other. The stores that can come about are those
after some requests to the empty store. -/

namespace MentalMath

/-- The store after requests were made of it one after the other. -/
def Store.after {σ : Type} [Store σ] (rs : List Request) (m : σ) : σ :=
  rs.foldl (fun m r => (Store.serve r m).2) m

namespace Store

variable {σ : Type} [Store σ]

@[simp]
theorem after_nil (m : σ) : after [] m = m := rfl

@[simp]
theorem after_cons (r : Request) (rs : List Request) (m : σ) :
    after (r :: rs) m = after rs (serve r m).2 := rfl

theorem after_append (rs rs' : List Request) (m : σ) :
    after (rs ++ rs') m = after rs' (after rs m) :=
  List.foldl_append

theorem after_concat (rs : List Request) (r : Request) (m : σ) :
    after (rs ++ [r]) m = (serve r (after rs m)).2 :=
  after_append rs [r] m

/-- What each request keeps, a sequence of them keeps. -/
theorem after_keeps {P : σ → Prop} {rs : List Request}
    (hserve : ∀ r ∈ rs, ∀ m, P m → P (serve r m).2) {m : σ} (h : P m) : P (after rs m) := by
  induction rs generalizing m with
  | nil => exact h
  | cons r rs ih =>
    apply ih
    · exact fun r' hr => hserve r' (List.mem_cons_of_mem _ hr)
    · exact hserve r List.mem_cons_self m h

open SessionTable in
theorem sound_after [SessionTable σ] [LawfulSessionTable σ] (rs : List Request) {m : σ}
    (h : Sound m) : Sound (after rs m) :=
  after_keeps (fun r _ _ hm => LawfulSessionTable.sound_serve r hm) h

open SessionTable in
theorem sound_after_empty [SessionTable σ] [LawfulSessionTable σ] (rs : List Request) :
    Sound (after rs (empty : σ)) :=
  sound_after rs LawfulSessionTable.sound_empty

open SessionTable in
/-- A session stays as it is while requests leave it alone. -/
theorem holds_after [SessionTable σ] [LawfulSessionTable σ] {rs : List Request} {m : σ}
    {id : SessionId} {s : Session} (hm : Sound m) (hrs : ∀ r ∈ rs, r.Spares [id])
    (hs : Holds m id s) : Holds (after rs m) id s := by
  have hkept : Sound (after rs m) ∧ Holds (after rs m) id s := by
    refine after_keeps (P := fun m => Sound m ∧ Holds m id s) ?_ ⟨hm, hs⟩
    rintro r hr m ⟨hm, hs⟩
    exact ⟨LawfulSessionTable.sound_serve r hm, LawfulSessionTable.holds_serve hm (hrs r hr) hs⟩
  exact hkept.2

end Store

end MentalMath
