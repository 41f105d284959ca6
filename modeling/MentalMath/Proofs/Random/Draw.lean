import MentalMath.Random.Draw

/-! What a draw yields, whatever words its source hands out. A draw may stop because a scripted source
runs dry, or because a keystream kept yielding values that were taken, and for no other reason. Every
draw takes words from a scripted source, so such a source runs dry before the second can happen. -/

namespace MentalMath.Random

namespace WordSource

/-- What is left of a source once at least `k` words were taken. -/
structure Leaves (s : WordSource) (k : Nat) (s' : WordSource) : Prop where
  more : s'.more.isSome = s.more.isSome
  pending : s.more = none → s'.pending.length + k ≤ s.pending.length

/-- The faults in which a draw from a source may stop. -/
inductive Stops (s : WordSource) : Fault → Prop
  | dry (h : s.more = none) : Stops s .wordsExhausted
  | taken (h : s.more.isSome = true) : Stops s .redrawsExhausted

/-- What a draw from a source comes to: a value with a property, after at least `k` words, or a stop. -/
def Ends {α : Type} (s : WordSource) (k : Nat) (P : α → Prop) (result : Checked (α × WordSource)) :
    Prop :=
  (∃ a s', result = .ok (a, s') ∧ P a ∧ s.Leaves k s') ∨ ∃ f, result = .error f ∧ s.Stops f

variable {s s₁ s₂ : WordSource} {k l : Nat}

theorem leaves_refl (s : WordSource) : s.Leaves 0 s :=
  ⟨rfl, fun _ => Nat.le_refl _⟩

theorem Leaves.more_eq_none (h : s.Leaves k s₁) : s₁.more = none ↔ s.more = none := by
  rw [← Option.isNone_iff_eq_none, ← Option.isNone_iff_eq_none, ← Option.not_isSome,
    ← Option.not_isSome, h.more]

theorem Leaves.trans (h₁ : s.Leaves k s₁) (h₂ : s₁.Leaves l s₂) : s.Leaves (k + l) s₂ := by
  refine ⟨h₂.more.trans h₁.more, fun hs => ?_⟩
  have hk := h₁.pending hs
  have hl := h₂.pending (h₁.more_eq_none.mpr hs)
  omega

theorem Leaves.weaken (h : s.Leaves k s₁) (hl : l ≤ k) : s.Leaves l s₁ :=
  ⟨h.more, fun hs => Nat.le_trans (Nat.add_le_add_left hl _) (h.pending hs)⟩

theorem Leaves.stops {f : Fault} (h : s.Leaves k s₁) (hf : s₁.Stops f) : s.Stops f := by
  cases hf with
  | dry hs => exact .dry (h.more_eq_none.mp hs)
  | taken hs => exact .taken (h.more ▸ hs)

end WordSource

theorem Keystream.next_ne_nil (k : Keystream) : k.next.1 ≠ [] := by
  intro h
  have hlength := congrArg List.length h
  simp [Keystream.next] at hlength

namespace Draw

variable {α β : Type} {k : Nat} {P : α → Prop} {Q : β → Prop} {d : Draw α} {f : α → Draw β}

/-- From any source, the draw takes at least `k` words and yields a value with the property, unless it
stops. -/
def Yields (d : Draw α) (k : Nat) (P : α → Prop) : Prop :=
  ∀ s : WordSource, s.Ends k P (d s)

theorem yields_pure {a : α} (h : P a) : (pure a : Draw α).Yields 0 P :=
  fun s => Or.inl ⟨a, s, rfl, h, s.leaves_refl⟩

/-- A calculation with a result takes no words. -/
theorem yields_lift {c : Checked α} (h : ∃ a, c = .ok a ∧ P a) : (liftM c : Draw α).Yields 0 P := by
  obtain ⟨a, rfl, ha⟩ := h
  exact fun s => Or.inl ⟨a, s, rfl, ha, s.leaves_refl⟩

theorem bind_apply (d : Draw α) (f : α → Draw β) (s : WordSource) :
    (d >>= f) s = (d s >>= fun r => f r.1 r.2) := rfl

/-- A draw takes the words that its first part takes. -/
theorem Yields.bind (hd : d.Yields k P) (hf : ∀ a, P a → (f a).Yields 0 Q) :
    (d >>= f).Yields k Q := by
  intro s
  rw [bind_apply]
  rcases hd s with ⟨a, s₁, hs, ha, hleft⟩ | ⟨e, hs, he⟩
  · rw [hs]
    show s.Ends k Q (f a s₁)
    rcases hf a ha s₁ with ⟨b, s₂, hs₁, hb, hrest⟩ | ⟨e, hs₁, he⟩
    · exact Or.inl ⟨b, s₂, hs₁, hb, hleft.trans hrest⟩
    · exact Or.inr ⟨e, hs₁, hleft.stops he⟩
  · rw [hs]
    exact Or.inr ⟨e, rfl, he⟩

theorem Yields.weaken {R : α → Prop} (h : d.Yields k P) (hR : ∀ a, P a → R a) : d.Yields 0 R := by
  intro s
  rcases h s with ⟨a, s', hs, ha, hleft⟩ | hstop
  · exact Or.inl ⟨a, s', hs, hR a ha, hleft.weaken (Nat.zero_le k)⟩
  · exact Or.inr hstop

theorem Yields.ite {p : Prop} [Decidable p] {e : Draw α} (hd : p → d.Yields k P)
    (he : ¬p → e.Yields k P) : (if p then d else e).Yields k P := by
  by_cases hp : p
  · rw [if_pos hp]
    exact hd hp
  · rw [if_neg hp]
    exact he hp

theorem word_apply (s : WordSource) :
    word s = s.next.map fun r => (r.1.toNat, r.2) := by
  show ((s.next >>= fun r => pure (r, s)) >>= fun r => pure (r.1.1.toNat, r.1.2)) = _
  cases s.next <;> rfl

theorem yields_word : word.Yields 1 (· < wordCount) := by
  intro s
  rw [word_apply]
  obtain ⟨pending, more⟩ := s
  cases pending with
  | cons w rest =>
    exact Or.inl ⟨w.toNat, ⟨rest, more⟩, rfl, w.toNat_lt, rfl, fun _ => Nat.le_refl _⟩
  | nil =>
    cases more with
    | none => exact Or.inr ⟨.wordsExhausted, rfl, .dry rfl⟩
    | some stream =>
      have hsome := stream.next_ne_nil
      cases hnext : stream.next with
      | mk words stream' =>
      cases words with
      | nil => exact absurd (congrArg Prod.fst hnext) hsome
      | cons w rest =>
        refine Or.inl ⟨w.toNat, ⟨rest, some stream'⟩, ?_, w.toNat_lt, rfl, fun h => by cases h⟩
        simp only [WordSource.next, hnext, Except.map]

/-- The low half of a product leaves room for a carry only if the high half is not the largest one. -/
theorem yields_below {n : Nat} (hpos : 0 < n) (hn : n ≤ wordCount) :
    (below n).Yields 1 (· < n) := by
  refine yields_word.bind fun w hw => ?_
  have hproduct : w * n + n ≤ wordCount * n := by
    have hle := Nat.mul_le_mul_right n (Nat.succ_le_of_lt hw)
    rw [Nat.succ_mul] at hle
    exact hle
  generalize w * n = product at hproduct
  have hhigh : product / wordCount < n := by
    simp only [wordCount] at hproduct ⊢
    omega
  refine .ite (fun hlow => ?_) fun _ => yields_pure hhigh
  have hcarry : product / wordCount + 1 < n := by
    simp only [wordCount] at hn hlow hproduct ⊢
    omega
  refine (yields_word.bind fun w' _ => ?_).weaken fun _ h => h
  exact .ite (fun _ => yields_pure hcarry) fun _ => yields_pure hhigh

theorem yields_between {lo hi : Nat} (h : lo ≤ hi) (hn : hi - lo + 1 ≤ wordCount) :
    (between lo hi).Yields 1 fun n => lo ≤ n ∧ n ≤ hi := by
  refine (yields_below (Nat.succ_pos _) hn).bind fun n hlt => ?_
  exact yields_pure ⟨Nat.le_add_right lo n, by omega⟩

/-- What goes on with a number from `lo` to `hi` may rely on that. -/
theorem yields_of_between {lo hi : Nat} {f : Nat → Draw β} (h : lo ≤ hi)
    (hn : hi - lo + 1 ≤ wordCount) (hf : ∀ n, lo ≤ n ∧ n ≤ hi → (f n).Yields 0 Q) :
    (between lo hi >>= f).Yields 0 Q :=
  ((yields_between h hn).bind hf).weaken fun _ hb => hb

theorem yields_chance (threshold : Nat) : (chance threshold).Yields 1 fun _ => True := by
  have hword64 : word64.Yields 1 fun _ => True := by
    refine yields_word.bind fun low _ => ?_
    exact (yields_word.bind fun high _ => yields_pure trivial).weaken fun _ h => h
  exact hword64.bind fun n _ => yields_pure trivial

theorem yields_choose {xs : List α} (default : α) (hsome : xs ≠ []) (hn : xs.length ≤ wordCount) :
    (choose xs default).Yields 1 (· ∈ xs) := by
  refine (yields_below (List.length_pos_iff.mpr hsome) hn).bind fun i hi => ?_
  refine yields_pure ?_
  rw [List.getElem?_eq_getElem hi]
  exact List.getElem_mem hi

theorem yields_shuffle (xs : List α) : (shuffle xs).Yields 1 fun ys => ys.Perm xs := by
  have horders := yields_below (n := orders) (by decide) (by decide)
  exact horders.bind fun code _ => yields_pure (arrange_perm code [] xs)

end Draw

end MentalMath.Random
