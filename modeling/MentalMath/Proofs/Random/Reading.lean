import Mathlib.Data.Stream.Init
import MentalMath.Proofs.Random.Draw

/-! Draws from endless streams of words. A draw reads words from the front of a stream and leaves the
others, so what it comes to on a stream is what it comes to on enough of its words. A stream never
runs dry: a draw that comes to nothing on one reads words forever. -/

namespace MentalMath.Random

/-- A source without a keystream has at least `k` words at hand. -/
def WordSource.Serves (s : WordSource) (k : Nat) : Prop :=
  s.more = none → k ≤ s.pending.length

namespace Draw

variable {α β : Type} {d : Draw α} {f : α → Draw β} {a a' : α} {b : β} {k l : Nat}
  {P : α → Prop} {Q : β → Prop} {ws vs : List UInt32} {words rest rest' : Stream' UInt32}

/-! ### Words at the front -/

/-- The draw reads these words and comes to a value, whatever words there are after them. -/
def Reads (d : Draw α) (ws : List UInt32) (a : α) : Prop :=
  ∀ vs, d (.scripted (ws ++ vs)) = .ok (a, .scripted vs)

/-- A draw that depends on the words that it reads, and on no others. -/
def ReadsOn (d : Draw α) : Prop :=
  ∀ us a s, d (.scripted us) = .ok (a, s) →
    ∃ ws vs, us = ws ++ vs ∧ s = .scripted vs ∧ d.Reads ws a

theorem Reads.apply (h : d.Reads ws a) : d (.scripted ws) = .ok (a, .scripted []) := by
  simpa using h []

theorem Reads.bind (hd : d.Reads ws a) (hf : (f a).Reads vs b) : (d >>= f).Reads (ws ++ vs) b := by
  intro us
  rw [bind_apply, List.append_assoc, hd]
  exact hf us

theorem reads_pure (a : α) : (pure a : Draw α).Reads [] a :=
  fun _ => rfl

theorem reads_word (w : UInt32) : word.Reads [w] w.toNat := by
  intro vs
  rw [word_apply]
  rfl

/-- A draw that goes on with another one reads what the two read. -/
theorem Reads.of_bind (h : (d >>= f).Reads ws b) (hd : d.ReadsOn) :
    ∃ us vs a, ws = us ++ vs ∧ d.Reads us a ∧ (f a).Reads vs b := by
  obtain ⟨⟨a, s⟩, ha, -⟩ := Checked.bind_eq_ok.mp (bind_apply d f _ ▸ h.apply)
  obtain ⟨us, vs, rfl, -, hus⟩ := hd ws a s ha
  refine ⟨us, vs, a, rfl, hus, fun rest => ?_⟩
  have hall := h rest
  rw [bind_apply, List.append_assoc, hus] at hall
  exact hall

theorem Reads.of_pure (h : (pure a : Draw α).Reads ws a') : ws = [] ∧ a' = a := by
  have happly : Except.ok (a, WordSource.scripted ws) = Except.ok (a', WordSource.scripted []) :=
    h.apply
  obtain ⟨rfl, hs⟩ := Prod.mk.inj (Except.ok.inj happly)
  exact ⟨congrArg WordSource.pending hs, rfl⟩

theorem readsOn_pure (a : α) : (pure a : Draw α).ReadsOn := by
  intro us a' s h
  cases h
  exact ⟨[], us, rfl, rfl, reads_pure a⟩

theorem readsOn_lift (c : Checked α) : (liftM c : Draw α).ReadsOn := by
  cases c with
  | ok a => exact readsOn_pure a
  | error f =>
    intro us a s h
    cases h

theorem readsOn_word : word.ReadsOn := by
  intro us n s h
  rw [word_apply] at h
  cases us with
  | nil => cases h
  | cons w us =>
    cases h
    exact ⟨[w], us, rfl, rfl, reads_word w⟩

theorem ReadsOn.bind (hd : d.ReadsOn) (hf : ∀ a, (f a).ReadsOn) : (d >>= f).ReadsOn := by
  intro us b s h
  obtain ⟨⟨a, s₁⟩, ha, hb⟩ := Checked.bind_eq_ok.mp (bind_apply d f _ ▸ h)
  obtain ⟨ws, vs, rfl, rfl, hws⟩ := hd us a s₁ ha
  obtain ⟨ws', vs', rfl, rfl, hws'⟩ := hf a vs b s hb
  exact ⟨ws ++ ws', vs', (List.append_assoc ws ws' vs').symm, rfl, hws.bind hws'⟩

theorem ReadsOn.ite {p : Prop} [Decidable p] {e : Draw α} (hd : d.ReadsOn) (he : e.ReadsOn) :
    (if p then d else e).ReadsOn := by
  split
  · exact hd
  · exact he

theorem readsOn_below (n : Nat) : (below n).ReadsOn :=
  readsOn_word.bind fun _ => .ite
    (readsOn_word.bind fun _ => .ite (readsOn_pure _) (readsOn_pure _)) (readsOn_pure _)

theorem readsOn_between (lo hi : Nat) : (between lo hi).ReadsOn :=
  (readsOn_below _).bind fun _ => readsOn_pure _

theorem readsOn_chance (threshold : Nat) : (chance threshold).ReadsOn :=
  (readsOn_word.bind fun _ => readsOn_word.bind fun _ => readsOn_pure _).bind fun _ => readsOn_pure _

theorem readsOn_shuffle (xs : List α) : (shuffle xs).ReadsOn :=
  (readsOn_below _).bind fun _ => readsOn_pure _

/-! ### Streams -/

/-- On a stream, the draw comes to a value and leaves the rest. -/
def On (d : Draw α) (words : Stream' UInt32) (a : α) (rest : Stream' UInt32) : Prop :=
  ∃ ws, words = ws ++ₛ rest ∧ d.Reads ws a

/-- On a stream, the draw comes to a value. -/
def EndsOn (d : Draw α) (words : Stream' UInt32) : Prop :=
  ∃ a rest, d.On words a rest

theorem On.bind (hd : d.On words a rest) (hf : (f a).On rest b rest') :
    (d >>= f).On words b rest' := by
  obtain ⟨ws, rfl, hws⟩ := hd
  obtain ⟨vs, rfl, hvs⟩ := hf
  exact ⟨ws ++ vs, (Stream'.append_append_stream ws vs rest').symm, hws.bind hvs⟩

theorem On.of_bind (h : (d >>= f).On words b rest) (hd : d.ReadsOn) :
    ∃ a mid, d.On words a mid ∧ (f a).On mid b rest := by
  obtain ⟨ws, rfl, hws⟩ := h
  obtain ⟨us, vs, a, rfl, hus, hvs⟩ := hws.of_bind hd
  exact ⟨a, vs ++ₛ rest, ⟨us, Stream'.append_append_stream us vs rest, hus⟩, vs, rfl, hvs⟩

theorem on_pure (a : α) (words : Stream' UInt32) : (pure a : Draw α).On words a words :=
  ⟨[], rfl, reads_pure a⟩

theorem On.of_pure (h : (pure a : Draw α).On words a' rest) : a' = a ∧ rest = words := by
  obtain ⟨ws, rfl, hws⟩ := h
  obtain ⟨rfl, rfl⟩ := hws.of_pure
  exact ⟨rfl, rfl⟩

/-- What a draw comes to on a stream is determined, and so is what it leaves. -/
theorem On.unique (h : d.On words a rest) (h' : d.On words a' rest') : a' = a ∧ rest' = rest := by
  -- Of two ways to read the stream, the one with more words starts with the other.
  have hshort : ∀ {ws vs a a'} {rest rest' : Stream' UInt32}, ws ++ₛ rest = vs ++ₛ rest' →
      d.Reads ws a → d.Reads vs a' → ws.length ≤ vs.length → a' = a ∧ rest' = rest := by
    intro ws vs a a' rest rest' heq hws hvs hle
    have hstart : ws = vs.take ws.length := by
      rw [← Stream'.take_append_of_le_length ws.length vs rest' hle, ← heq,
        Stream'.take_append_of_le_length _ _ _ (Nat.le_refl _), List.take_length]
    obtain ⟨us, rfl⟩ : ws <+: vs := by
      rw [hstart]
      exact List.take_prefix _ _
    obtain ⟨rfl, hnil⟩ := Prod.mk.inj (Except.ok.inj ((hws us).symm.trans hvs.apply))
    obtain rfl : us = [] := congrArg WordSource.pending hnil
    rw [List.append_nil] at heq
    exact ⟨rfl, (Stream'.append_right_injective _ _ _ heq).symm⟩
  obtain ⟨ws, hwords, hws⟩ := h
  obtain ⟨vs, hwords', hvs⟩ := h'
  rcases Nat.le_total ws.length vs.length with hle | hle
  · exact hshort (hwords.symm.trans hwords') hws hvs hle
  · obtain ⟨rfl, rfl⟩ := hshort (hwords'.symm.trans hwords) hvs hws hle
    exact ⟨rfl, rfl⟩

theorem endsOn_bind_iff (hd : d.ReadsOn) (h : d.On words a rest) :
    (d >>= f).EndsOn words ↔ (f a).EndsOn rest := by
  constructor
  · rintro ⟨b, rest', hb⟩
    obtain ⟨a', mid, ha, hf⟩ := hb.of_bind hd
    obtain ⟨rfl, rfl⟩ := h.unique ha
    exact ⟨b, rest', hf⟩
  · rintro ⟨b, rest', hf⟩
    exact ⟨b, rest', h.bind hf⟩

/-- What follows a draw and never runs on has no part in whether the two end. -/
theorem endsOn_bind_iff_left (hd : d.ReadsOn) (hf : ∀ a words, (f a).EndsOn words) :
    (d >>= f).EndsOn words ↔ d.EndsOn words := by
  constructor
  · rintro ⟨b, rest, hb⟩
    obtain ⟨a, mid, ha, -⟩ := hb.of_bind hd
    exact ⟨a, mid, ha⟩
  · rintro ⟨a, mid, ha⟩
    obtain ⟨b, rest, hb⟩ := hf a mid
    exact ⟨b, rest, ha.bind hb⟩

/-! ### Draws that come to a value within so many words -/

/-- With `k` words at hand, or with a keystream, the draw comes to a value with a property. -/
def Within (d : Draw α) (k : Nat) (P : α → Prop) : Prop :=
  ∀ (s : WordSource) (l : Nat), s.Serves (k + l) → ∃ a s', d s = .ok (a, s') ∧ P a ∧ s'.Serves l

theorem within_pure (h : P a) : (pure a : Draw α).Within 0 P :=
  fun s l hs => ⟨a, s, rfl, h, (Nat.zero_add l) ▸ hs⟩

theorem within_lift {c : Checked α} (h : ∃ a, c = .ok a ∧ P a) : (liftM c : Draw α).Within 0 P := by
  obtain ⟨a, rfl, ha⟩ := h
  exact within_pure ha

theorem within_word : word.Within 1 fun _ => True := by
  intro s l hs
  rw [word_apply]
  obtain ⟨pending, more⟩ := s
  cases pending with
  | cons w pending =>
    refine ⟨w.toNat, ⟨pending, more⟩, rfl, trivial, fun hmore => ?_⟩
    have hwords := hs hmore
    simp only [List.length_cons] at hwords
    exact show l ≤ pending.length by omega
  | nil =>
    cases more with
    | none => exact absurd (hs rfl) (by simp)
    | some stream =>
      have hsome := stream.next_ne_nil
      cases hnext : stream.next with
      | mk ws stream' =>
      cases ws with
      | nil => exact absurd (congrArg Prod.fst hnext) hsome
      | cons w ws =>
        refine ⟨w.toNat, ⟨ws, some stream'⟩, ?_, trivial, fun h => by cases h⟩
        simp only [WordSource.next, hnext, Except.map]

theorem Within.bind (hd : d.Within k P) (hf : ∀ a, P a → (f a).Within l Q) :
    (d >>= f).Within (k + l) Q := by
  intro s m hs
  rw [Nat.add_assoc] at hs
  obtain ⟨a, s₁, ha, hP, hs₁⟩ := hd s (l + m) hs
  obtain ⟨b, s₂, hb, hQ, hs₂⟩ := hf a hP s₁ m hs₁
  exact ⟨b, s₂, by rw [bind_apply, ha]; exact hb, hQ, hs₂⟩

theorem Within.ite {p : Prop} [Decidable p] {e : Draw α} (hd : p → d.Within k P)
    (he : ¬p → e.Within k P) : (if p then d else e).Within k P := by
  split
  case isTrue hp => exact hd hp
  case isFalse hp => exact he hp

theorem Within.mono (h : d.Within k P) (hl : k ≤ l) : d.Within l P := by
  intro s m hs
  obtain ⟨a, s', ha, hP, hs'⟩ := h s (l - k + m) (by rwa [← Nat.add_assoc, Nat.add_sub_cancel' hl])
  exact ⟨a, s', ha, hP, fun hmore => Nat.le_trans (Nat.le_add_left m _) (hs' hmore)⟩

theorem Yields.of_eq_ok {s s' : WordSource} (h : d.Yields k P) (hd : d s = .ok (a, s')) : P a := by
  rcases h s with ⟨b, _, hb, hP, -⟩ | ⟨f, hf, -⟩
  · cases hd.symm.trans hb
    exact hP
  · cases hd.symm.trans hf

theorem Reads.le_length (h : d.Reads ws a) (hd : d.Yields k P) : k ≤ ws.length := by
  rcases hd (.scripted ws) with ⟨b, s', hb, -, hleft⟩ | ⟨f, hf, -⟩
  · exact Nat.le_trans (Nat.le_add_left k _) (hleft.pending rfl)
  · cases h.apply.symm.trans hf

theorem Within.yields {R : α → Prop} (h : d.Within k R) (hy : d.Yields l P) : d.Within k P := by
  intro s m hs
  obtain ⟨a, s', ha, -, hs'⟩ := h s m hs
  exact ⟨a, s', ha, hy.of_eq_ok ha, hs'⟩

theorem within_below (n : Nat) : (below n).Within 2 fun _ => True := by
  refine within_word.bind (l := 1) fun w _ => Within.ite (fun _ => ?_) fun _ => ?_
  · exact within_word.bind (l := 0) fun w' _ =>
      .ite (fun _ => within_pure trivial) fun _ => within_pure trivial
  · exact (within_pure trivial).mono (Nat.zero_le 1)

theorem within_between {lo hi : Nat} (h : lo ≤ hi) (hn : hi - lo + 1 ≤ wordCount) :
    (between lo hi).Within 2 fun n => lo ≤ n ∧ n ≤ hi := by
  have hreads : (between lo hi).Within 2 fun _ => True :=
    (within_below _).bind (l := 0) fun _ _ => within_pure trivial
  exact hreads.yields (yields_between h hn)

theorem within_chance (threshold : Nat) : (chance threshold).Within 2 fun _ => True := by
  have hword64 : word64.Within 2 fun _ => True :=
    within_word.bind fun _ _ => within_word.bind (l := 0) fun _ _ => within_pure trivial
  exact hword64.bind (l := 0) fun _ _ => within_pure trivial

theorem within_shuffle (xs : List α) : (shuffle xs).Within 2 fun _ => True :=
  (within_below _).bind (l := 0) fun _ _ => within_pure trivial

theorem Within.exists_on (h : d.Within k P) (hd : d.ReadsOn) (words : Stream' UInt32) :
    ∃ a rest, d.On words a rest ∧ P a := by
  have hserves : (WordSource.scripted (words.take k)).Serves (k + 0) :=
    fun _ => Nat.le_of_eq (Stream'.length_take k words).symm
  obtain ⟨a, s, ha, hP, -⟩ := h _ 0 hserves
  obtain ⟨ws, vs, htake, -, hws⟩ := hd _ a s ha
  refine ⟨a, vs ++ₛ words.drop k, ⟨ws, ?_, hws⟩, hP⟩
  rw [← Stream'.append_append_stream, ← htake, Stream'.append_take_drop]

/-! ### Draws that are made again -/

/-- Drawn from a stream again and again, the draw comes to a value with a property after finitely many
times. -/
inductive Sooner (d : Draw α) (P : α → Prop) : Stream' UInt32 → Prop
  | now {words rest : Stream' UInt32} {a : α} (h : d.On words a rest) (ha : P a) : Sooner d P words
  | later {words rest : Stream' UInt32} {a : α} (h : d.On words a rest) (hrest : Sooner d P rest) :
    Sooner d P words

theorem Sooner.imp {R P' : α → Prop} (h : Sooner d P words) (hy : d.Yields k R)
    (himp : ∀ a, R a → P a → P' a) : Sooner d P' words := by
  induction h with
  | now h ha =>
    have ⟨_, _, hws⟩ := h
    exact .now h (himp _ (hy.of_eq_ok hws.apply) ha)
  | later h _ ih => exact .later h ih

theorem sooner_map_iff {g : α → β} (hd : d.ReadsOn) :
    Sooner (d >>= fun a => pure (g a)) Q words ↔ Sooner d (fun a => Q (g a)) words := by
  constructor
  · intro h
    induction h with
    | now h hb =>
      obtain ⟨a, mid, ha, hg⟩ := h.of_bind hd
      obtain ⟨rfl, rfl⟩ := hg.of_pure
      exact .now ha hb
    | later h _ ih =>
      obtain ⟨a, mid, ha, hg⟩ := h.of_bind hd
      obtain ⟨rfl, rfl⟩ := hg.of_pure
      exact .later ha ih
  · intro h
    induction h with
    | now ha hb => exact .now (ha.bind (on_pure _ _)) hb
    | later ha _ ih => exact .later (ha.bind (on_pure _ _)) ih

end Draw

end MentalMath.Random
