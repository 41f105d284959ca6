import MentalMath.Problem.Choices
import MentalMath.Proofs.Random.Draw

/-! What the options of a quotient are drawn from. A value that is drawn again until it is fresh is in the
range of its draw and not among those that were taken. No wrong option leaves the range of counts as
long as there is room for the largest distance, and there are always three of them, which are told apart
from each other and from the answer. -/

namespace MentalMath.Problem

open MentalMath.Random

variable {taken : List Nat} {draw : Draw Nat} {P : Nat → Prop} {cents : Nat}

theorem redraw_succ (fuel : Nat) (s : WordSource) :
    redraw taken draw (fuel + 1) s = (draw s >>= fun r =>
      (if r.1 ∈ taken then redraw taken draw fuel else pure r.1 : Draw Nat) r.2) := rfl

/-- There is always one draw. -/
theorem exists_fresh_eq (taken : List Nat) (draw : Draw Nat) (s : WordSource) :
    ∃ fuel, fuel + 1 = s.pending.length + patience ∧
      fresh taken draw s = redraw taken draw (fuel + 1) s := by
  -- The bound stays a variable here, lest the draws are unfolded one by one.
  have hbounded : ∀ m, (do redraw taken draw ((← get).pending.length + m) : Draw Nat) s =
      redraw taken draw (s.pending.length + m) s := fun _ => rfl
  have hpatience : patience = 65535 + 1 := rfl
  refine ⟨s.pending.length + 65535, by rw [hpatience, Nat.add_assoc], ?_⟩
  rw [Nat.add_assoc, ← hpatience]
  exact hbounded patience

/-- Every draw takes a word from a scripted source, which so runs dry before the draws are given up. -/
theorem redraw_ends (hd : draw.Yields 1 P) (fuel : Nat) (s : WordSource)
    (hfuel : s.more = none → s.pending.length < fuel) :
    s.Ends 1 (fun n => P n ∧ n ∉ taken) (redraw taken draw fuel s) := by
  induction fuel generalizing s with
  | zero =>
    refine Or.inr ⟨.redrawsExhausted, rfl, .taken ?_⟩
    rw [Option.isSome_iff_ne_none]
    exact fun hs => absurd (hfuel hs) (Nat.not_lt_zero _)
  | succ fuel ih =>
    rw [redraw_succ]
    rcases hd s with ⟨n, s₁, hs, hn, hleft⟩ | ⟨f, hs, hf⟩
    · rw [hs]
      show s.Ends 1 _ ((if n ∈ taken then redraw taken draw fuel else pure n : Draw Nat) s₁)
      by_cases htaken : n ∈ taken
      · rw [if_pos htaken]
        have hfewer : s₁.more = none → s₁.pending.length < fuel := by
          intro hs₁
          have hwords := hfuel (hleft.more_eq_none.mp hs₁)
          have htook := hleft.pending (hleft.more_eq_none.mp hs₁)
          omega
        rcases ih s₁ hfewer with ⟨m, s₂, hs₁, hm, hleft'⟩ | ⟨f, hs₁, hf⟩
        · exact Or.inl ⟨m, s₂, hs₁, hm, (hleft.trans hleft').weaken (by decide)⟩
        · exact Or.inr ⟨f, hs₁, hleft.stops hf⟩
      · rw [if_neg htaken]
        exact Or.inl ⟨n, s₁, rfl, ⟨hn, htaken⟩, hleft⟩
    · rw [hs]
      exact Or.inr ⟨f, rfl, hf⟩

theorem yields_fresh (hd : draw.Yields 1 P) :
    (fresh taken draw).Yields 1 fun n => P n ∧ n ∉ taken := by
  intro s
  obtain ⟨fuel, hfuel, hfresh⟩ := exists_fresh_eq taken draw s
  have hpatience : 0 < patience := by decide
  rw [hfresh]
  exact redraw_ends hd (fuel + 1) s fun _ => by omega

theorem yields_nearDecoy (h : cents + 5 ≤ maxCount) :
    (nearDecoy cents).Yields 1 fun n => n ≠ cents ∧ 0 < n ∧ n ≤ cents + 5 ∧ cents ≤ n + 5 := by
  refine (Draw.yields_between (by decide) (by decide)).bind fun offset hoffset => ?_
  refine ((Draw.yields_chance halfThreshold).bind fun up _ => ?_).weaken fun _ h => h
  refine .ite (fun _ => ?_) fun hdown => ?_
  · exact Draw.yields_lift ⟨_, Count.add_eq_ok (by omega), by omega⟩
  · have hbelow : offset < cents := by
      simp only [Bool.or_eq_true, decide_eq_true_eq, not_or] at hdown
      omega
    exact Draw.yields_pure (by omega)

theorem yields_highDecoy (h : cents + 150 ≤ maxCount) :
    (highDecoy cents).Yields 1 fun n => cents + 50 ≤ n ∧ n ≤ cents + 150 := by
  refine (Draw.yields_between (by decide) (by decide)).bind fun offset hoffset => ?_
  exact Draw.yields_lift ⟨_, Count.add_eq_ok (by omega), by omega⟩

theorem yields_lowDecoy (h : cents + 250 ≤ maxCount) :
    (lowDecoy cents).Yields 1 fun n => 0 < n ∧ (n + 50 ≤ cents ∧ cents ≤ n + 150 ∨
      cents + 150 ≤ n ∧ n ≤ cents + 250) := by
  refine (Draw.yields_between (by decide) (by decide)).bind fun offset hoffset => ?_
  refine .ite (fun hlow => Draw.yields_pure (by omega)) fun _ => ?_
  refine (Draw.yields_lift ⟨cents + offset, Count.add_eq_ok (by omega), rfl⟩).bind ?_
  rintro _ rfl
  exact Draw.yields_lift ⟨_, Count.add_eq_ok (by omega), by omega⟩

/-- How far the wrong options of a difficulty are from the answer. -/
def Difficulty.Spread (cents : Nat) : Difficulty → List Nat → Prop
  | .easy, decoys => ∃ near high low, decoys = [near, high, low] ∧
      (near ≤ cents + 5 ∧ cents ≤ near + 5) ∧ (cents + 50 ≤ high ∧ high ≤ cents + 150) ∧
      (low + 50 ≤ cents ∧ cents ≤ low + 150 ∨ cents + 150 ≤ low ∧ low ≤ cents + 250)
  | .hard, decoys => ∀ d ∈ decoys, d ≤ cents + 3 ∧ cents ≤ d + 3

/-- Wrong options of a difficulty, at most three: none is the answer, and no two are the same. -/
structure Decoys (cents : Nat) (difficulty : Difficulty) (decoys : List Nat) : Prop where
  apart : (cents :: decoys).Nodup
  positive : ∀ d ∈ decoys, 0 < d
  spread : difficulty.Spread cents decoys
  atMost : decoys.length ≤ 3

section Hard

variable {decoys : List Nat} {offset : Int} {offsets : List Int}

theorem decoys_nil : Decoys cents .hard [] :=
  ⟨by simp, fun _ h => absurd h List.not_mem_nil,
    fun _ h => absurd h List.not_mem_nil, by decide⟩

/-- A distance is left out only if three options are there, its amount is one of them, or the amount is
not positive. -/
theorem Decoys.add (h : Decoys cents .hard decoys) (hroom : cents + 3 ≤ maxCount)
    (ho : -3 ≤ offset ∧ offset ≤ 3) :
    ∃ decoys', addDecoy cents (cents :: decoys) offset = cents :: decoys' ∧
      Decoys cents .hard decoys' ∧ decoys ⊆ decoys' ∧
      (decoys'.length = 3 ∨ (0 < cents + offset → (cents + offset).toNat ∈ cents :: decoys')) := by
  by_cases hfull : decoys.length = 3
  · exact ⟨decoys, if_pos (congrArg (· + 1) hfull), h, List.Subset.refl _, Or.inl hfull⟩
  have hlength : ¬(cents :: decoys).length = 4 := fun hl => hfull (Nat.succ.inj hl)
  by_cases hnew : 0 < cents + offset ∧ (cents + offset).toNat ∉ cents :: decoys
  · obtain ⟨hpos, hnot⟩ := hnew
    have hle : cents + offset ≤ maxCount := by omega
    refine ⟨decoys ++ [(cents + offset).toNat], ?_, ⟨?_, ?_, ?_, ?_⟩, ?_, ?_⟩
    · simp only [addDecoy, if_neg hlength, if_pos (And.intro hpos (And.intro hle hnot)),
        List.cons_append]
    · rw [← List.cons_append]
      exact List.nodup_append.mpr ⟨h.apart, by simp, fun a ha b hb heq =>
        hnot (List.mem_singleton.mp hb ▸ heq ▸ ha)⟩
    · simp only [List.mem_append, List.mem_singleton]
      rintro d (hd | rfl)
      · exact h.positive d hd
      · omega
    · simp only [Difficulty.Spread, List.mem_append, List.mem_singleton]
      rintro d (hd | rfl)
      · exact h.spread d hd
      · omega
    · have hatMost := h.atMost
      rw [List.length_append, List.length_singleton]
      omega
    · exact List.subset_append_left _ _
    · exact Or.inr fun _ => List.mem_cons_of_mem _ (List.mem_append_right _ List.mem_cons_self)
  · refine ⟨decoys, ?_, h, List.Subset.refl _, Or.inr fun hpos => ?_⟩
    · simp only [addDecoy, if_neg hlength]
      exact if_neg fun hadd => hnew ⟨hadd.1, hadd.2.2⟩
    · exact Classical.byContradiction fun hnot => hnew ⟨hpos, hnot⟩

theorem Decoys.addAll (h : Decoys cents .hard decoys) (hroom : cents + 3 ≤ maxCount)
    (ho : ∀ offset ∈ offsets, -3 ≤ offset ∧ offset ≤ 3) :
    ∃ decoys', offsets.foldl (addDecoy cents) (cents :: decoys) = cents :: decoys' ∧
      Decoys cents .hard decoys' ∧ decoys ⊆ decoys' ∧
      (decoys'.length = 3 ∨
        ∀ offset ∈ offsets, 0 < cents + offset → (cents + offset).toNat ∈ cents :: decoys') := by
  induction offsets generalizing decoys with
  | nil =>
    exact ⟨decoys, rfl, h, List.Subset.refl _, Or.inr fun _ ho => absurd ho List.not_mem_nil⟩
  | cons offset offsets ih =>
    obtain ⟨decoys₁, hadd, h₁, hsub, hdealt⟩ := h.add hroom (ho offset List.mem_cons_self)
    obtain ⟨decoys', hall, h', hsub', hdealt'⟩ :=
      ih h₁ fun o hmem => ho o (List.mem_cons_of_mem _ hmem)
    refine ⟨decoys', by rw [List.foldl_cons, hadd, hall], h', List.Subset.trans hsub hsub', ?_⟩
    rcases hdealt with hfull | hdealt
    · -- Three options stay three.
      have hmore := (List.nodup_cons.mp h₁.apart).2.length_le_of_subset hsub'
      exact Or.inl (Nat.le_antisymm h'.atMost (hfull ▸ hmore))
    · refine hdealt'.imp_right fun hrest => List.forall_mem_cons.mpr ⟨fun hpos => ?_, hrest⟩
      exact List.cons_subset_cons _ hsub' (hdealt hpos)

/-- The three positive distances are always left, so there are three wrong options. -/
theorem exists_hardDecoys (hroom : cents + 3 ≤ maxCount) {fallback : List Int}
    (hf : fallback.Perm fallbackOffsets) :
    ∃ decoys, (preferredOffsets ++ fallback).foldl (addDecoy cents) [cents] = cents :: decoys ∧
      Decoys cents .hard decoys ∧ decoys.length = 3 := by
  have hmem : ∀ offset, offset ∈ preferredOffsets ++ fallback ↔
      offset ∈ preferredOffsets ++ fallbackOffsets := fun offset =>
    (hf.append_left preferredOffsets).mem_iff
  have hsmall : ∀ offset ∈ preferredOffsets ++ fallback, -3 ≤ offset ∧ offset ≤ 3 :=
    fun offset ho => (by decide : ∀ o ∈ preferredOffsets ++ fallbackOffsets, -3 ≤ o ∧ o ≤ 3) offset
      ((hmem offset).mp ho)
  obtain ⟨decoys, hall, h, -, hdealt⟩ := decoys_nil.addAll hroom hsmall
  refine ⟨decoys, hall, h, hdealt.elim id fun hdealt => ?_⟩
  have habove : ∀ k : Nat, 0 < k → (k : Int) ∈ preferredOffsets ++ fallbackOffsets →
      cents + k ∈ decoys := by
    intro k hk hoffset
    have hoption := hdealt k ((hmem k).mpr hoffset) (by omega)
    have hvalue : ((cents : Int) + k).toNat = cents + k := by omega
    rw [hvalue] at hoption
    exact (List.mem_cons.mp hoption).resolve_left (by omega)
  have hthree : [cents + 1, cents + 2, cents + 3] ⊆ decoys := by
    simp only [List.cons_subset, List.nil_subset, and_true]
    exact ⟨habove 1 (by decide) (by decide), habove 2 (by decide) (by decide),
      habove 3 (by decide) (by decide)⟩
  have hnodup : [cents + 1, cents + 2, cents + 3].Nodup := by simp
  exact Nat.le_antisymm h.atMost (hnodup.length_le_of_subset hthree)

end Hard

theorem yields_easyOptions (h : cents + 250 ≤ maxCount) :
    (easyOptions cents).Yields 1 fun raw => ∃ decoys, raw = cents :: decoys ∧
      Decoys cents .easy decoys ∧ decoys.length = 3 := by
  refine (yields_fresh (yields_nearDecoy (by omega))).bind fun near hnear => ?_
  refine ((yields_fresh (yields_highDecoy (by omega))).bind fun high hhigh => ?_).weaken fun _ h => h
  refine ((yields_fresh (yields_lowDecoy h)).bind fun low hlow => ?_).weaken fun _ h => h
  refine Draw.yields_pure ⟨[near, high, low], rfl, ⟨?_, ?_, ?_, Nat.le_refl 3⟩, rfl⟩
  · simp only [List.mem_cons, List.not_mem_nil, or_false, not_or] at hnear hhigh hlow
    simp only [List.nodup_cons, List.mem_cons, List.not_mem_nil, or_false, not_or]
    exact ⟨⟨Ne.symm hnear.2, Ne.symm hhigh.2.1, Ne.symm hlow.2.1⟩,
      ⟨Ne.symm hhigh.2.2, Ne.symm hlow.2.2.1⟩, Ne.symm hlow.2.2.2, not_false, List.nodup_nil⟩
  · simp only [List.mem_cons, List.not_mem_nil, or_false]
    rintro d (rfl | rfl | rfl)
    · exact hnear.1.2.1
    · omega
    · exact hlow.1.1
  · exact ⟨near, high, low, rfl, hnear.1.2.2, hhigh.1, hlow.1.2⟩

theorem yields_hardOptions (h : cents + 250 ≤ maxCount) :
    (hardOptions cents).Yields 1 fun raw => ∃ decoys, raw = cents :: decoys ∧
      Decoys cents .hard decoys ∧ decoys.length = 3 :=
  (Draw.yields_shuffle fallbackOffsets).bind fun _ hf =>
    Draw.yields_pure (exists_hardDecoys (by omega) hf)

theorem yields_rawOptions (h : cents + 250 ≤ maxCount) (difficulty : Difficulty) :
    (rawOptions cents difficulty).Yields 1 fun raw => ∃ decoys, raw = cents :: decoys ∧
      Decoys cents difficulty decoys ∧ decoys.length = 3 := by
  cases difficulty with
  | easy => exact yields_easyOptions h
  | hard => exact yields_hardOptions h

/-- A quotient to be picked from the answer and its wrong options, in some order. -/
theorem yields_choice {dividend divisor : Nat} (hcents : quotientCents dividend divisor = .ok cents)
    (h : cents + 250 ≤ maxCount) (difficulty : Difficulty) (now : Instant) :
    (choice dividend divisor difficulty now).Yields 0 fun p => ∃ decoys options : List Nat,
      (Decoys cents difficulty decoys ∧ decoys.length = 3) ∧ options.Perm (cents :: decoys) ∧
      p = ⟨Skill.fourDigitDivision, operationText dividend "÷" divisor, centsText cents,
        some (options.map centsText), now⟩ := by
  refine (Draw.yields_lift ⟨cents, hcents, rfl⟩).bind ?_
  rintro _ rfl
  refine ((yields_rawOptions h difficulty).bind fun raw hraw => ?_).weaken fun _ h => h
  obtain ⟨decoys, rfl, hdecoys⟩ := hraw
  refine ((Draw.yields_shuffle _).bind fun options hoptions => ?_).weaken fun _ h => h
  exact Draw.yields_pure ⟨decoys, options, hdecoys, hoptions, rfl⟩

end MentalMath.Problem
