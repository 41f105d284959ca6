import Mathlib.Data.List.Count
import Mathlib.Data.List.Forall2
import Mathlib.Data.List.Nodup
import MentalMath.Proofs.Problem.Picking
import MentalMath.Proofs.Problem.Posed

/-! How the options of a quotient lie about its answer. Every option is the text of an amount, and a
text denotes no other amount, so what holds of the amounts that were drawn holds of the texts that
are shown, in whatever order they come. -/

namespace MentalMath.Problem

open MentalMath.Random Text

/-! ### What a text denotes -/

/-- A text denotes an amount in hundredths: digits for whole units, a point and two more digits. -/
def Denotes (text : String) (cents : Nat) : Prop :=
  ∃ whole places : List Char, text.toList = whole ++ '.' :: places ∧
    (whole ≠ [] ∧ ∀ c ∈ whole, c.isDigit = true) ∧
    (places.length = 2 ∧ ∀ c ∈ places, c.isDigit = true) ∧
    cents = 100 * Nat.ofDigitChars 10 whole 0 + Nat.ofDigitChars 10 places 0

theorem denotes_centsText (cents : Nat) : Denotes (centsText cents) cents := by
  have hplaces : cents % 100 < Nat.pow 10 2 := Nat.mod_lt _ (by decide)
  refine ⟨Nat.toDigits 10 (cents / 100), (zeroPadded 2 (cents % 100)).toList,
    toList_centsText cents, ⟨Nat.toDigits_ne_nil, fun c hc => ?_⟩,
    ⟨length_zeroPadded 2 (by decide) hplaces, fun c hc => isDigit_of_mem_zeroPadded hc⟩, ?_⟩
  · exact Nat.isDigit_of_mem_toDigits (by decide) (by decide) hc
  · rw [Nat.ofDigitChars_ten_toDigits, ofDigitChars_zeroPadded]
    exact (Nat.div_add_mod cents 100).symm

/-- The digits before a point end there, so no text denotes two amounts. -/
theorem Denotes.unique {text : String} {a b : Nat} (ha : Denotes text a) (hb : Denotes text b) :
    a = b := by
  obtain ⟨whole, places, htext, ⟨-, hwhole⟩, -, rfl⟩ := ha
  obtain ⟨whole', places', htext', ⟨-, hwhole'⟩, -, rfl⟩ := hb
  obtain ⟨rfl, hplaces⟩ := digits_append_inj hwhole hwhole' rfl rfl (htext.symm.trans htext')
  rw [(List.cons.inj hplaces).2]

theorem denotes_centsText_iff {cents amount : Nat} :
    Denotes (centsText cents) amount ↔ amount = cents := by
  constructor
  · exact fun h => h.unique (denotes_centsText cents)
  · rintro rfl
    exact denotes_centsText amount

/-! ### Amounts about an answer -/

/-- How far two amounts are apart. -/
def gap (a b : Nat) : Nat :=
  (a - b) + (b - a)

/-- How the wrong options of a difficulty lie about the answer. Hard ones are at most three
hundredths away. One of the easy ones is at most five hundredths away; the two others are at least 50
and at most 250 away, and one of these is above the answer. -/
def Difficulty.Surrounds (cents : Nat) : Difficulty → List Nat → Prop
  | .hard, decoys => ∀ d ∈ decoys, gap d cents ≤ 3
  | .easy, decoys => ∃ near far above, decoys.Perm [near, far, above] ∧ gap near cents ≤ 5 ∧
      (50 ≤ gap far cents ∧ gap far cents ≤ 250) ∧
      (50 ≤ gap above cents ∧ gap above cents ≤ 250) ∧ cents < above

variable {cents : Nat} {difficulty : Difficulty} {decoys decoys' : List Nat}

theorem Difficulty.Surrounds.perm (h : difficulty.Surrounds cents decoys)
    (hperm : decoys'.Perm decoys) : difficulty.Surrounds cents decoys' := by
  cases difficulty with
  | hard => exact fun d hd => h d (hperm.mem_iff.mp hd)
  | easy =>
    obtain ⟨near, far, above, horder, hspaced⟩ := h
    exact ⟨near, far, above, hperm.trans horder, hspaced⟩

theorem Difficulty.Spread.surrounds (h : difficulty.Spread cents decoys) :
    difficulty.Surrounds cents decoys := by
  cases difficulty with
  | hard =>
    intro d hd
    have hnear := h d hd
    simp only [gap]
    omega
  | easy =>
    obtain ⟨near, high, low, rfl, hnear, hhigh, hlow⟩ := h
    refine ⟨near, low, high, (List.Perm.swap low high []).cons near, ?_⟩
    simp only [gap]
    omega

/-! ### The texts that are shown -/

/-- Texts to pick from, one of which is the answer of a problem, and the others are about it as a
difficulty has them. -/
structure Spaced (p : Problem) (difficulty : Difficulty) (cents : Nat) (texts : List String) :
    Prop where
  offered : p.options = some texts
  four : texts.length = 4
  apart : texts.Nodup
  once : texts.count p.answer = 1
  answer : ∀ amount, Denotes p.answer amount ↔ amount = cents
  /-- The texts but the answer denote positive amounts. -/
  decoys : ∃ decoys, List.Forall₂ Denotes (texts.erase p.answer) decoys ∧ (∀ d ∈ decoys, 0 < d) ∧
    difficulty.Surrounds cents decoys

/-- Amounts that differ have different texts, so the options without the answer are the texts of the
wrong amounts. -/
theorem spaced_of_amounts {p : Problem} {amounts : List Nat}
    (ho : p.options = some (amounts.map centsText)) (ha : p.answer = centsText cents)
    (hperm : amounts.Perm (cents :: decoys)) (h : Decoys cents difficulty decoys)
    (hthree : decoys.length = 3) : p.Spaced difficulty cents (amounts.map centsText) := by
  have hapart : amounts.Nodup := hperm.nodup_iff.mpr h.apart
  have hrest : (amounts.erase cents).Perm decoys := by
    have herase := hperm.erase cents
    rwa [List.erase_cons_head] at herase
  have htexts : (amounts.map centsText).erase p.answer = (amounts.erase cents).map centsText := by
    rw [ha, List.map_erase centsText_injective]
  refine ⟨ho, ?four, hapart.map centsText_injective, ?once,
    fun amount => ha ▸ denotes_centsText_iff, amounts.erase cents, ?denoted,
    fun d hd => h.positive d (hrest.mem_iff.mp hd), h.spread.surrounds.perm hrest⟩
  case four => rw [List.length_map, hperm.length_eq, List.length_cons, hthree]
  case once =>
    rw [ha, List.count_map_of_injective _ _ centsText_injective]
    exact List.count_eq_one_of_mem hapart (hperm.mem_iff.mpr List.mem_cons_self)
  case denoted =>
    rw [htexts, List.forall₂_map_left_iff, List.forall₂_same]
    exact fun d _ => denotes_centsText d

/-- A divisor of zero counts as one, so the quotient is rounded to the nearest hundredth, a half up. -/
theorem exists_quotientCents_of_fits {a b : Nat} (h : 200 * a + max b 1 ≤ maxCount)
    (h' : 2 * max b 1 ≤ maxCount) :
    ∃ cents, quotientCents a b = .ok cents ∧ Hundredths a (max b 1) (centsText cents) := by
  have hpos : 0 < max b 1 := Nat.lt_of_lt_of_le Nat.one_pos (Nat.le_max_right b 1)
  have hsame : quotientCents a (max b 1) = quotientCents a b := by
    simp only [quotientCents, Nat.max_assoc, Nat.max_self]
  exact ⟨_, hsame ▸ quotientCents_eq_ok hpos h h', hundredths_centsText hpos⟩

/-- A quotient that can be rounded has four options, which lie about it as the difficulty says,
whatever words a source hands out; unless it runs dry, or it has a keystream and a wrong option was
drawn again too often. -/
theorem spaced_of_choice {dividend divisor : Nat} (h : 200 * dividend + max divisor 1 ≤ maxCount)
    (h' : 2 * max divisor 1 ≤ maxCount) (difficulty : Difficulty) (now : Instant)
    (source : WordSource) :
    (∃ p rest, choice dividend divisor difficulty now source = .ok (p, rest) ∧
      Hundredths dividend (max divisor 1) p.answer ∧
      ∃ cents texts, p.Spaced difficulty cents texts) ∨
    choice dividend divisor difficulty now source = .error .wordsExhausted ∧ source.more = none ∨
    choice dividend divisor difficulty now source = .error .redrawsExhausted ∧
      source.more.isSome = true := by
  obtain ⟨cents, hcents, hround⟩ := exists_quotientCents_of_fits h h'
  rcases yields_choice hcents (quotientCents_le hcents) difficulty now source with
    ⟨p, rest, hok, ⟨decoys, amounts, ⟨hdecoys, hthree⟩, hperm, hp⟩, -⟩ | ⟨f, hf, hstop⟩
  · have hspaced : p.Spaced difficulty cents (amounts.map centsText) := by
      subst hp
      exact spaced_of_amounts rfl rfl hperm hdecoys hthree
    refine Or.inl ⟨p, rest, hok, ?_, cents, _, hspaced⟩
    rw [hp]
    exact hround
  · cases hstop with
    | dry hs => exact Or.inr (Or.inl ⟨hf, hs⟩)
    | taken hs => exact Or.inr (Or.inr ⟨hf, hs⟩)

/-- An answer too small for low options, where the third wrong option falls on the second at first. -/
theorem spaced_of_choice_redrawn :
    let source : WordSource := .scripted [2000000000, 0, 0, 4294967295, 0, 1000000000, 300000005]
    (200 * 2 + max 5 1 ≤ maxCount ∧ 2 * max 5 1 ≤ maxCount) ∧
      ∃ p rest, choice 2 5 .easy .epoch source = .ok (p, rest) ∧
        (p.answer = "0.40" ∧ p.options = some ["2.13", "1.90", "0.43", "0.40"]) ∧
        Hundredths 2 (max 5 1) p.answer ∧ ∃ cents texts, p.Spaced .easy cents texts := by
  intro source
  have hfits : 200 * 2 + max 5 1 ≤ maxCount ∧ 2 * max 5 1 ≤ maxCount := by decide
  have hrun : (choice 2 5 .easy .epoch source).toOption.map (fun d => (d.1.answer, d.1.options)) =
      some ("0.40", some ["2.13", "1.90", "0.43", "0.40"]) := by decide +kernel
  refine ⟨hfits, ?_⟩
  rcases spaced_of_choice hfits.1 hfits.2 .easy .epoch source with
    ⟨p, rest, hok, hspaced⟩ | ⟨hdry, -⟩ | ⟨htaken, -⟩
  · rw [hok] at hrun
    exact ⟨p, rest, hok, Prod.mk.inj (Option.some.inj hrun), hspaced⟩
  · simp [hdry, Except.toOption] at hrun
  · simp [htaken, Except.toOption] at hrun

end MentalMath.Problem
