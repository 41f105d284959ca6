import Mathlib.Logic.ExistsUnique
import MentalMath.Proofs.Problem.Choices
import MentalMath.Proofs.Text.Numeral

/-! How a text answers a quotient with options. The number of an option stands for its text, in any
numeral, and every other text stands for itself. The text of an option has a point, so it is never a
number; amounts that differ have different texts, so exactly one number stands for the answer. -/

namespace MentalMath

namespace Text

theorem numeral_toString (n : Nat) : Numeral n (toString n) := by
  refine ⟨Nat.toDigits 10 n, ⟨Nat.toDigits_ne_nil, fun c hc => ?_⟩, Nat.ofDigitChars_ten_toDigits,
    Or.inl (by simp)⟩
  exact Nat.isDigit_of_mem_toDigits (by decide) (by decide) hc

/-- A numeral has no character but digits and a plus sign. -/
theorem Numeral.isDigit_or {n : Nat} {text : String} (h : Numeral n text) :
    ∀ c ∈ text.toList, c.isDigit = true ∨ c = '+' := by
  obtain ⟨ds, ⟨-, hd⟩, -, htext | htext⟩ := h
  · rw [htext]
    exact fun c hc => Or.inl (hd c hc)
  · rw [htext]
    exact List.forall_mem_cons.mpr ⟨Or.inr rfl, fun c hc => Or.inl (hd c hc)⟩

end Text

namespace Problem

open MentalMath.Random Text

/-! ### The texts of amounts -/

theorem toList_centsText (cents : Nat) : (centsText cents).toList =
    Nat.toDigits 10 (cents / 100) ++ '.' :: (zeroPadded 2 (cents % 100)).toList := by
  simp [centsText]

theorem not_numeral_centsText (cents n : Nat) : ¬Numeral n (centsText cents) := by
  intro h
  have hpoint : '.' ∈ (centsText cents).toList := by
    rw [toList_centsText]
    exact List.mem_append_right _ List.mem_cons_self
  exact absurd (h.isDigit_or '.' hpoint) (by decide)

theorem centsText_injective : Function.Injective centsText := by
  intro a b h
  have hchars := congrArg String.toList h
  rw [toList_centsText, toList_centsText] at hchars
  have hdigits : ∀ n, ∀ c ∈ Nat.toDigits 10 n, c.isDigit = true :=
    fun n c hc => Nat.isDigit_of_mem_toDigits (by decide) (by decide) hc
  obtain ⟨hwhole, hplaces⟩ := digits_append_inj (hdigits _) (hdigits _) rfl rfl hchars
  have hhundreds : a / 100 = b / 100 := by
    rw [← Nat.ofDigitChars_ten_toDigits (n := a / 100), hwhole, Nat.ofDigitChars_ten_toDigits]
  have hrest : a % 100 = b % 100 := by
    rw [← ofDigitChars_zeroPadded 2 (a % 100), (List.cons.inj hplaces).2, ofDigitChars_zeroPadded]
  omega

/-! ### What a text stands for -/

section Resolve

variable {p : Problem} {options : List String} {n : Nat} {text : String}

theorem resolve_of_numeral (h : p.options = some options) (hlength : options.length ≤ maxUnsigned64)
    (hn : 1 ≤ n ∧ n ≤ options.length) (ht : Numeral n text) :
    options[n - 1]? = some (p.resolve text) := by
  have hread : readNat maxUnsigned64 text = .ok n :=
    readNat_eq_ok_iff.mpr ⟨ht, Nat.le_trans hn.2 hlength⟩
  have hpick : p.option? text = options[n - 1]? := by
    simp only [option?, h, hread, Except.toOption, Option.bind_eq_bind, Option.bind_some]
    exact if_neg (by omega)
  rw [resolve, hpick, List.getElem?_eq_getElem (by omega), Option.getD_some]

theorem resolve_of_not_numeral (h : p.options = some options)
    (ht : ∀ n, 1 ≤ n ∧ n ≤ options.length → ¬Numeral n text) : p.resolve text = text := by
  have hpick : p.option? text = none := by
    simp only [option?, h, Option.bind_eq_bind, Option.bind_some]
    cases hread : readNat maxUnsigned64 text with
    | error e => rfl
    | ok n =>
      have hnumeral := (readNat_eq_ok_iff.mp hread).1
      simp only [Except.toOption, Option.bind_some]
      have hrange : ¬(1 ≤ n ∧ n ≤ options.length) := fun hn => ht n hn hnumeral
      split
      · rfl
      · exact List.getElem?_eq_none (by omega)
  rw [resolve, hpick, Option.getD_none]

end Resolve

/-- What texts stand for in a problem of four options. -/
structure Offers (p : Problem) (options : List String) : Prop where
  offered : p.options = some options
  four : options.length = 4
  /-- One of the four numbers is the answer, and no other one. -/
  right : ∃! n, (1 ≤ n ∧ n ≤ 4) ∧ p.isCorrect (p.resolve (toString n)) = true
  /-- A number stands for the option in its place. -/
  picked : ∀ n text, 1 ≤ n ∧ n ≤ 4 → Numeral n text → options[n - 1]? = some (p.resolve text)
  /-- An option stands for itself. -/
  own : ∀ text ∈ options, p.resolve text = text
  /-- So does every text that is not one of the four numbers. -/
  other : ∀ text, (∀ n, 1 ≤ n ∧ n ≤ 4 → ¬Numeral n text) → p.resolve text = text

theorem offers_of_amounts {p : Problem} {cents : Nat} {amounts : List Nat}
    (ho : p.options = some (amounts.map centsText)) (ha : p.answer = centsText cents)
    (hfour : amounts.length = 4) (hapart : amounts.Nodup) (hmem : cents ∈ amounts) :
    p.Offers (amounts.map centsText) := by
  have hlength : (amounts.map centsText).length = 4 := by rw [List.length_map, hfour]
  have hpicked : ∀ n text, 1 ≤ n ∧ n ≤ 4 → Numeral n text →
      (amounts.map centsText)[n - 1]? = some (p.resolve text) := fun n text hn ht =>
    resolve_of_numeral ho (by rw [hlength]; decide) (by rw [hlength]; exact hn) ht
  have hother : ∀ text, (∀ n, 1 ≤ n ∧ n ≤ 4 → ¬Numeral n text) → p.resolve text = text :=
    fun text ht => resolve_of_not_numeral ho (by rw [hlength]; exact ht)
  -- A number is the answer exactly if its place is that of the amount.
  have hright : ∀ n, 1 ≤ n ∧ n ≤ 4 →
      (p.isCorrect (p.resolve (toString n)) = true ↔ amounts[n - 1]? = some cents) := by
    intro n hn
    have hpick := hpicked n (toString n) hn (numeral_toString n)
    obtain ⟨amount, hamount, htext⟩ := Option.map_eq_some_iff.mp (List.getElem?_map ▸ hpick)
    rw [isCorrect, beq_iff_eq, ha, ← htext, hamount, Option.some.injEq]
    exact centsText_injective.eq_iff
  refine ⟨ho, hlength, ?_, hpicked, fun text htext => hother text ?_, hother⟩
  · obtain ⟨i, hi, hcents⟩ := List.mem_iff_getElem.mp hmem
    refine ⟨i + 1, ⟨by omega, (hright (i + 1) (by omega)).mpr ?_⟩, ?_⟩
    · rw [Nat.add_sub_cancel, List.getElem?_eq_getElem hi, hcents]
    · rintro n ⟨hn, hcorrect⟩
      obtain ⟨hn', hamount⟩ := List.getElem?_eq_some_iff.mp ((hright n hn).mp hcorrect)
      have hplace := (List.getElem_inj hapart).mp (hamount.trans hcents.symm)
      omega
  · obtain ⟨amount, -, rfl⟩ := List.mem_map.mp htext
    exact fun n _ => not_numeral_centsText amount n

/-- A quotient in hundredths leaves room for the options. -/
theorem quotientCents_le {a b cents : Nat} (h : quotientCents a b = .ok cents) :
    cents + 250 ≤ maxCount := by
  obtain ⟨product, -, h⟩ := Checked.bind_eq_ok.mp h
  obtain ⟨numerator, hsum, h⟩ := Checked.bind_eq_ok.mp h
  obtain ⟨double, hdouble, h⟩ := Checked.bind_eq_ok.mp h
  cases h
  obtain ⟨hnumerator, rfl⟩ := Count.add_eq_ok_iff.mp hsum
  obtain ⟨-, rfl⟩ := Count.mul_eq_ok_iff.mp hdouble
  have hhalf : (product + max b 1) / (2 * max b 1) ≤ (product + max b 1) / 2 :=
    Nat.div_le_div_left (by omega) (by decide)
  simp only [maxCount] at hnumerator ⊢
  omega

/-- However the options of a quotient are drawn, exactly one of the numbers from one to four stands for
the answer, each option stands for itself, and so does every text but the numerals of these numbers. -/
theorem offers_of_choice {dividend divisor : Nat} {difficulty : Difficulty} {now : Instant}
    {source : WordSource} {drawn : Problem × WordSource}
    (h : choice dividend divisor difficulty now source = .ok drawn) :
    ∃ options, drawn.1.Offers options := by
  cases hcents : quotientCents dividend divisor with
  | error f =>
    have hstop : choice dividend divisor difficulty now source = .error f := by
      rw [choice, hcents]
      rfl
    cases hstop.symm.trans h
  | ok cents =>
    rcases yields_choice hcents (quotientCents_le hcents) difficulty now source with
      ⟨p, rest, hok, ⟨decoys, options, ⟨hdecoys, hthree⟩, hperm, rfl⟩, -⟩ | ⟨f, hstop, -⟩
    · cases hok.symm.trans h
      refine ⟨options.map centsText, offers_of_amounts rfl rfl ?_ ?_ ?_⟩
      · rw [hperm.length_eq, List.length_cons, hthree]
      · exact hperm.nodup_iff.mpr hdecoys.apart
      · exact hperm.mem_iff.mpr List.mem_cons_self
    · cases hstop.symm.trans h

/-- A quotient that rounds to nothing, with easy options that are all above it. -/
theorem offers_of_choice_of_nothing :
    let source : WordSource := .scripted [4000000000, 0, 0, 2000000000, 1000000000, 300000005]
    ∃ drawn, (choice 1 400 .easy .epoch source = .ok drawn ∧
      drawn.1.answer = "0.00" ∧ drawn.1.options = some ["1.73", "0.97", "0.05", "0.00"]) ∧
      ∃ options, drawn.1.Offers options := by
  intro source
  have hrun : (choice 1 400 .easy .epoch source).toOption.map (fun d => (d.1.answer, d.1.options)) =
      some ("0.00", some ["1.73", "0.97", "0.05", "0.00"]) := by decide +kernel
  cases hchoice : choice 1 400 .easy .epoch source with
  | error f => simp [hchoice, Except.toOption] at hrun
  | ok drawn =>
    rw [hchoice] at hrun
    have htexts := Prod.mk.inj (Option.some.inj hrun)
    exact ⟨drawn, ⟨rfl, htexts⟩, offers_of_choice hchoice⟩

end Problem

end MentalMath
