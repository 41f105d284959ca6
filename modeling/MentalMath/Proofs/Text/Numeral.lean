import MentalMath.Text.Numeral

/-! Numbers that are written in a width are read back. The digits of a number make it again from left
to right, and a number that is within the range at its end was so at each digit before. Nothing is read
as a number but its numerals. -/

namespace MentalMath.Text

theorem digit?_of_isDigit {c : Char} (h : c.isDigit = true) :
    digit? c = some (c.toNat - '0'.toNat) := by
  have hc : '0' ≤ c ∧ c ≤ '9' := by
    simp only [Char.isDigit, ge_iff_le, Bool.and_eq_true, decide_eq_true_eq] at h
    exact h
  exact if_pos hc

theorem digit?_eq_some_iff {c : Char} {d : Nat} :
    digit? c = some d ↔ c.isDigit = true ∧ d = c.toNat - '0'.toNat := by
  by_cases h : c.isDigit = true
  · rw [digit?_of_isDigit h, Option.some.injEq]
    exact ⟨fun hd => ⟨h, hd.symm⟩, fun hd => hd.2.symm⟩
  · have hc : ¬('0' ≤ c ∧ c ≤ '9') := by
      simp only [Char.isDigit, ge_iff_le, Bool.and_eq_true, decide_eq_true_eq] at h
      exact h
    simp [digit?, hc, h]

theorem le_ofDigitChars (cs : List Char) (n : Nat) : n ≤ Nat.ofDigitChars 10 cs n := by
  induction cs generalizing n with
  | nil => exact Nat.le_of_eq Nat.ofDigitChars_nil.symm
  | cons c cs ih =>
    rw [Nat.ofDigitChars_cons]
    exact Nat.le_trans (by omega) (ih _)

/-- Digits make their number. -/
theorem readDigits_eq_ok {limit n : Nat} (tooFar : NumeralError) {cs : List Char}
    (hd : ∀ c ∈ cs, c.isDigit = true) (hl : Nat.ofDigitChars 10 cs n ≤ limit) :
    readDigits limit n tooFar cs = .ok (Nat.ofDigitChars 10 cs n) := by
  induction cs generalizing n with
  | nil => rw [readDigits, Nat.ofDigitChars_nil]
  | cons c cs ih =>
    rw [Nat.ofDigitChars_cons] at hl ⊢
    have hstep : n * 10 + (c.toNat - '0'.toNat) = 10 * n + (c.toNat - '0'.toNat) := by omega
    have hle := le_ofDigitChars cs (10 * n + (c.toNat - '0'.toNat))
    simp only [readDigits, digit?_of_isDigit (hd c List.mem_cons_self), hstep]
    rw [if_pos (Nat.le_trans hle hl)]
    exact ih (fun c hc => hd c (List.mem_cons_of_mem _ hc)) hl

/-- Only digits are read, and only a number in the range. -/
theorem readDigits_eq_ok_iff {limit n m : Nat} {tooFar : NumeralError} {cs : List Char}
    (hn : n ≤ limit) : readDigits limit n tooFar cs = .ok m ↔
      (∀ c ∈ cs, c.isDigit = true) ∧ Nat.ofDigitChars 10 cs n = m ∧ m ≤ limit := by
  constructor
  · intro h
    induction cs generalizing n with
    | nil =>
      cases h
      exact ⟨fun c hc => absurd hc List.not_mem_nil, Nat.ofDigitChars_nil, hn⟩
    | cons c cs ih =>
      simp only [readDigits] at h
      split at h
      · cases h
      · next d hd =>
        obtain ⟨hc, rfl⟩ := digit?_eq_some_iff.mp hd
        split at h
        · next hle =>
          obtain ⟨hcs, hvalue, hm⟩ := ih hle h
          have hstep : n * 10 + (c.toNat - '0'.toNat) = 10 * n + (c.toNat - '0'.toNat) := by omega
          refine ⟨List.forall_mem_cons.mpr ⟨hc, hcs⟩, ?_, hm⟩
          rw [Nat.ofDigitChars_cons, ← hvalue, hstep]
        · cases h
  · rintro ⟨hd, rfl, hl⟩
    exact readDigits_eq_ok tooFar hd hl

/-- A text is a numeral of a number: digits that make the number, maybe after a plus sign. -/
def Numeral (n : Nat) (text : String) : Prop :=
  ∃ ds : List Char, (ds ≠ [] ∧ ∀ c ∈ ds, c.isDigit = true) ∧ Nat.ofDigitChars 10 ds 0 = n ∧
    (text.toList = ds ∨ text.toList = '+' :: ds)

/-- What is read as a number are its numerals. -/
theorem readNat_eq_ok_iff {limit n : Nat} {text : String} :
    readNat limit text = .ok n ↔ Numeral n text ∧ n ≤ limit := by
  have hdigits : ∀ {cs : List Char}, readDigits limit 0 .tooLarge cs = .ok n ↔
      (∀ c ∈ cs, c.isDigit = true) ∧ Nat.ofDigitChars 10 cs 0 = n ∧ n ≤ limit :=
    readDigits_eq_ok_iff (Nat.zero_le _)
  constructor
  · intro h
    simp only [readNat] at h
    split at h
    · cases h
    · cases h
    · next cs hne htext =>
      obtain ⟨hd, hn, hl⟩ := hdigits.mp h
      exact ⟨⟨cs, ⟨fun hnil => hne hnil, hd⟩, hn, Or.inr htext⟩, hl⟩
    · next cs hne _ _ =>
      obtain ⟨hd, hn, hl⟩ := hdigits.mp h
      exact ⟨⟨_, ⟨hne, hd⟩, hn, Or.inl rfl⟩, hl⟩
  · rintro ⟨⟨ds, ⟨hne, hd⟩, hn, htext⟩, hl⟩
    have hread := hdigits.mpr ⟨hd, hn, hl⟩
    obtain ⟨c, cs, rfl⟩ := List.exists_cons_of_ne_nil hne
    rcases htext with htext | htext
    · have hplus : c ≠ '+' := by
        rintro rfl
        exact absurd (hd _ List.mem_cons_self) (by decide)
      simp only [readNat, htext]
      split
      · next h => cases h
      · next h =>
        cases h
        exact absurd rfl hplus
      · next h =>
        cases h
        exact absurd rfl hplus
      · exact hread
    · simp only [readNat, htext]
      exact hread

theorem toList_zeroPadded (width n : Nat) : (zeroPadded width n).toList =
    List.replicate (width - (Nat.toDigits 10 n).length) '0' ++ Nat.toDigits 10 n := by
  simp [zeroPadded]

theorem isDigit_of_mem_zeroPadded {width n : Nat} {c : Char}
    (h : c ∈ (zeroPadded width n).toList) : c.isDigit = true := by
  rw [toList_zeroPadded] at h
  cases List.mem_append.mp h with
  | inl h => rw [List.eq_of_mem_replicate h]; rfl
  | inr h => exact Nat.isDigit_of_mem_toDigits (by decide) (by decide) h

theorem le_length_zeroPadded (width n : Nat) : width ≤ (zeroPadded width n).toList.length := by
  rw [toList_zeroPadded, List.length_append, List.length_replicate]
  omega

theorem length_zeroPadded (width : Nat) {n : Nat} (hw : 0 < width) (h : n < Nat.pow 10 width) :
    (zeroPadded width n).toList.length = width := by
  have hle := (Nat.length_toDigits_le_iff (b := 10) (by decide) hw).mpr h
  rw [toList_zeroPadded, List.length_append, List.length_replicate]
  omega

theorem ofDigitChars_zeroPadded (width n : Nat) :
    Nat.ofDigitChars 10 (zeroPadded width n).toList 0 = n := by
  rw [toList_zeroPadded, Nat.ofDigitChars_append, Nat.ofDigitChars_replicate_zero, Nat.mul_zero,
    Nat.ofDigitChars_ten_toDigits]

/-- Digits end where the first other character is. -/
theorem digits_append_inj {ds es : List Char} {c d : Char} {r s : List Char}
    (hds : ∀ x ∈ ds, x.isDigit = true) (hes : ∀ x ∈ es, x.isDigit = true)
    (hc : c.isDigit = false) (hd : d.isDigit = false) (h : ds ++ c :: r = es ++ d :: s) :
    ds = es ∧ c :: r = d :: s := by
  have hfront := congrArg (List.takeWhile Char.isDigit) h
  rw [List.takeWhile_append_of_pos hds, List.takeWhile_append_of_pos hes,
    List.takeWhile_cons_of_neg (by simp [hc]), List.takeWhile_cons_of_neg (by simp [hd]),
    List.append_nil, List.append_nil] at hfront
  subst hfront
  exact ⟨rfl, List.append_cancel_left h⟩

end MentalMath.Text
