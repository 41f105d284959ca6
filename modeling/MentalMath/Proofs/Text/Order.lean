import Mathlib.Data.String.Basic
import MentalMath.Proofs.Text.Numeral

/-! Numerals in the order of their characters. Numbers come in the order of their texts if these are
equally long, and so do digits after a point, whatever their number is. -/

namespace MentalMath.Text

theorem toNat_of_isDigit {c : Char} (h : c.isDigit = true) :
    '0'.toNat ≤ c.toNat ∧ c.toNat ≤ '9'.toNat := by
  simp only [Char.isDigit, ge_iff_le, Bool.and_eq_true, decide_eq_true_eq] at h
  exact h

theorem ofDigitChars_cons_zero (c : Char) (cs : List Char) : Nat.ofDigitChars 10 (c :: cs) 0 =
    (c.toNat - '0'.toNat) * 10 ^ cs.length + Nat.ofDigitChars 10 cs 0 := by
  rw [Nat.ofDigitChars_cons, Nat.ofDigitChars_eq_ofDigitChars_zero, Nat.mul_zero, Nat.zero_add,
    Nat.mul_comm]

theorem ofDigitChars_lt {cs : List Char} (h : ∀ c ∈ cs, c.isDigit = true) :
    Nat.ofDigitChars 10 cs 0 < 10 ^ cs.length := by
  induction cs with
  | nil => exact Nat.one_pos
  | cons c cs ih =>
    have hc := toNat_of_isDigit (h c List.mem_cons_self)
    have hrest := ih fun x hx => h x (List.mem_cons_of_mem _ hx)
    have hhead : (c.toNat - '0'.toNat) * 10 ^ cs.length ≤ 9 * 10 ^ cs.length := by
      apply Nat.mul_le_mul_right
      have hten : '9'.toNat = '0'.toNat + 9 := rfl
      omega
    rw [ofDigitChars_cons_zero, List.length_cons, Nat.pow_succ]
    omega

variable {r s : List Char}

/-- Digits come in the order of their values as parts of a whole. What follows them counts only where
there are fewer digits, and must then come before any digit. -/
theorem append_lt_append {n : Nat} {ds es : List Char} (hds : ∀ c ∈ ds, c.isDigit = true)
    (hes : ∀ c ∈ es, c.isDigit = true) (hd : ds.length ≤ n) (he : es.length ≤ n)
    (hr : ds.length = es.length ∨ ∀ c cs, c.isDigit = true → r < c :: cs)
    (h : Nat.ofDigitChars 10 ds 0 * 10 ^ (n - ds.length) <
      Nat.ofDigitChars 10 es 0 * 10 ^ (n - es.length)) : ds ++ r < es ++ s := by
  induction ds generalizing es n with
  | nil =>
    cases es with
    | nil => exact absurd h (Nat.lt_irrefl _)
    | cons e es =>
      rcases hr with hr | hr
      · cases hr
      · exact hr e (es ++ s) (hes e List.mem_cons_self)
  | cons d ds ih =>
    cases es with
    | nil => simp [Nat.ofDigitChars_nil] at h
    | cons e es =>
      obtain ⟨n, rfl⟩ : ∃ k, n = k + 1 := ⟨n - 1, (Nat.sub_add_cancel (Nat.one_le_of_lt hd)).symm⟩
      have hd := Nat.le_of_succ_le_succ hd
      have he := Nat.le_of_succ_le_succ he
      have hcut : ∀ (c : Char) (cs : List Char), cs.length ≤ n →
          Nat.ofDigitChars 10 (c :: cs) 0 * 10 ^ (n + 1 - (c :: cs).length) =
            (c.toNat - '0'.toNat) * 10 ^ n + Nat.ofDigitChars 10 cs 0 * 10 ^ (n - cs.length) := by
        intro c cs hcs
        rw [ofDigitChars_cons_zero, Nat.add_mul, Nat.mul_assoc, ← Nat.pow_add, List.length_cons,
          Nat.add_sub_add_right, Nat.add_sub_cancel' hcs]
      have hsmall : Nat.ofDigitChars 10 es 0 * 10 ^ (n - es.length) < 10 ^ n := by
        have hvalue := ofDigitChars_lt fun c hc => hes c (List.mem_cons_of_mem _ hc)
        have hscaled := Nat.mul_lt_mul_of_pos_right hvalue
          (Nat.pow_pos (n := n - es.length) (by decide : 0 < 10))
        rwa [← Nat.pow_add, Nat.add_sub_cancel' he] at hscaled
      have hd₀ := (toNat_of_isDigit (hds d List.mem_cons_self)).1
      have he₀ := (toNat_of_isDigit (hes e List.mem_cons_self)).1
      rw [hcut d ds hd, hcut e es he] at h
      rw [List.cons_append, List.cons_append, List.cons_lt_cons_iff]
      rcases Nat.lt_trichotomy d.toNat e.toNat with hlt | heq | hgt
      · exact Or.inl hlt
      · rw [heq] at h
        refine Or.inr ⟨Char.toNat_inj.mp heq, ih (fun c hc => hds c (List.mem_cons_of_mem _ hc))
          (fun c hc => hes c (List.mem_cons_of_mem _ hc)) hd he (hr.imp_left Nat.succ.inj) ?_⟩
        omega
      · have hstep : (e.toNat - '0'.toNat + 1) * 10 ^ n ≤ (d.toNat - '0'.toNat) * 10 ^ n :=
          Nat.mul_le_mul_right _ (by omega)
        rw [Nat.add_mul] at hstep
        omega

/-- Numbers in a width come in their order, and equal ones in the order of what follows them. -/
theorem zeroPadded_append_lt (width : Nat) {k l : Nat} (hw : 0 < width) (hk : k < Nat.pow 10 width)
    (hl : l < Nat.pow 10 width) (h : k < l ∨ k = l ∧ r < s) :
    (zeroPadded width k).toList ++ r < (zeroPadded width l).toList ++ s := by
  rcases h with h | ⟨rfl, h⟩
  · have hlk := length_zeroPadded width hw hk
    have hll := length_zeroPadded width hw hl
    apply append_lt_append (n := width) (fun c hc => isDigit_of_mem_zeroPadded hc)
      (fun c hc => isDigit_of_mem_zeroPadded hc) (Nat.le_of_eq hlk) (Nat.le_of_eq hll)
    · exact Or.inl (hlk.trans hll.symm)
    · rw [hlk, hll, ofDigitChars_zeroPadded, ofDigitChars_zeroPadded, Nat.sub_self]
      omega
  · exact List.append_left_lt h

/-- The same with a mark after the numbers. -/
theorem zeroPadded_mark_lt (width : Nat) (mark : Char) {k l : Nat} (hw : 0 < width)
    (hk : k < Nat.pow 10 width) (hl : l < Nat.pow 10 width) (h : k < l ∨ k = l ∧ r < s) :
    (zeroPadded width k).toList ++ mark :: r < (zeroPadded width l).toList ++ mark :: s :=
  zeroPadded_append_lt width hw hk hl (h.imp_right (And.imp_right List.cons_lt_cons_self.mpr))

end MentalMath.Text
