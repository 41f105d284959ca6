import MentalMath.Proofs.Problem.Drawn
import MentalMath.Proofs.Text.Numeral

/-! The text of a problem tells what it is. Operands and sign can be read off the text, the skills with
one sign have operands in ranges of their own, and a skill has one answer to its operands. -/

namespace MentalMath

theorem LeadingDigits.unique {n q : Nat} {s t : String} (hn : 0 < n) (hs : LeadingDigits n q s)
    (ht : LeadingDigits n q t) : s = t := by
  -- Cutting off more digits leaves too few of them.
  have hle : ∀ k l, 10 ^ (n - 1) ≤ q / 10 ^ l → q / 10 ^ k < 10 ^ n → l ≤ k := by
    intro k l hlow hhigh
    apply Nat.le_of_not_lt
    intro hkl
    obtain ⟨d, rfl⟩ : ∃ d, l = k + (d + 1) := ⟨l - k - 1, by omega⟩
    have hpow : 10 ^ n = 10 ^ (n - 1) * 10 := by
      rw [← Nat.pow_succ, Nat.succ_eq_add_one, Nat.sub_add_cancel hn]
    have hten : 10 ≤ 10 ^ (d + 1) := Nat.le_self_pow (by omega) 10
    have hcut : q / 10 ^ k / 10 ^ (d + 1) < 10 ^ (n - 1) := by
      rw [Nat.div_lt_iff_lt_mul (by omega)]
      exact Nat.lt_of_lt_of_le (hpow ▸ hhigh) (Nat.mul_le_mul_left _ hten)
    rw [Nat.pow_add, ← Nat.div_div_eq_div_mul] at hlow
    omega
  obtain ⟨k, hk, hk', rfl⟩ := hs
  obtain ⟨l, hl, hl', rfl⟩ := ht
  rw [Nat.le_antisymm (hle l k hk hl') (hle k l hl hk')]

theorem Hundredths.unique {a b : Nat} {s t : String} (hs : Hundredths a b s)
    (ht : Hundredths a b t) : s = t := by
  obtain ⟨c, hc, hc', rfl⟩ := hs
  obtain ⟨d, hd, hd', rfl⟩ := ht
  have hcents : c = d := by
    rw [← Nat.div_eq_of_lt_le hc hc', ← Nat.div_eq_of_lt_le hd hd']
  rw [hcents]

namespace Skill

variable {s s' : Skill} {a b : Nat}

theorem Solves.unique {t t' : String} (h : s.Solves a b t) (h' : s.Solves a b t') : t = t' := by
  cases s with
  | twoDigitAddition | threeDigitAddition | twoDigitSubtraction | threeDigitSubtraction
  | twoDigitMultiplication => exact h.trans h'.symm
  | divisionLeadingDigit | divisionTwoDigits => exact LeadingDigits.unique (by decide) h h'
  | fourDigitDivision => exact Hundredths.unique h h'

/-- The skill whose problems have a sign and operands. -/
def ofOperation (sign : String) (a b : Nat) : Skill :=
  match sign with
  | "+" => if a ≤ 99 then .twoDigitAddition else .threeDigitAddition
  | "-" => if a ≤ 99 then .twoDigitSubtraction else .threeDigitSubtraction
  | "×" => .twoDigitMultiplication
  | _ =>
    if a ≤ 9999 then .fourDigitDivision
    else if b ≤ 99 then .divisionLeadingDigit else .divisionTwoDigits

/-- Skills with the same sign have operands in ranges of their own. -/
theorem ofOperation_eq (h : s.Operands a b) : ofOperation s.sign a b = s := by
  cases s with
  | twoDigitMultiplication => rfl
  | twoDigitAddition | twoDigitSubtraction => exact if_pos h.1.2
  | threeDigitAddition | threeDigitSubtraction => exact if_neg (by have := h.1.1; omega)
  | fourDigitDivision => exact if_pos h.1.2
  | divisionLeadingDigit =>
    exact (if_neg (by have := h.1.1; omega)).trans (if_pos h.2.2)
  | divisionTwoDigits =>
    exact (if_neg (by have := h.1.1; omega)).trans (if_neg (by have := h.2.1; omega))

theorem length_sign (s : Skill) : s.sign.toList.length = 1 := by
  cases s <;> rfl

end Skill

namespace Problem

open MentalMath.Random

theorem toList_operationText (a b : Nat) (sign : String) : (operationText a sign b).toList =
    Nat.toDigits 10 a ++ ' ' :: (sign.toList ++ ' ' :: Nat.toDigits 10 b) := by
  simp [operationText]

theorem operationText_inj {a b a' b' : Nat} {sign sign' : String}
    (hlength : sign.toList.length = sign'.toList.length)
    (h : operationText a sign b = operationText a' sign' b') : a = a' ∧ sign = sign' ∧ b = b' := by
  have hchars := congrArg String.toList h
  rw [toList_operationText, toList_operationText] at hchars
  have hdigits : ∀ n, ∀ x ∈ Nat.toDigits 10 n, x.isDigit = true :=
    fun n x hx => Nat.isDigit_of_mem_toDigits (by decide) (by decide) hx
  have hvalue : ∀ {m n}, Nat.toDigits 10 m = Nat.toDigits 10 n → m = n := by
    intro m n hmn
    rw [← Nat.ofDigitChars_ten_toDigits (n := m), hmn, Nat.ofDigitChars_ten_toDigits]
  obtain ⟨ha, hrest⟩ := Text.digits_append_inj (hdigits a) (hdigits a') rfl rfl hchars
  obtain ⟨hsign, hb⟩ := List.append_inj (List.cons.inj hrest).2 hlength
  exact ⟨hvalue ha, String.toList_inj.mp hsign, hvalue (List.cons.inj hb).2⟩

/-- A problem that is drawn at some time, from some source and for some category. -/
def IsDrawn (p : Problem) : Prop :=
  ∃ (c : Category) (now : Instant) (count : Nat) (source : WordSource)
    (drawn : List Problem × WordSource), c.drawMany now count source = .ok drawn ∧ p ∈ drawn.1

theorem IsDrawn.exists_poses {p : Problem} (h : p.IsDrawn) : ∃ s now, p.Poses s now := by
  obtain ⟨c, now, count, source, drawn, hdrawn, hp⟩ := h
  rcases c.yields_drawMany now count source with ⟨problems, rest, hok, ⟨-, hfits⟩, -⟩ | ⟨f, hf, -⟩
  · rw [hdrawn] at hok
    cases hok
    obtain ⟨s, -, hposes⟩ := hfits p hp
    exact ⟨s, now, hposes⟩
  · rw [hdrawn] at hf
    cases hf

theorem isDrawn_of_singleton (c : Category) (now : Instant) (count : Nat) (source : WordSource)
    {p : Problem} (h : (c.drawMany now count source).toOption.map Prod.fst = some [p]) :
    p.IsDrawn := by
  obtain ⟨drawn, hdrawn, hp⟩ := Option.map_eq_some_iff.mp h
  cases hrun : c.drawMany now count source with
  | error f =>
    rw [hrun] at hdrawn
    cases hdrawn
  | ok drawn' =>
    rw [hrun] at hdrawn
    cases hdrawn
    exact ⟨c, now, count, source, drawn, hrun, hp ▸ List.mem_cons_self⟩

/-- Problems that are drawn with the same text are of the same category and have the same answer,
whenever, from whatever sources and for whatever categories they are drawn. -/
theorem agree_of_expression {p p' : Problem} (h : p.IsDrawn) (h' : p'.IsDrawn)
    (he : p.expression = p'.expression) : p.category = p'.category ∧ p.answer = p'.answer := by
  obtain ⟨s, now, hp⟩ := h.exists_poses
  obtain ⟨s', now', hp'⟩ := h'.exists_poses
  obtain ⟨a, b, hops, htext, hsolves⟩ := hp.operation
  obtain ⟨a', b', hops', htext', hsolves'⟩ := hp'.operation
  have hlength : s.sign.toList.length = s'.sign.toList.length := by
    rw [s.length_sign, s'.length_sign]
  rw [htext, htext'] at he
  obtain ⟨rfl, hsign, rfl⟩ := operationText_inj hlength he
  have hskill : s = s' := by
    rw [← Skill.ofOperation_eq hops, ← Skill.ofOperation_eq hops', hsign]
  subst hskill
  exact ⟨hp.category.trans hp'.category.symm, hsolves.unique hsolves'⟩

/-- Mixed practice and a practice of quotients come upon the same one, at different times and with
different options. -/
theorem agree_of_expression_of_quotients :
    ∃ p p' : Problem, (p.IsDrawn ∧ p'.IsDrawn ∧ p.expression = p'.expression) ∧
      p.options ≠ p'.options ∧ p.createdAt ≠ p'.createdAt ∧
      p.category = p'.category ∧ p.answer = p'.answer := by
  let later : Instant := ⟨86400, 0, by decide, by decide⟩
  let hard : Problem := ⟨Skill.fourDigitDivision, "3095 ÷ 5190", "0.60",
    some ["0.62", "0.60", "0.57", "0.59"], .epoch⟩
  let easy : Problem := ⟨Skill.fourDigitDivision, "3095 ÷ 5190", "0.60",
    some ["0.10", "0.60", "0.61", "1.10"], later⟩
  have hhard : hard.IsDrawn := isDrawn_of_singleton .mixed .epoch 1
    (.scripted [4000000000, 1000000000, 2000000000, 3000000000, 4000000000, 5, 6])
    (by decide +kernel)
  have heasy : easy.IsDrawn := isDrawn_of_singleton (.skill .fourDigitDivision) later 1
    (.scripted [1000000000, 2000000000, 3, 0, 4000000, 5, 3, 400000, 5, 6])
    (by decide +kernel)
  exact ⟨hard, easy, ⟨hhard, heasy, rfl⟩, by decide, by decide, agree_of_expression hhard heasy rfl⟩

end Problem

end MentalMath
