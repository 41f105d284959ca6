import MentalMath.Problem.Generator
import MentalMath.Proofs.Problem.Choices
import MentalMath.Proofs.Problem.Posed

/-! What a random problem is. Whatever words a source hands out, no calculation of a problem leaves its
range, and the problem is one of its skill: its operands are in the range of the skill, and its answer is
the answer to them. -/

namespace MentalMath

open MentalMath.Random

namespace Problem

/-- Two numbers at random and a remainder make a dividend of five digits for the first of them. -/
theorem yields_division {s : Skill} (hs : s = .divisionLeadingDigit ∨ s = .divisionTwoDigits)
    {divisor seed : Nat} (hdivisor : 0 < divisor ∧ divisor ≤ 999) (hseed : seed ≤ 99)
    (hops : ∀ a, 10000 ≤ a ∧ a ≤ 99999 → s.Operands a divisor) (now : Instant) :
    (do let remainder ← Draw.below divisor
        return division s (← dividend divisor seed remainder) divisor now : Draw Problem).Yields 0
      fun p => p.Poses s now := by
  have hwords : divisor ≤ Draw.wordCount := by
    simp only [Draw.wordCount]
    omega
  refine ((Draw.yields_below hdivisor.1 hwords).bind fun remainder hr => ?_).weaken fun _ h => h
  refine (Draw.yields_lift (exists_dividend hdivisor.2 hseed hr)).bind fun a ha => ?_
  exact Draw.yields_pure (poses_division hs (hops a ha) now)

end Problem

theorem Skill.yields_draw (s : Skill) (now : Instant) :
    (s.draw now).Yields 0 fun p => p.Poses s now := by
  have hwords {n : Nat} (h : n ≤ 999) (lo : Nat) : n - lo + 1 ≤ Draw.wordCount := by
    simp only [Draw.wordCount]
    omega
  cases s with
  | twoDigitAddition =>
    refine Draw.yields_of_between (by decide) (by decide) fun a ha => ?_
    refine Draw.yields_of_between (by decide) (by decide) fun b hb => ?_
    exact Draw.yields_lift (Problem.exists_addition (Or.inl rfl) ⟨ha, hb⟩ now)
  | twoDigitSubtraction =>
    refine Draw.yields_of_between (by decide) (by decide) fun a ha => ?_
    refine Draw.yields_of_between ha.1 (hwords (by omega) 10) fun b hb => ?_
    exact Draw.yields_pure (Problem.poses_subtraction (Or.inl rfl) ⟨ha, hb⟩ now)
  | threeDigitAddition =>
    refine Draw.yields_of_between (by decide) (by decide) fun a ha => ?_
    refine Draw.yields_of_between (by decide) (by decide) fun b hb => ?_
    exact Draw.yields_lift (Problem.exists_addition (Or.inr rfl) ⟨ha, hb⟩ now)
  | threeDigitSubtraction =>
    refine Draw.yields_of_between (by decide) (by decide) fun a ha => ?_
    refine Draw.yields_of_between ha.1 (hwords ha.2 100) fun b hb => ?_
    exact Draw.yields_pure (Problem.poses_subtraction (Or.inr rfl) ⟨ha, hb⟩ now)
  | twoDigitMultiplication =>
    refine Draw.yields_of_between (by decide) (by decide) fun a ha => ?_
    refine Draw.yields_of_between (by decide) (by decide) fun b hb => ?_
    exact Draw.yields_lift (Problem.exists_multiplication ⟨ha, hb⟩ now)
  | divisionLeadingDigit =>
    refine Draw.yields_of_between (by decide) (by decide) fun divisor hd => ?_
    refine Draw.yields_of_between (by decide) (by decide) fun seed hs => ?_
    have hpos : 0 < divisor ∧ divisor ≤ 999 := by omega
    exact Problem.yields_division (Or.inl rfl) hpos (by omega) (fun a ha => ⟨ha, hd⟩) now
  | divisionTwoDigits =>
    refine Draw.yields_of_between (by decide) (by decide) fun divisor hd => ?_
    refine Draw.yields_of_between (by decide) (by decide) fun seed hs => ?_
    have hpos : 0 < divisor ∧ divisor ≤ 999 := by omega
    exact Problem.yields_division (Or.inr rfl) hpos hs.2 (fun a ha => ⟨ha, hd⟩) now
  | fourDigitDivision =>
    refine Draw.yields_of_between (by decide) (by decide) fun a ha => ?_
    refine Draw.yields_of_between (by decide) (by decide) fun b hb => ?_
    refine ((Draw.yields_chance _).bind fun easy _ => ?_).weaken fun _ h => h
    obtain ⟨cents, hcents, hroom, htext⟩ := Problem.exists_quotientCents ⟨ha, hb⟩
    refine (Problem.yields_choice hcents hroom _ now).weaken ?_
    rintro _ ⟨decoys, options, -, -, rfl⟩
    exact ⟨rfl, rfl, ⟨fun _ => rfl, fun _ => rfl⟩, a, b, ⟨ha, hb⟩, rfl, htext⟩

/-- A problem of a category is one of its skill, or of any skill in mixed practice. -/
def Problem.Fits (p : Problem) (c : Category) (now : Instant) : Prop :=
  ∃ s : Skill, (c = .mixed ∨ c = .skill s) ∧ p.Poses s now

namespace Category

theorem yields_draw (c : Category) (now : Instant) :
    (c.draw now).Yields 0 fun p => p.Fits c now := by
  cases c with
  | mixed =>
    refine ((Draw.yields_choose _ (by decide) (by decide)).bind fun s _ => ?_).weaken fun _ h => h
    exact (s.yields_draw now).weaken fun p hp => ⟨s, Or.inl rfl, hp⟩
  | skill s => exact (s.yields_draw now).weaken fun p hp => ⟨s, Or.inr rfl, hp⟩

theorem yields_drawMany (c : Category) (now : Instant) (count : Nat) :
    (c.drawMany now count).Yields 0 fun problems =>
      problems.length = count ∧ ∀ p ∈ problems, p.Fits c now := by
  induction count with
  | zero => exact Draw.yields_pure ⟨rfl, fun p hp => by cases hp⟩
  | succ count ih =>
    refine (c.yields_draw now).bind fun p hp => ?_
    refine ih.bind fun problems hproblems => ?_
    exact Draw.yields_pure ⟨congrArg (· + 1) hproblems.1, List.forall_mem_cons.mpr ⟨hp, hproblems.2⟩⟩

/-- Eight words are more than enough for a quotient with hard options. -/
example : ((skill .fourDigitDivision).drawMany .epoch 1
    (.scripted [1000000000, 2000000000, 3000000000, 4000000000, 5, 6, 7, 8])).toOption.map
      (fun r => r.1.map fun p => (p.expression, p.answer, p.options)) =
    some [("3095 ÷ 5190", "0.60", some ["0.62", "0.60", "0.57", "0.59"])] := by
  decide +kernel

end Category

end MentalMath
