import Mathlib.Data.List.Basic

/-! Sorting keeps elements that may take the same place in their order, so it does not matter
whether a list is sorted before or after some of its elements are left out. -/

namespace MentalMath

variable {α : Type} {le : α → α → Bool} {a : α} {xs ys : List α}

/-- A list is taken apart where the elements begin that may come after a given one. -/
theorem filter_append_of_split (hxs : ∀ b ∈ xs, (!le a b) = true) (hys : ∀ b ∈ ys, le a b = true) :
    (xs ++ ys).filter (fun b => !le a b) = xs ∧ (xs ++ ys).filter (le a) = ys := by
  have hxs' : ∀ b ∈ xs, ¬le a b = true := fun b hb => by simpa using hxs b hb
  have hys' : ∀ b ∈ ys, ¬(!le a b) = true := fun b hb => by simpa using hys b hb
  constructor
  · rw [List.filter_append, List.filter_eq_self.mpr hxs, List.filter_eq_nil_iff.mpr hys',
      List.append_nil]
  · rw [List.filter_append, List.filter_eq_nil_iff.mpr hxs', List.filter_eq_self.mpr hys,
      List.nil_append]

theorem filter_mergeSort (trans : ∀ a b c, le a b = true → le b c = true → le a c = true)
    (total : ∀ a b, (le a b || le b a) = true) (p : α → Bool) (l : List α) :
    (l.mergeSort le).filter p = (l.filter p).mergeSort le := by
  induction l with
  | nil => simp
  | cons a l ih =>
    obtain ⟨xs, ys, hsort, hrest, hxs⟩ := List.mergeSort_cons trans total a l
    rw [hrest] at ih
    cases hp : p a with
    | false => simpa [hsort, hp] using ih
    | true =>
      obtain ⟨xs', ys', hsort', hrest', hxs'⟩ := List.mergeSort_cons trans total a (l.filter p)
      have hlater : ∀ {xs ys l : List α}, l.mergeSort le = xs ++ a :: ys →
          ∀ b ∈ ys, le a b = true := by
        intro xs ys l heq b hb
        have hsorted := List.pairwise_mergeSort trans total l
        rw [heq] at hsorted
        exact (List.pairwise_cons.mp (List.pairwise_append.mp hsorted).2.1).1 b hb
      -- both sides are split by the same test, into what comes before `a` and what comes after it
      have hsplit := filter_append_of_split hxs (hlater hsort)
      have hsplit' := filter_append_of_split hxs' (hlater hsort')
      rw [← hrest', ← ih] at hsplit'
      have hbefore : xs' = xs.filter p := by
        rw [← hsplit'.1, List.filter_comm, hsplit.1]
      have hafter : ys' = ys.filter p := by
        rw [← hsplit'.2, List.filter_comm, hsplit.2]
      rw [hsort, List.filter_append, List.filter_cons_of_pos hp, List.filter_cons_of_pos hp, hsort',
        hbefore, hafter]

end MentalMath
