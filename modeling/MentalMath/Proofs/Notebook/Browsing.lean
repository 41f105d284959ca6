import Mathlib.Data.List.Induction
import MentalMath.Proofs.Notebook.Entries
import MentalMath.Proofs.Sorting

/-! What the notebook shows of a store that holds its values as they are. A filter shows a part of
the list of all entries, in its order; the counts are the lengths of such parts; the groups are the
parts of a list by category, and entering the entries one by one into groups that are kept in order
gives the same groups; and what is taken out is what the filter shows, while the rest stays in its
order. -/

namespace MentalMath

/-! ### Lists in order -/

namespace Mistake

variable {v w : Mistake}

theorem newestFirst_iff : newestFirst v w = true ↔ w.lastAt < v.lastAt ∨ v.lastAt = w.lastAt ∧
    (w.id.map MistakeId.value).getD 0 ≤ (v.id.map MistakeId.value).getD 0 := by
  simp [newestFirst]

theorem newestFirst_trans (u v w : Mistake) (huv : newestFirst u v = true)
    (hvw : newestFirst v w = true) : newestFirst u w = true := by
  rw [newestFirst_iff, Instant.lt_def, Instant.ext_iff] at *
  omega

theorem newestFirst_total (v w : Mistake) : (newestFirst v w || newestFirst w v) = true := by
  rw [Bool.or_eq_true, newestFirst_iff, newestFirst_iff, Instant.lt_def, Instant.lt_def,
    Instant.ext_iff, Instant.ext_iff]
  omega

end Mistake

theorem MistakeFilter.filter_admits_all (vs : List Mistake) :
    vs.filter MistakeFilter.all.admits = vs :=
  List.filter_eq_self.mpr fun _ _ => rfl

namespace Memory

variable (m : Memory) (f g : MistakeFilter)

theorem filter_listMistakes (p : Mistake → Bool) : (m.listMistakes f).filter p =
    (((m.mistakes.map Prod.snd).filter f.admits).filter p).mergeSort Mistake.newestFirst :=
  filter_mergeSort Mistake.newestFirst_trans Mistake.newestFirst_total p _

/-- A filter shows the part of all entries that it admits, in the order of all entries. -/
theorem listMistakes_eq : m.listMistakes f = (m.listMistakes .all).filter f.admits := by
  rw [filter_listMistakes, MistakeFilter.filter_admits_all]
  rfl

theorem listMistakes_sweep :
    (m.sweep f).listMistakes g = (m.listMistakes g).filter fun v => !f.admits v := by
  have hswept : (m.sweep f).mistakes.map Prod.snd =
      (m.mistakes.map Prod.snd).filter fun v => !f.admits v := by
    rw [List.filter_map]
    rfl
  rw [filter_listMistakes, List.filter_comm, ← hswept]
  rfl

theorem length_sweep :
    m.mistakes.length - (m.sweep f).mistakes.length = (m.listMistakes f).length := by
  have hshown : (m.listMistakes f).length = m.mistakes.countP fun e => f.admits e.2 := by
    rw [listMistakes, List.length_mergeSort, ← List.countP_eq_length_filter, List.countP_map]
    rfl
  have hall := List.length_eq_countP_add_countP (l := m.mistakes) fun e => f.admits e.2
  have hkept : (m.sweep f).mistakes.length = m.mistakes.countP fun e => !f.admits e.2 :=
    List.countP_eq_length_filter.symm
  simp only [Bool.not_eq_true, Bool.decide_eq_false] at hall
  omega

end Memory

/-! ### Groups -/

namespace Notebook

/-- Groups hold the mistakes of a list by category, in the order of the list, and there is a group
for each category that occurs. -/
structure Divides (groups : List MistakeGroup) (ms : List Mistake) : Prop where
  increasing : groups.Pairwise fun g h => g.category.rank < h.category.rank
  nonempty : ∀ g ∈ groups, g.mistakes ≠ []
  own : ∀ g ∈ groups, g.mistakes = ms.filter fun v => v.category == g.category
  complete : ∀ v ∈ ms, ∃ g ∈ groups, v ∈ g.mistakes

/-- The groups with one more mistake at the end of its group, which is put in order if it is new. -/
def gather (v : Mistake) : List MistakeGroup → List MistakeGroup
  | [] => [⟨v.category, [v]⟩]
  | g :: gs =>
    if v.category = g.category then ⟨g.category, g.mistakes ++ [v]⟩ :: gs
    else if v.category.rank < g.category.rank then ⟨v.category, [v]⟩ :: g :: gs
    else g :: gather v gs

/-- The group of a category, if some mistakes are of the category. -/
def ownGroup? (ms : List Mistake) (c : Category) : Option MistakeGroup :=
  let own := ms.filter fun v => v.category == c
  if own.isEmpty then none else some ⟨c, own⟩

theorem ownGroup?_eq_some_iff {ms : List Mistake} {c : Category} {g : MistakeGroup} :
    ownGroup? ms c = some g ↔ g.category = c ∧ g.mistakes ≠ [] ∧
      g.mistakes = ms.filter fun v => v.category == c := by
  generalize hown : (ms.filter fun v => v.category == c) = own
  have hgroup : ownGroup? ms c = if own.isEmpty then none else some ⟨c, own⟩ := by
    rw [← hown]
    rfl
  rw [hgroup]
  cases own with
  | nil =>
    show none = some g ↔ _
    constructor
    · exact fun h => nomatch h
    · exact fun h => absurd h.2.2 h.2.1
  | cons v own =>
    show some ⟨c, v :: own⟩ = some g ↔ _
    rw [Option.some_inj]
    constructor
    · rintro rfl
      exact ⟨rfl, List.cons_ne_nil _ _, rfl⟩
    · rintro ⟨hcategory, -, hmistakes⟩
      rw [← hcategory, ← hmistakes]

end Notebook

theorem Category.pairwise_all : Category.all.Pairwise fun c d => c.rank < d.rank := by
  decide

namespace Notebook

variable {ms : List Mistake} {v : Mistake} {cs : List Category} {c : Category}

theorem category_of_mem_filterMap {g : MistakeGroup} (h : g ∈ cs.filterMap (ownGroup? ms)) :
    g.category ∈ cs := by
  obtain ⟨c, hc, hg⟩ := List.mem_filterMap.mp h
  rw [(ownGroup?_eq_some_iff.mp hg).1]
  exact hc

theorem divides_group (ms : List Mistake) : Divides (group ms) ms := by
  have hown : ∀ g ∈ group ms, g.mistakes ≠ [] ∧
      g.mistakes = ms.filter fun v => v.category == g.category := by
    intro g hg
    obtain ⟨c, -, hc⟩ := List.mem_filterMap.mp hg
    obtain ⟨rfl, h⟩ := ownGroup?_eq_some_iff.mp hc
    exact h
  refine ⟨?increasing, fun g hg => (hown g hg).1, fun g hg => (hown g hg).2, ?complete⟩
  case increasing =>
    refine List.Pairwise.filterMap (ownGroup? ms) (fun c d hcd g hg h hh => ?_)
      Category.pairwise_all
    rw [(ownGroup?_eq_some_iff.mp hg).1, (ownGroup?_eq_some_iff.mp hh).1]
    exact hcd
  case complete =>
    intro v hv
    have hmem : v ∈ ms.filter fun w => w.category == v.category :=
      List.mem_filter.mpr ⟨hv, beq_self_eq_true _⟩
    have hgroup : ownGroup? ms v.category = some ⟨v.category, _⟩ :=
      ownGroup?_eq_some_iff.mpr ⟨rfl, List.ne_nil_of_mem hmem, rfl⟩
    exact ⟨_, List.mem_filterMap.mpr ⟨_, Category.mem_all _, hgroup⟩, hmem⟩

theorem ownGroup?_concat_of_ne (h : v.category ≠ c) : ownGroup? (ms ++ [v]) c = ownGroup? ms c := by
  have hnone : [v].filter (fun w => w.category == c) = [] := by simp [h]
  simp only [ownGroup?, List.filter_append, hnone, List.append_nil]

theorem filterMap_concat_of_notMem (h : v.category ∉ cs) :
    cs.filterMap (ownGroup? (ms ++ [v])) = cs.filterMap (ownGroup? ms) :=
  List.filterMap_congr fun _ hc => ownGroup?_concat_of_ne fun heq => h (heq ▸ hc)

/-- A mistake whose category comes before all groups opens a new one. -/
theorem gather_of_lt {gs : List MistakeGroup} (h : ∀ g ∈ gs, v.category.rank < g.category.rank) :
    gather v gs = ⟨v.category, [v]⟩ :: gs := by
  cases gs with
  | nil => rfl
  | cons g gs =>
    have hg := h g List.mem_cons_self
    have hne : v.category ≠ g.category := fun heq => absurd (heq ▸ hg) (Nat.lt_irrefl _)
    rw [gather, if_neg hne, if_pos hg]

theorem filterMap_concat (hcs : cs.Pairwise fun c d => c.rank < d.rank) (hv : v.category ∈ cs) :
    cs.filterMap (ownGroup? (ms ++ [v])) = gather v (cs.filterMap (ownGroup? ms)) := by
  induction cs with
  | nil => cases hv
  | cons c cs ih =>
    obtain ⟨hc, hcs⟩ := List.pairwise_cons.mp hcs
    by_cases heq : v.category = c
    · have hnew : v.category ∉ cs := fun hmem => Nat.lt_irrefl _ (heq ▸ hc _ hmem)
      have hconcat : ownGroup? (ms ++ [v]) c =
          some ⟨c, (ms.filter fun w => w.category == c) ++ [v]⟩ :=
        ownGroup?_eq_some_iff.mpr ⟨rfl, by simp, by simp [heq]⟩
      rw [List.filterMap_cons_some hconcat, filterMap_concat_of_notMem hnew]
      cases hown : ownGroup? ms c with
      | none =>
        have hempty : (ms.filter fun w => w.category == c) = [] := by simpa [ownGroup?] using hown
        have hlater : ∀ g ∈ cs.filterMap (ownGroup? ms), v.category.rank < g.category.rank :=
          fun g hg => heq ▸ hc _ (category_of_mem_filterMap hg)
        rw [List.filterMap_cons_none hown, gather_of_lt hlater, hempty, heq]
        rfl
      | some g =>
        obtain ⟨hcat, -, hmistakes⟩ := ownGroup?_eq_some_iff.mp hown
        rw [List.filterMap_cons_some hown, gather, if_pos (heq.trans hcat.symm), hcat, hmistakes]
    · have hmem : v.category ∈ cs := (List.mem_cons.mp hv).resolve_left heq
      have hsame : ownGroup? (ms ++ [v]) c = ownGroup? ms c := ownGroup?_concat_of_ne heq
      cases hown : ownGroup? ms c with
      | none =>
        rw [List.filterMap_cons_none (hsame.trans hown), List.filterMap_cons_none hown, ih hcs hmem]
      | some g =>
        have hcat := (ownGroup?_eq_some_iff.mp hown).1
        have hlt : ¬v.category.rank < g.category.rank := by
          rw [hcat]
          exact Nat.lt_asymm (hc _ hmem)
        rw [List.filterMap_cons_some (hsame.trans hown), List.filterMap_cons_some hown, ih hcs hmem,
          gather, if_neg (hcat ▸ heq), if_neg hlt]

/-- Groups are put together one mistake after the other. -/
theorem group_eq_foldl (ms : List Mistake) : group ms = ms.foldl (fun gs v => gather v gs) [] := by
  induction ms using List.reverseRecOn with
  | nil => rfl
  | append_singleton ms v ih =>
    rw [List.foldl_append, ← ih]
    exact filterMap_concat Category.pairwise_all (Category.mem_all _)

/-! ### What is shown -/

/-- Whatever is in a store, its lists are parts of one list that holds every entry, its counts are
their lengths, its groups are the parts of a list by category, and taking entries out leaves the
other ones in their order. -/
theorem views_agree (m : Memory) (f : MistakeFilter) :
    let all := m.listMistakes .all
    let notMastered := m.listMistakes .notMastered
    let mastered := m.listMistakes .mastered
    (∀ g, perform (list g) m = (.ok (m.listMistakes g), m)) ∧
    (all.Perm (m.mistakes.map Prod.snd) ∧ notMastered.Sublist all ∧ mastered.Sublist all ∧
      notMastered.Disjoint mastered ∧ (notMastered ++ mastered).Perm all) ∧
    perform counts m = (.ok ⟨all.length, notMastered.length, mastered.length⟩, m) ∧
    (∃ groups, perform (grouped f) m = (.ok groups, m) ∧ Divides groups (m.listMistakes f) ∧
      groups = (m.listMistakes f).foldl (fun gs v => gather v gs) []) ∧
    ∃ m', perform (clear f) m = (.ok (m.listMistakes f).length, m') ∧
      ∀ g, perform (list g) m' = (.ok ((m.listMistakes g).filter fun v => !f.admits v), m') := by
  intro all notMastered mastered
  have hserve : ∀ (m : Memory) g, perform (list g) m = (.ok (m.listMistakes g), m) := fun _ _ => rfl
  have hnot : notMastered = all.filter fun v => !v.mastered := m.listMistakes_eq .notMastered
  have hmastered : mastered = all.filter Mistake.mastered := m.listMistakes_eq .mastered
  refine ⟨hserve m, ⟨?holds, ?_, ?_, ?disjoint, ?together⟩, ?counts, ?groups, ?clear⟩
  case holds =>
    exact (List.mergeSort_perm _ _).trans (List.Perm.of_eq (MistakeFilter.filter_admits_all _))
  · rw [hnot]
    exact List.filter_sublist
  · rw [hmastered]
    exact List.filter_sublist
  case disjoint =>
    rw [hnot, hmastered]
    intro v hv hv'
    have := (List.mem_filter.mp hv).2
    rw [(List.mem_filter.mp hv').2] at this
    cases this
  case together =>
    rw [hnot, hmastered]
    exact List.perm_append_comm.trans (List.filter_append_perm _ _)
  case counts =>
    have hcount : count all = ⟨all.length, notMastered.length, mastered.length⟩ := by
      have hlength := (List.filter_append_perm Mistake.mastered all).length_eq
      rw [List.length_append, ← hmastered, ← hnot] at hlength
      rw [count, List.countP_eq_length_filter, ← hmastered, ← hlength, Nat.add_sub_cancel_left]
    rw [← hcount]
    exact perform_map (p := list .all) (hserve m .all)
  case groups =>
    exact ⟨_, perform_map (p := list f) (hserve m f), divides_group _, group_eq_foldl _⟩
  case clear =>
    refine ⟨m.sweep f, ?_, fun g => ?_⟩
    · rw [← m.length_sweep f]
      rfl
    · rw [hserve, m.listMistakes_sweep]

end Notebook

end MentalMath
