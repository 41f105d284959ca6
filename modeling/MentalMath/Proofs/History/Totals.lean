import Mathlib.Algebra.BigOperators.Group.List.Basic
import Mathlib.Algebra.Order.Ring.Int
import Mathlib.Data.List.Induction
import Mathlib.Data.List.Infix
import Mathlib.Data.List.Nodup
import MentalMath.Proofs.Time.Stopwatch
import MentalMath.Service.History

/-! Totals over a list of sessions. Counting one session after the other finds how often each
category occurs, in whatever order the tally is read, and the sort leaves one order only. The times
are added in the order of the sessions, so there are totals if the time of each first part of the
list is one that a span can have; another order of the same sessions has the same totals, if it has
any. -/

namespace MentalMath

/-- A number of nanoseconds that a span can have. -/
def Span.Fits (n : Int) : Prop :=
  -9223372036854775807000000 ≤ n ∧ n ≤ 9223372036854775807000000

instance (n : Int) : Decidable (Span.Fits n) :=
  inferInstanceAs (Decidable (_ ∧ _))

theorem Span.add_eq_ok_iff {a b c : Span} :
    a.add b = .ok c ↔ Fits (a.nanos + b.nanos) ∧ c.nanos = a.nanos + b.nanos := by
  constructor
  · intro h
    have hnanos := nanos_of_add h
    exact ⟨hnanos ▸ c.inRange, hnanos⟩
  · rintro ⟨hfits, hnanos⟩
    rw [add_eq_ok hfits]
    exact congrArg Except.ok (Span.ext hnanos.symm)

theorem Category.rank_injective {c d : Category} (h : c.rank = d.rank) : c = d :=
  (List.idxOf_inj (mem_all c)).mp h

namespace HistoryStats

/-! ### Tallies -/

/-- How often each category occurs in a list. -/
structure Counts (counts : List (Category × Nat)) (cs : List Category) : Prop where
  distinct : (counts.map Prod.fst).Nodup
  exact : ∀ c n, (c, n) ∈ counts ↔ n = cs.count c ∧ 0 < n
  total : (counts.map Prod.snd).sum = cs.length

section Tally

variable {counts counts' before after rest : List (Category × Nat)} {cs cs' : List Category}
  {c : Category} {n : Nat}

theorem countOne_of_notMem (h : c ∉ counts.map Prod.fst) :
    countOne c counts = counts ++ [(c, 1)] := by
  induction counts with
  | nil => rfl
  | cons e counts ih =>
    obtain ⟨hne, hrest⟩ := not_or.mp fun hmem => h (List.mem_cons.mpr hmem)
    rw [countOne, if_neg (Ne.symm hne), ih hrest]
    rfl

theorem countOne_split (h : c ∉ before.map Prod.fst) :
    countOne c (before ++ (c, n) :: after) = before ++ (c, n + 1) :: after := by
  induction before with
  | nil => rw [List.nil_append, countOne, if_pos rfl, List.nil_append]
  | cons e before ih =>
    obtain ⟨hne, hrest⟩ := not_or.mp fun hmem => h (List.mem_cons.mpr hmem)
    rw [List.cons_append, countOne, if_neg (Ne.symm hne), ih hrest, List.cons_append]

theorem sum_countOne (c : Category) (counts : List (Category × Nat)) :
    ((countOne c counts).map Prod.snd).sum = (counts.map Prod.snd).sum + 1 := by
  induction counts with
  | nil => rfl
  | cons e counts ih =>
    rw [countOne]
    split
    · simp only [List.map_cons, List.sum_cons]
      omega
    · simp only [List.map_cons, List.sum_cons, ih]
      omega

theorem Counts.nil : Counts [] [] :=
  ⟨List.nodup_nil, fun c n => by
    rw [List.count_nil]
    constructor
    · exact fun h => nomatch h
    · omega, rfl⟩

theorem Counts.of_perm (h : Counts counts cs) (hp : counts'.Perm counts) : Counts counts' cs :=
  ⟨(hp.map Prod.fst).nodup_iff.mpr h.distinct,
    fun c n => (hp.mem_iff).trans (h.exact c n),
    (hp.map Prod.snd).sum_nat.trans h.total⟩

theorem Counts.of_head (hkeys : (c :: rest.map Prod.fst).Nodup) (hn : n = cs.count c + 1)
    (hrest : ∀ d m, d ≠ c → ((d, m) ∈ rest ↔ m = cs.count d ∧ 0 < m))
    (htotal : (((c, n) :: rest).map Prod.snd).sum = (cs ++ [c]).length) :
    Counts ((c, n) :: rest) (cs ++ [c]) := by
  refine ⟨hkeys, fun d m => ?_, htotal⟩
  rw [List.mem_cons, Prod.mk.injEq, List.count_append, List.count_singleton]
  by_cases hd : d = c
  · subst hd
    have hnone : (d, m) ∉ rest := fun hm =>
      (List.nodup_cons.mp hkeys).1 (List.mem_map.mpr ⟨_, hm, rfl⟩)
    simp only [true_and, hnone, or_false, beq_self_eq_true, if_true]
    omega
  · simp only [hd, false_and, false_or, hrest d m hd, beq_iff_eq, Ne.symm hd, if_false,
      Nat.add_zero]

theorem Counts.countOne (h : Counts counts cs) (c : Category) :
    Counts (countOne c counts) (cs ++ [c]) := by
  have htotal : ((HistoryStats.countOne c counts).map Prod.snd).sum = (cs ++ [c]).length := by
    rw [sum_countOne, h.total, List.length_append, List.length_singleton]
  by_cases hc : c ∈ counts.map Prod.fst
  · obtain ⟨⟨c, n⟩, hmem, rfl⟩ := List.mem_map.mp hc
    obtain ⟨before, after, rfl⟩ := List.append_of_mem hmem
    have hfront := h.of_perm List.perm_middle.symm
    have hbefore : c ∉ before.map Prod.fst := fun hm =>
      (List.nodup_cons.mp hfront.distinct).1 (by
        rw [List.map_append]
        exact List.mem_append_left _ hm)
    rw [countOne_split hbefore] at htotal ⊢
    apply Counts.of_perm _ List.perm_middle
    apply Counts.of_head hfront.distinct
    · rw [((h.exact c n).mp hmem).1]
    · intro d m hd
      rw [← hfront.exact, List.mem_cons, Prod.mk.injEq]
      simp only [hd, false_and, false_or]
    · rw [← htotal]
      exact (List.perm_middle.symm.map Prod.snd).sum_nat
  · have hzero : cs.count c = 0 := by
      by_contra hne
      exact hc (List.mem_map_of_mem ((h.exact c _).mpr ⟨rfl, Nat.pos_of_ne_zero hne⟩))
    rw [countOne_of_notMem hc] at htotal ⊢
    apply Counts.of_perm _ (List.perm_append_singleton _ _)
    apply Counts.of_head (List.nodup_cons.mpr ⟨hc, h.distinct⟩)
    · rw [hzero]
    · exact fun d m _ => h.exact d m
    · rw [← htotal]
      exact ((List.perm_append_singleton _ _).symm.map Prod.snd).sum_nat

theorem counts_tally (ss : List Session) : Counts (tally ss) (ss.map Session.category) := by
  induction ss using List.reverseRecOn with
  | nil => exact Counts.nil
  | append_singleton ss s ih =>
    rw [List.map_append, List.map_singleton, tally, List.foldl_append]
    exact ih.countOne s.category

/-- Two tallies of the same categories, in whatever order, have the same entries. -/
theorem Counts.perm (h : Counts counts cs) (h' : Counts counts' cs') (hp : cs.Perm cs') :
    counts.Perm counts' := by
  apply (List.perm_ext_iff_of_nodup (.of_map _ h.distinct) (.of_map _ h'.distinct)).mpr
  rintro ⟨c, n⟩
  rw [h.exact, h'.exact, hp.count_eq]

/-- The tally in its order: more sessions first, of as many the earlier category. -/
def Ranked (a b : Category × Nat) : Prop :=
  b.2 < a.2 ∨ (a.2 = b.2 ∧ a.1.rank < b.1.rank)

theorem mostPracticedFirst_iff {a b : Category × Nat} :
    mostPracticedFirst a b = true ↔ b.2 < a.2 ∨ (a.2 = b.2 ∧ a.1.rank ≤ b.1.rank) := by
  simp only [mostPracticedFirst, Bool.or_eq_true, Bool.and_eq_true, decide_eq_true_eq, beq_iff_eq]

theorem pairwise_sorted (counts : List (Category × Nat)) :
    (counts.mergeSort mostPracticedFirst).Pairwise fun a b => mostPracticedFirst a b := by
  apply List.pairwise_mergeSort
  · intro a b c hab hbc
    rw [mostPracticedFirst_iff] at hab hbc ⊢
    omega
  · intro a b
    rw [Bool.or_eq_true, mostPracticedFirst_iff, mostPracticedFirst_iff]
    omega

theorem Ranked.of_ne {a b : Category × Nat} (h : mostPracticedFirst a b) (hne : a.1 ≠ b.1) :
    Ranked a b := by
  have hrank : a.1.rank ≠ b.1.rank := fun heq => hne (Category.rank_injective heq)
  rw [mostPracticedFirst_iff] at h
  unfold Ranked
  omega

/-- Sorting a tally leaves no two entries in a place of their own choice. -/
theorem Counts.ranked (h : Counts counts cs) :
    (counts.mergeSort mostPracticedFirst).Pairwise Ranked := by
  have hkeys := (h.of_perm (List.mergeSort_perm counts mostPracticedFirst)).distinct
  rw [List.Nodup, List.pairwise_map] at hkeys
  exact ((pairwise_sorted counts).and hkeys).imp fun ⟨hle, hne⟩ => Ranked.of_ne hle hne

theorem Counts.sorted_eq (h : Counts counts cs) (h' : Counts counts' cs') (hp : cs.Perm cs') :
    counts.mergeSort mostPracticedFirst = counts'.mergeSort mostPracticedFirst := by
  have hperm : (counts.mergeSort mostPracticedFirst).Perm
      (counts'.mergeSort mostPracticedFirst) :=
    (List.mergeSort_perm ..).trans ((h.perm h' hp).trans (List.mergeSort_perm ..).symm)
  apply hperm.eq_of_pairwise _ h.ranked h'.ranked
  intro a b _ _ hab hba
  unfold Ranked at hab hba
  omega

end Tally

/-! ### Sums -/

def totalNanos (ss : List Session) : Int :=
  (ss.map fun s => s.totalTime.nanos).sum

def totalQuestions (ss : List Session) : Nat :=
  (ss.map Session.total).sum

/-- A list of sessions with totals: the time of each first part is one that a span can have, and the
questions are not too many. -/
structure AddsUp (ss : List Session) : Prop where
  times : ∀ part ∈ ss.inits, Span.Fits (totalNanos part)
  questions : totalQuestions ss ≤ maxQuestions

instance (ss : List Session) : Decidable (AddsUp ss) :=
  decidable_of_iff ((∀ part ∈ ss.inits, Span.Fits (totalNanos part)) ∧
      totalQuestions ss ≤ maxQuestions)
    ⟨fun h => ⟨h.1, h.2⟩, fun h => ⟨h.times, h.questions⟩⟩

section Sums

variable {s : Session} {ss ss' : List Session} {counts : List (Category × Nat)}
  {stats : HistoryStats}

theorem totalNanos_perm (h : ss.Perm ss') : totalNanos ss = totalNanos ss' :=
  (h.map _).sum_eq

theorem totalQuestions_perm (h : ss.Perm ss') : totalQuestions ss = totalQuestions ss' :=
  (h.map _).sum_eq

theorem addQuestions_eq_ok_iff {sum n sum' : Nat} :
    addQuestions sum n = .ok sum' ↔ sum + n ≤ maxQuestions ∧ sum' = sum + n := by
  unfold addQuestions
  split
  case isTrue h => simp only [Except.ok.injEq, h, true_and, eq_comm]
  case isFalse h => simp only [reduceCtorEq, h, false_and]

theorem fits_start (start : Span) : Span.Fits (start.nanos + totalNanos []) := by
  rw [totalNanos, List.map_nil, List.sum_nil, Int.add_zero]
  exact start.inRange

/-- Questions are never taken away, so it is enough that all of them are not too many. -/
theorem foldQuestions_eq_ok_iff {start sum : Nat} (hstart : start ≤ maxQuestions) :
    ss.foldlM (fun sum s => addQuestions sum s.total) start = .ok sum ↔
      start + totalQuestions ss ≤ maxQuestions ∧ sum = start + totalQuestions ss := by
  induction ss generalizing start with
  | nil =>
    show Except.ok start = Except.ok sum ↔ _
    simp only [totalQuestions, List.map_nil, List.sum_nil, Except.ok.injEq, Nat.add_zero, hstart,
      true_and, eq_comm]
  | cons s ss ih =>
    rw [List.foldlM_cons, Checked.bind_eq_ok]
    have htotal : start + totalQuestions (s :: ss) = start + s.total + totalQuestions ss := by
      simp only [totalQuestions, List.map_cons, List.sum_cons]
      omega
    rw [htotal]
    constructor
    · rintro ⟨next, hnext, hrest⟩
      obtain ⟨hle, rfl⟩ := addQuestions_eq_ok_iff.mp hnext
      exact (ih hle).mp hrest
    · rintro ⟨hle, hsum⟩
      have hnext : start + s.total ≤ maxQuestions := by omega
      exact ⟨_, addQuestions_eq_ok_iff.mpr ⟨hnext, rfl⟩, (ih hnext).mpr ⟨hle, hsum⟩⟩

/-- Times can be negative, so each sum on the way has to be a time that a span can have. -/
theorem foldTimes_eq_ok_iff {start sum : Span} :
    ss.foldlM (fun sum s => sum.add s.totalTime) start = .ok sum ↔
      (∀ part ∈ ss.inits, Span.Fits (start.nanos + totalNanos part)) ∧
        sum.nanos = start.nanos + totalNanos ss := by
  induction ss generalizing start with
  | nil =>
    have hstart : Span.Fits (start.nanos + totalNanos []) := fits_start start
    show Except.ok start = Except.ok sum ↔ _
    simp only [List.inits, List.mem_singleton, forall_eq, hstart, true_and]
    rw [totalNanos, List.map_nil, List.sum_nil, Int.add_zero, Except.ok.injEq]
    exact ⟨fun h => h ▸ rfl, fun h => Span.ext h.symm⟩
  | cons s ss ih =>
    have htotal : ∀ part, start.nanos + totalNanos (s :: part)
        = start.nanos + s.totalTime.nanos + totalNanos part := by
      intro part
      simp only [totalNanos, List.map_cons, List.sum_cons]
      omega
    have hstart : Span.Fits (start.nanos + totalNanos []) := fits_start start
    rw [List.foldlM_cons, Checked.bind_eq_ok]
    simp only [Span.add_eq_ok_iff, ih, List.inits_cons, List.forall_mem_cons,
      List.forall_mem_map, hstart, true_and, htotal]
    constructor
    · rintro ⟨next, ⟨-, hnext⟩, hparts, hsum⟩
      rw [hnext] at hparts hsum
      exact ⟨hparts, hsum⟩
    · rintro ⟨hparts, hsum⟩
      have hnext : Span.Fits (start.nanos + s.totalTime.nanos) := by
        simpa [totalNanos] using hparts [] ((List.mem_inits _ _).mpr List.nil_prefix)
      exact ⟨⟨_, hnext⟩, ⟨hnext, rfl⟩, hparts, hsum⟩

/-- When there are totals, and what they are. -/
theorem ofTally_eq_ok_iff :
    ofTally counts ss = .ok stats ↔ AddsUp ss ∧
      stats.sessions = ss.length ∧
      stats.averageRate = mean (ss.map Session.rate) ∧
      stats.questions = totalQuestions ss ∧
      stats.totalTime.nanos = totalNanos ss ∧
      stats.categories = counts.mergeSort mostPracticedFirst := by
  simp only [ofTally, Checked.bind_eq_ok, foldQuestions_eq_ok_iff (Nat.zero_le _),
    foldTimes_eq_ok_iff, Span.zero, Nat.zero_add, Int.zero_add]
  constructor
  · rintro ⟨questions, ⟨hq, rfl⟩, totalTime, ⟨ht, htime⟩, hstats⟩
    cases hstats
    exact ⟨⟨ht, hq⟩, rfl, rfl, rfl, htime, rfl⟩
  · rintro ⟨⟨ht, hq⟩, hsessions, hrate, hquestions, htime, hcategories⟩
    refine ⟨_, ⟨hq, rfl⟩, _, ⟨ht, htime⟩, ?_⟩
    cases stats
    cases hsessions
    cases hrate
    cases hquestions
    cases hcategories
    rfl

/-- Sessions whose times are not negative add up in every order if they do in one. -/
theorem AddsUp.of_perm (h : AddsUp ss) (hp : ss'.Perm ss)
    (hnonneg : ∀ s ∈ ss, 0 ≤ s.totalTime.nanos) : AddsUp ss' := by
  have hsum : ∀ l : List Session, (∀ s ∈ l, 0 ≤ s.totalTime.nanos) → 0 ≤ totalNanos l := by
    intro l
    induction l with
    | nil => exact fun _ => Int.le_refl 0
    | cons s l ih =>
      intro hl
      obtain ⟨hs, hl⟩ := List.forall_mem_cons.mp hl
      have hrest := ih hl
      simp only [totalNanos, List.map_cons, List.sum_cons] at hrest ⊢
      omega
  refine ⟨fun part hpart => ?_, (totalQuestions_perm hp).trans_le h.questions⟩
  obtain ⟨rest, hsplit⟩ := (List.mem_inits _ _).mp hpart
  have hnonneg' : ∀ s ∈ part ++ rest, 0 ≤ s.totalTime.nanos := fun s hs =>
    hnonneg s (hp.mem_iff.mp (hsplit ▸ hs))
  obtain ⟨hpart, hrest⟩ := List.forall_mem_append.mp hnonneg'
  have htotal : totalNanos part + totalNanos rest = totalNanos ss := by
    rw [← totalNanos_perm hp, ← hsplit, totalNanos, totalNanos, totalNanos, List.map_append,
      List.sum_append]
  have hall := h.times ss ((List.mem_inits _ _).mpr List.prefix_rfl)
  have hpart := hsum part hpart
  have hrest := hsum rest hrest
  unfold Span.Fits at hall ⊢
  omega

end Sums

/-! ### Totals -/

/-- Two totals that agree in all but the mean share, whose sum depends on its order. -/
structure Agree (a b : HistoryStats) : Prop where
  sessions : a.sessions = b.sessions
  questions : a.questions = b.questions
  totalTime : a.totalTime = b.totalTime
  categories : a.categories = b.categories

/-- Totals that say of each category how many of the sessions belong to it, and of the questions and
the times what they add up to. -/
structure Exact (stats : HistoryStats) (ss : List Session) : Prop where
  sessions : stats.sessions = ss.length
  questions : stats.questions = totalQuestions ss
  totalTime : stats.totalTime.nanos = totalNanos ss
  counted : ∀ c n, (c, n) ∈ stats.categories ↔ n = (ss.map Session.category).count c ∧ 0 < n
  once : (stats.categories.map Prod.fst).Nodup
  ranked : stats.categories.Pairwise Ranked
  whole : (stats.categories.map Prod.snd).sum = stats.sessions

variable {ss ss' : List Session} {counts : List (Category × Nat)} {stats stats' : HistoryStats}

theorem exact_of_ofTally (hcounts : counts.Perm (tally ss)) (h : ofTally counts ss = .ok stats) :
    Exact stats ss := by
  obtain ⟨-, hsessions, -, hquestions, htime, hcategories⟩ := ofTally_eq_ok_iff.mp h
  have htally := (counts_tally ss).of_perm hcounts
  have hsorted := htally.of_perm (List.mergeSort_perm counts mostPracticedFirst)
  refine ⟨hsessions, hquestions, htime, ?_, ?_, ?_, ?_⟩
  · exact hcategories ▸ hsorted.exact
  · exact hcategories ▸ hsorted.distinct
  · exact hcategories ▸ htally.ranked
  · rw [hcategories, hsorted.total, hsessions, List.length_map]

/-- Neither the order of the sessions nor that of the tally shows in the totals. -/
theorem agree_of_perm (hp : ss'.Perm ss) (hcounts : counts.Perm (tally ss'))
    (h : ofSessions ss = .ok stats) (h' : ofTally counts ss' = .ok stats') :
    Agree stats' stats := by
  obtain ⟨-, hsessions, -, hquestions, htime, hcategories⟩ := ofTally_eq_ok_iff.mp h
  obtain ⟨-, hsessions', -, hquestions', htime', hcategories'⟩ := ofTally_eq_ok_iff.mp h'
  constructor
  · rw [hsessions, hsessions', hp.length_eq]
  · rw [hquestions, hquestions', totalQuestions_perm hp]
  · apply Span.ext
    rw [htime, htime', totalNanos_perm hp]
  · rw [hcategories, hcategories']
    exact ((counts_tally ss').of_perm hcounts).sorted_eq (counts_tally ss)
      (hp.map Session.category)

/-- Sessions that add up have totals, the totals are exact, and they are those of the same sessions
in every other order that adds up, with the tally read in any order. Where no time is negative every
order adds up. -/
theorem totals_of_addsUp {ss : List Session} (h : AddsUp ss) :
    ∃ stats, ofSessions ss = .ok stats ∧ Exact stats ss ∧
      ∀ ss' counts, ss'.Perm ss → counts.Perm (tally ss') →
        ((∃ stats', ofTally counts ss' = .ok stats') ↔ AddsUp ss') ∧
        (∀ stats', ofTally counts ss' = .ok stats' → Agree stats' stats) ∧
        ((∀ s ∈ ss, 0 ≤ s.totalTime.nanos) → AddsUp ss') := by
  have hok : ∀ counts ss, AddsUp ss → ∃ stats, ofTally counts ss = .ok stats := by
    intro counts ss h
    have hfits := h.times ss ((List.mem_inits _ _).mpr List.prefix_rfl)
    exact ⟨⟨ss.length, mean (ss.map Session.rate), totalQuestions ss, ⟨totalNanos ss, hfits⟩,
      counts.mergeSort mostPracticedFirst⟩, ofTally_eq_ok_iff.mpr ⟨h, rfl, rfl, rfl, rfl, rfl⟩⟩
  obtain ⟨stats, hstats⟩ := hok (tally ss) ss h
  refine ⟨stats, hstats, exact_of_ofTally (List.Perm.refl _) hstats, ?_⟩
  intro ss' counts hp hcounts
  refine ⟨⟨?_, hok counts ss'⟩, fun stats' h' => agree_of_perm hp hcounts hstats h',
    fun hnonneg => h.of_perm hp hnonneg⟩
  rintro ⟨stats', h'⟩
  exact (ofTally_eq_ok_iff.mp h').1

/-- Three sessions whose times add up only because the second one takes a millisecond back before
the third one needs it, so that the order that swaps these two has no totals. -/
theorem totals_of_three :
    let longest : Span := ⟨9223372036854775807000000, by decide⟩
    let back : Span := ⟨-1000000, by decide⟩
    let ahead : Span := ⟨1000000, by decide⟩
    let a := { Session.start .mixed 10 Instant.epoch with totalTime := longest }
    let b := { Session.start (.skill .twoDigitAddition) 5 Instant.epoch with totalTime := back }
    let c := { Session.start .mixed 20 Instant.epoch with totalTime := ahead }
    AddsUp [a, b, c] ∧ [a, c, b].Perm [a, b, c] ∧
      (∃ stats, ofSessions [a, b, c] = .ok stats ∧ stats.questions = 35 ∧
        stats.totalTime = longest ∧ (.mixed, 2) ∈ stats.categories) ∧
      ¬∃ stats, ofSessions [a, c, b] = .ok stats := by
  intro longest back ahead a b c
  have hadds : AddsUp [a, b, c] := by decide
  have hswapped : ¬AddsUp [a, c, b] := by decide
  have hperm : [a, c, b].Perm [a, b, c] := (List.Perm.swap b c []).cons a
  obtain ⟨stats, hstats, hexact, hother⟩ := totals_of_addsUp hadds
  refine ⟨hadds, hperm, ⟨stats, hstats, hexact.questions, Span.ext hexact.totalTime, ?_⟩, ?_⟩
  · exact (hexact.counted .mixed 2).mpr (by decide)
  · exact fun hok => hswapped ((hother _ _ hperm (List.Perm.refl _)).1.mp hok)

end HistoryStats

end MentalMath
