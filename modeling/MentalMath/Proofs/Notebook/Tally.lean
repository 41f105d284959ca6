import MentalMath.Proofs.Notebook.Entries

/-! What the notebook holds, told from what was done with it alone. Past operations with what they
returned say of each expression which misses its entry gathers and whether it was marked; the
entries that are stored are exactly those. -/

namespace MentalMath.Notebook

/-- What was done with the notebook and what it returned, the latest first. -/
abbrev Past := List (Operation × Except StorageError Reply)

/-- The misses of an expression since its entry was last taken out. -/
structure Tally where
  /-- The number that the first miss returned. -/
  id : MistakeId
  /-- The first miss. -/
  first : Answer
  /-- The other misses, the latest first. -/
  later : List Answer
  /-- Whether the number was marked since the first miss. -/
  marked : Bool

namespace Tally

def miss (t : Tally) (a : Answer) : Tally :=
  { t with later := a :: t.later }

def mark (t : Tally) : Tally :=
  { t with marked := true }

def last (t : Tally) : Answer :=
  t.later.headD t.first

/-- The entry that a tally calls for. -/
def mistake (t : Tally) : Mistake where
  id := some t.id
  expression := t.first.expression
  correctAnswer := t.first.correctAnswer
  userAnswer := t.last.userAnswer
  category := t.first.category
  count := min (t.later.length + 1) maxCount
  firstAt := t.first.answeredAt
  lastAt := t.last.answeredAt
  mastered := t.marked

/-- The tally of an expression after one more operation. -/
def after (x : String) : Operation × Except StorageError Reply → Option Tally → Option Tally
  | (.miss a, .ok (.number id)), known =>
    if a.expression = x then known.elim (some ⟨id, a, [], false⟩) fun t => some (t.miss a) else known
  | (.master id, _), known => known.map fun t => if t.id = id then t.mark else t
  | (.clear .all, _), _ => none
  | (.clear .notMastered, _), known => known.filter fun t => t.marked
  | (.clear .mastered, _), known => known.filter fun t => !t.marked
  | _, known => known

/-- The tally of an expression, if it was missed since its entry was last taken out. -/
def of? (x : String) (past : Past) : Option Tally :=
  past.foldr (after x) none

theorem mistake_miss (t : Tally) (a : Answer) :
    (t.miss a).mistake = t.mistake.missAgain a.userAnswer a.answeredAt := by
  have hcount : min (t.later.length + 1 + 1) maxCount =
      Count.next (min (t.later.length + 1) maxCount) := by
    unfold Count.next
    omega
  simp only [mistake, Mistake.missAgain, ← hcount]
  rfl

theorem mistake_mark (t : Tally) : t.mark.mistake = t.mistake.master := rfl

end Tally

variable {σ : Type} [Store σ]

/-- Carries out operations one after the other: what was done, and the store after it. -/
def follow : List Operation → Past → σ → Past × σ
  | [], past, s => (past, s)
  | op :: ops, past, s => follow ops ((op, (operate op s).1) :: past) (operate op s).2

end MentalMath.Notebook

namespace MentalMath.Memory

open Notebook

/-- The entries of an expression. -/
def entriesOf (x : String) (m : Memory) : List Mistake :=
  (m.mistakes.map Prod.snd).filter (·.expression == x)

variable {m m' : Memory} {x : String} {past : Past} {known : Option Tally} {v : Mistake}

theorem mem_entriesOf_iff : v ∈ m.entriesOf x ↔ (∃ i, (i, v) ∈ m.mistakes) ∧ v.expression = x := by
  simp [entriesOf]

theorem entriesOf_enter : (m.enter v).entriesOf x =
    m.entriesOf x ++ if v.expression = x then [v.withId ⟨m.lastNumber + 1⟩] else [] := by
  rw [entriesOf, enter, List.map_append, List.filter_append, List.map_singleton, List.filter_cons,
    List.filter_nil]
  exact congrArg _ (if_congr beq_iff_eq rfl rfl)

theorem entriesOf_revise {g : Mistake → Mistake} (hg : InPlace g) :
    (m.revise g).entriesOf x = (m.entriesOf x).map g := by
  have hx : (fun v : Mistake => v.expression == x) ∘ g = fun v => v.expression == x :=
    funext fun v => congrArg (· == x) (hg.expression v)
  have hrows : (m.revise g).mistakes.map Prod.snd = (m.mistakes.map Prod.snd).map g := by
    rw [revise, List.map_map, List.map_map]
    rfl
  rw [entriesOf, entriesOf, hrows, List.filter_map, hx]

theorem entriesOf_sweep (f : MistakeFilter) :
    (m.sweep f).entriesOf x = (m.entriesOf x).filter fun v => !f.admits v := by
  have hrows : (m.sweep f).mistakes.map Prod.snd =
      (m.mistakes.map Prod.snd).filter fun v => !f.admits v := by
    rw [List.filter_map]
    rfl
  rw [entriesOf, entriesOf, hrows, List.filter_filter, List.filter_filter]
  exact List.filter_congr fun v _ => Bool.and_comm _ _

/-- The entries of an expression are the one that its tally calls for. -/
def Tallies (m : Memory) (x : String) (known : Option Tally) : Prop :=
  m.entriesOf x = (known.map Tally.mistake).toList

theorem Tallies.expression {t : Tally} (h : m.Tallies x (some t)) : t.first.expression = x := by
  have hmem : t.mistake ∈ m.entriesOf x := by
    rw [h]
    exact List.mem_singleton_self _
  exact (mem_entriesOf_iff.mp hmem).2

theorem Tallies.revise (h : m.Tallies x known) {g : Mistake → Mistake} (hg : InPlace g)
    {k : Tally → Tally} (hk : ∀ t, known = some t → (k t).mistake = g t.mistake) :
    (m.revise g).Tallies x (known.map k) := by
  rw [Tallies, entriesOf_revise hg, h]
  cases known with
  | none => rfl
  | some t => exact congrArg (fun v => [v]) (hk t rfl).symm

theorem Tallies.enter (h : m.Tallies x known) (a : Answer)
    (hnew : ∀ e ∈ m.mistakes, e.2.expression ≠ a.expression) :
    (m.enter (Mistake.first a)).Tallies x
      (Tally.after x (.miss a, .ok (.number ⟨m.lastNumber + 1⟩)) known) := by
  rw [Tallies, entriesOf_enter, h, Tally.after]
  by_cases hx : a.expression = x
  · cases known with
    | none =>
      rw [if_pos hx]
      exact (if_pos hx : (if (Mistake.first a).expression = x then _ else _) = _)
    | some t =>
      have hmem : t.mistake ∈ m.entriesOf x := by
        rw [h]
        exact List.mem_singleton_self _
      obtain ⟨⟨i, hi⟩, ht⟩ := mem_entriesOf_iff.mp hmem
      exact absurd (ht.trans hx.symm) (hnew _ hi)
  · rw [if_neg hx]
    have hother : (Mistake.first a).expression ≠ x := hx
    rw [if_neg hother, List.append_nil]

theorem Tallies.miss (h : m.Tallies x known) (a : Answer) {i : MistakeId}
    (hmem : (i, v) ∈ m.mistakes) (hv : v.expression = a.expression) :
    (m.revise (missUnder a)).Tallies x (Tally.after x (.miss a, .ok (.number i)) known) := by
  have hg : InPlace (missUnder a) := (inPlace_missAgain _ _).when _
  rw [Tally.after]
  by_cases hx : a.expression = x
  · obtain ⟨t, rfl⟩ : ∃ t, known = some t := by
      cases known with
      | some t => exact ⟨t, rfl⟩
      | none =>
        have hown : v ∈ m.entriesOf x := mem_entriesOf_iff.mpr ⟨⟨i, hmem⟩, hv.trans hx⟩
        rw [h] at hown
        cases hown
    rw [if_pos hx]
    refine h.revise hg (k := fun t => t.miss a) fun t ht => ?_
    cases ht
    have hsame : t.mistake.expression = a.expression := h.expression.trans hx.symm
    rw [Tally.mistake_miss, missUnder, if_pos (beq_iff_eq.mpr hsame)]
  · have hsame := h.revise hg (k := fun t => t) fun t ht => by
      cases ht
      have hother : t.mistake.expression ≠ a.expression :=
        fun heq => hx (heq.symm.trans h.expression)
      exact (if_neg (by simpa using hother)).symm
    rw [if_neg hx]
    rwa [Option.map_id'] at hsame

theorem Tallies.mark (h : m.Tallies x known) (id : MistakeId) (r : Except StorageError Reply) :
    (m.revise (markUnder id)).Tallies x (Tally.after x (.master id, r) known) := by
  refine h.revise (inPlace_master.when _) fun t _ => ?_
  by_cases hid : t.id = id
  · rw [if_pos hid, Tally.mistake_mark, if_pos]
    exact beq_iff_eq.mpr (congrArg some hid)
  · rw [if_neg hid, if_neg]
    exact fun heq => hid (Option.some.inj (beq_iff_eq.mp heq))

theorem Tallies.sweep (h : m.Tallies x known) (f : MistakeFilter) (r : Except StorageError Reply) :
    (m.sweep f).Tallies x (Tally.after x (.clear f, r) known) := by
  rw [Tallies, entriesOf_sweep, h]
  cases known with
  | none => cases f <;> rfl
  | some t =>
    have hmark : t.mistake.mastered = t.marked := rfl
    cases f <;> cases ht : t.marked <;>
      simp [Tally.after, Option.filter, MistakeFilter.admits, hmark, ht]

/-- The store holds the entries that the tallies of the past call for, and has recorded each miss.
-/
structure Holds (m : Memory) (past : Past) : Prop where
  tidy : m.Tidy
  tallies : ∀ x, m.Tallies x (Tally.of? x past)
  recorded : ∀ a r, (.miss a, r) ∈ past → ∃ id, r = .ok (.number id)

theorem holds_empty : empty.Holds [] :=
  ⟨tidy_empty, fun _ => rfl, fun _ _ h => nomatch h⟩

theorem Changes.tallies {op : Operation} {r : Except StorageError Reply} (hc : m.Changes op r m')
    (h : m.Tallies x known) : m'.Tallies x (Tally.after x (op, r) known) := by
  cases hc with
  | entered a hnew => exact h.enter a hnew
  | missed a hmem hv => exact h.miss a hmem hv
  | marked id => exact h.mark id r
  | cleared f => exact h.sweep f r
  | read r hmiss hmaster hclear =>
    cases op with
    | miss a => exact absurd rfl (hmiss a)
    | master id => exact absurd rfl (hmaster id)
    | clear f => exact absurd rfl (hclear f)
    | list | grouped | counts | get | retry => exact h

theorem Changes.recorded {a : Answer} {r : Except StorageError Reply}
    (hc : m.Changes (.miss a) r m') : ∃ id, r = .ok (.number id) := by
  cases hc with
  | entered => exact ⟨_, rfl⟩
  | missed => exact ⟨_, rfl⟩
  | read _ hmiss => exact absurd rfl (hmiss a)

theorem Holds.operate (h : m.Holds past) (op : Operation) :
    (operate op m).2.Holds ((op, (operate op m).1) :: past) := by
  have hc := h.tidy.changes op
  refine ⟨hc.tidy h.tidy, fun x => hc.tallies (h.tallies x), fun a r hmem => ?_⟩
  rcases List.mem_cons.mp hmem with heq | hmem
  · cases heq
    exact hc.recorded
  · exact h.recorded a r hmem

theorem Holds.follow (h : m.Holds past) (ops : List Operation) :
    (follow ops past m).2.Holds (follow ops past m).1 := by
  induction ops generalizing past m with
  | nil => exact h
  | cons op ops ih => exact ih (h.operate op)

/-- What is listed are the entries, in another order. -/
theorem Tallies.listed (h : m.Tallies x known) :
    (m.listMistakes .all).filter (·.expression == x) = (known.map Tally.mistake).toList := by
  have hall : (m.mistakes.map Prod.snd).filter MistakeFilter.all.admits = m.mistakes.map Prod.snd :=
    List.filter_eq_self.mpr fun _ _ => rfl
  have hperm : ((m.listMistakes .all).filter (·.expression == x)).Perm
      (known.map Tally.mistake).toList := by
    rw [← h, listMistakes, hall]
    exact (List.mergeSort_perm _ _).filter _
  cases known with
  | none => exact hperm.eq_nil
  | some t => exact List.perm_singleton.mp hperm

end MentalMath.Memory

namespace MentalMath.Notebook

/-- Every miss is recorded, and the notebook holds and lists one entry for each expression that was
missed since its entry was last taken out, and no other entry. The entry has the data of the first
of these misses and of the last one, their number up to the largest count, and a mark if its number
was marked since. -/
theorem entries_of_past (ops : List Operation) :
    let (past, m) := follow ops [] Memory.empty
    (∀ a r, (.miss a, r) ∈ past → ∃ id, r = .ok (.number id)) ∧
      ∃ ms, perform (list .all) m = (.ok ms, m) ∧ ∀ x,
        m.entriesOf x = ((Tally.of? x past).map Tally.mistake).toList ∧
        ms.filter (·.expression == x) = ((Tally.of? x past).map Tally.mistake).toList := by
  have h := Memory.holds_empty.follow ops
  exact ⟨h.recorded, _, rfl, fun x => ⟨h.tallies x, (h.tallies x).listed⟩⟩

end MentalMath.Notebook
