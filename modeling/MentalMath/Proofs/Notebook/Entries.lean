import Mathlib.Data.List.Nodup
import MentalMath.Proofs.Notebook.Operation

/-! The entries of a store that holds its values as they are. Whatever is done with the notebook, its
entries stay in the order of their numbers and tell their expressions apart, and each operation adds
an entry, changes entries where they are, takes some out, or leaves all as they are. -/

namespace MentalMath.Memory

open Notebook (Operation Reply operate)

/-- The entries are in the order of their numbers, which were given out, and know their own; no two
have the same expression, and each has some misses. -/
structure Tidy (m : Memory) : Prop where
  ordered : (m.mistakes.map fun e => e.1.value).Pairwise (· < ·)
  given : ∀ e ∈ m.mistakes, e.1.value ≤ m.lastNumber
  named : ∀ e ∈ m.mistakes, e.2.id = some e.1
  apart : (m.mistakes.map fun e => e.2.expression).Nodup
  counted : ∀ e ∈ m.mistakes, 1 ≤ e.2.count ∧ e.2.count ≤ maxCount

/-- The store with a new entry. -/
def enter (v : Mistake) (m : Memory) : Memory :=
  { m with
    mistakes := m.mistakes ++ [(⟨m.lastNumber + 1⟩, v.withId ⟨m.lastNumber + 1⟩)]
    lastNumber := m.lastNumber + 1 }

/-- The store with each entry changed where it is. -/
def revise (g : Mistake → Mistake) (m : Memory) : Memory :=
  { m with mistakes := m.mistakes.map fun e => (e.1, g e.2) }

/-- The store without the entries that a filter shows. -/
def sweep (f : MistakeFilter) (m : Memory) : Memory :=
  { m with mistakes := m.mistakes.filter fun e => !f.admits e.2 }

variable {m : Memory} {e : MistakeId × Mistake} {id : MistakeId} {v : Mistake} {x : String}

/-! ### What keeps the entries tidy -/

theorem forall_mem_enter {P : MistakeId × Mistake → Prop} (hold : ∀ e ∈ m.mistakes, P e)
    (hnew : P (⟨m.lastNumber + 1⟩, v.withId ⟨m.lastNumber + 1⟩)) :
    ∀ e ∈ (m.enter v).mistakes, P e :=
  List.forall_mem_append.mpr ⟨hold, List.forall_mem_singleton.mpr hnew⟩

theorem forall_mem_revise {P : MistakeId × Mistake → Prop} {g : Mistake → Mistake}
    (h : ∀ e ∈ m.mistakes, P (e.1, g e.2)) : ∀ e ∈ (m.revise g).mistakes, P e :=
  List.forall_mem_map.mpr h

theorem tidy_empty : empty.Tidy := by
  constructor <;> simp [empty]

theorem Tidy.nodup (h : m.Tidy) : (m.mistakes.map Prod.fst).Nodup := by
  rw [List.Nodup, List.pairwise_map]
  refine (List.pairwise_map.mp h.ordered).imp fun {d e} hlt heq => ?_
  exact Nat.ne_of_lt hlt (congrArg MistakeId.value heq)

theorem Tidy.eq_of_expression (h : m.Tidy) {d : MistakeId × Mistake} (hd : d ∈ m.mistakes)
    (he : e ∈ m.mistakes) (hx : d.2.expression = e.2.expression) : d = e :=
  List.inj_on_of_nodup_map h.apart hd he hx

theorem Tidy.enter (h : m.Tidy) (hv : ∀ e ∈ m.mistakes, e.2.expression ≠ v.expression)
    (hc : 1 ≤ v.count ∧ v.count ≤ maxCount) : (m.enter v).Tidy := by
  constructor
  · rw [Memory.enter, List.map_append, List.pairwise_append]
    refine ⟨h.ordered, by simp, fun i hi j hj => ?_⟩
    obtain ⟨e, he, rfl⟩ := List.mem_map.mp hi
    rw [List.map_singleton, List.mem_singleton] at hj
    subst hj
    exact Nat.lt_succ_of_le (h.given e he)
  · apply forall_mem_enter
    · exact fun e he => Nat.le_succ_of_le (h.given e he)
    · exact Nat.le_refl _
  · exact forall_mem_enter h.named rfl
  · rw [Memory.enter, List.map_append, List.nodup_append]
    refine ⟨h.apart, by simp, fun x hx y hy => ?_⟩
    obtain ⟨e, he, rfl⟩ := List.mem_map.mp hx
    rw [List.map_singleton, List.mem_singleton] at hy
    subst hy
    exact hv e he
  · exact forall_mem_enter h.counted hc

/-- A change that leaves an entry under its number and its expression, with some misses. -/
structure InPlace (g : Mistake → Mistake) : Prop where
  id : ∀ v, (g v).id = v.id
  expression : ∀ v, (g v).expression = v.expression
  count : ∀ v, 1 ≤ v.count ∧ v.count ≤ maxCount → 1 ≤ (g v).count ∧ (g v).count ≤ maxCount

theorem inPlace_master : InPlace Mistake.master :=
  ⟨fun _ => rfl, fun _ => rfl, fun _ h => h⟩

theorem inPlace_missAgain (userAnswer : String) (now : Instant) :
    InPlace fun v => v.missAgain userAnswer now := by
  refine ⟨fun _ => rfl, fun _ => rfl, fun v h => ?_⟩
  show 1 ≤ min (v.count + 1) maxCount ∧ min (v.count + 1) maxCount ≤ maxCount
  omega

theorem InPlace.when {g : Mistake → Mistake} (h : InPlace g) (p : Mistake → Bool) :
    InPlace fun v => if p v = true then g v else v := by
  constructor
  all_goals intro v
  all_goals split
  · exact h.id v
  · rfl
  · exact h.expression v
  · rfl
  · exact h.count v
  · exact fun h => h

theorem Tidy.revise (h : m.Tidy) {g : Mistake → Mistake} (hg : InPlace g) : (m.revise g).Tidy := by
  constructor
  · simpa [Memory.revise, Function.comp_def] using h.ordered
  · exact forall_mem_revise h.given
  · exact forall_mem_revise fun d hd => (hg.id d.2).trans (h.named d hd)
  · simpa [Memory.revise, Function.comp_def, hg.expression] using h.apart
  · exact forall_mem_revise fun d hd => hg.count d.2 (h.counted d hd)

theorem Tidy.sweep (h : m.Tidy) (f : MistakeFilter) : (m.sweep f).Tidy := by
  have hsub : (m.sweep f).mistakes.Sublist m.mistakes := List.filter_sublist
  exact ⟨h.ordered.sublist (hsub.map _), fun e he => h.given e (hsub.subset he),
    fun e he => h.named e (hsub.subset he), h.apart.sublist (hsub.map _),
    fun e he => h.counted e (hsub.subset he)⟩

/-! ### Requests -/

theorem findMistake_eq_none_iff :
    m.findMistake x = none ↔ ∀ e ∈ m.mistakes, e.2.expression ≠ x := by
  simp [findMistake]

theorem exists_of_findMistake (h : m.findMistake x = some v) :
    ∃ i, (i, v) ∈ m.mistakes ∧ v.expression = x := by
  obtain ⟨e, he, rfl⟩ := List.mem_map.mp (List.mem_of_find?_eq_some h)
  exact ⟨e.1, he, by simpa using List.find?_some h⟩

theorem Tidy.findMistake_of_mem (h : m.Tidy) (he : e ∈ m.mistakes) :
    m.findMistake e.2.expression = some e.2 := by
  cases hfind : m.findMistake e.2.expression with
  | none => exact absurd rfl (findMistake_eq_none_iff.mp hfind e he)
  | some v =>
    obtain ⟨i, hi, hx⟩ := exists_of_findMistake hfind
    rw [← h.eq_of_expression hi he hx]

/-- Storing an entry again changes it where it is. -/
theorem Tidy.serve_putMistake (h : m.Tidy) (he : e ∈ m.mistakes) {g : Mistake → Mistake}
    (p : Mistake → Bool) (hid : (g e.2).id = e.2.id) (hp : p e.2 = true)
    (hother : ∀ d ∈ m.mistakes, p d.2 = true → d = e) :
    Store.serve (.putMistake (g e.2)) m =
      (.ok e.1, m.revise fun v => if p v = true then g v else v) := by
  have hlookup : lookup? e.1 m.mistakes = some e.2 := lookup?_eq_some_of_mem h.nodup he
  have hrows : replace e.1 (g e.2) m.mistakes =
      m.mistakes.map fun d => (d.1, if p d.2 = true then g d.2 else d.2) := by
    refine List.map_congr_left fun d hd => ?_
    by_cases hpd : p d.2 = true
    · rw [hother d hd hpd, if_pos hp, if_pos (by simp)]
    · have hne : d.1 ≠ e.1 := by
        intro heq
        have hde : some d.2 = some e.2 := by
          rw [← lookup?_eq_some_of_mem h.nodup hd, heq, hlookup]
        exact hpd (Option.some.inj hde ▸ hp)
      rw [if_neg hpd, if_neg (by simpa using hne)]
  show m.putMistake (g e.2) = _
  simp only [putMistake, hid.trans (h.named e he), hlookup, hrows, Memory.revise]

theorem revise_eq_self {g : Mistake → Mistake} (hg : ∀ e ∈ m.mistakes, g e.2 = e.2) :
    m.revise g = m := by
  have hrows : (m.mistakes.map fun e => (e.1, g e.2)) = m.mistakes :=
    (List.map_congr_left fun e he => by rw [hg e he]).trans (List.map_id' _)
  rw [Memory.revise, hrows]

/-! ### Operations -/

/-- The entry under a number is marked, the others stay. -/
def markUnder (id : MistakeId) (v : Mistake) : Mistake :=
  if v.id == some id then v.master else v

/-- The entry of an expression is missed again, the others stay. -/
def missUnder (a : Answer) (v : Mistake) : Mistake :=
  if v.expression == a.expression then v.missAgain a.userAnswer a.answeredAt else v

/-- What can come of an operation. -/
inductive Changes (m : Memory) : Operation → Except StorageError Reply → Memory → Prop
  | entered (a : Answer) (hnew : ∀ e ∈ m.mistakes, e.2.expression ≠ a.expression) :
    Changes m (.miss a) (.ok (.number ⟨m.lastNumber + 1⟩)) (m.enter (Mistake.first a))
  | missed (a : Answer) {i : MistakeId} {v : Mistake} (hmem : (i, v) ∈ m.mistakes)
      (hx : v.expression = a.expression) :
    Changes m (.miss a) (.ok (.number i)) (m.revise (missUnder a))
  | marked (id : MistakeId) (r : Except StorageError Reply) :
    Changes m (.master id) r (m.revise (markUnder id))
  | cleared (f : MistakeFilter) (r : Except StorageError Reply) :
    Changes m (.clear f) r (m.sweep f)
  | read {op : Operation} (r : Except StorageError Reply) (hmiss : ∀ a, op ≠ .miss a)
      (hmaster : ∀ id, op ≠ .master id) (hclear : ∀ f, op ≠ .clear f) : Changes m op r m

theorem serve_getMistake (id : MistakeId) (m : Memory) :
    Store.serve (.getMistake id) m =
      (match lookup? id m.mistakes with | some v => .ok v | none => .error .notFound, m) := by
  show serve (.getMistake id) m = _
  cases hlookup : lookup? id m.mistakes <;> simp only [serve, hlookup]

theorem operate_miss_new {a : Answer} (hnew : ∀ e ∈ m.mistakes, e.2.expression ≠ a.expression) :
    operate (.miss a) m = (.ok (.number ⟨m.lastNumber + 1⟩), m.enter (Mistake.first a)) := by
  have hfind : Store.serve (.findMistake a.expression) m = (.ok none, m) :=
    congrArg (fun known => (Except.ok known, m)) (findMistake_eq_none_iff.mpr hnew)
  have hany : (m.mistakes.any fun e => e.2.expression == a.expression) = false := by
    simpa using hnew
  have hput : Store.serve (.putMistake (Mistake.afterMiss a none)) m =
      (.ok ⟨m.lastNumber + 1⟩, m.enter (Mistake.first a)) := by
    show m.putMistake (Mistake.first a) = _
    exact if_neg (ne_true_of_eq_false hany)
  exact Notebook.operate_miss hfind hput

theorem Tidy.eq_of_missed (h : m.Tidy) {a : Answer} (he : e ∈ m.mistakes)
    (hx : e.2.expression = a.expression) :
    ∀ d ∈ m.mistakes, (d.2.expression == a.expression) = true → d = e :=
  fun _ hd hp => h.eq_of_expression hd he ((beq_iff_eq.mp hp).trans hx.symm)

theorem Tidy.operate_miss_again (h : m.Tidy) {a : Answer} (he : e ∈ m.mistakes)
    (hx : e.2.expression = a.expression) :
    operate (.miss a) m = (.ok (.number e.1), m.revise (missUnder a)) := by
  have hfind : Store.serve (.findMistake a.expression) m = (.ok (some e.2), m) :=
    congrArg (fun known => (Except.ok known, m)) (hx ▸ h.findMistake_of_mem he)
  have hput := h.serve_putMistake he (g := fun v => v.missAgain a.userAnswer a.answeredAt)
    (fun v => v.expression == a.expression) rfl (beq_iff_eq.mpr hx) (h.eq_of_missed he hx)
  exact Notebook.operate_miss hfind hput

theorem Tidy.eq_of_marked (h : m.Tidy) (he : e ∈ m.mistakes) :
    ∀ d ∈ m.mistakes, (d.2.id == some e.1) = true → d = e := by
  intro d hd hid
  have hfst : d.1 = e.1 := by simpa [h.named d hd] using hid
  exact List.inj_on_of_nodup_map h.nodup hd he hfst

theorem Tidy.serve_getMistake_of_mem (h : m.Tidy) (he : e ∈ m.mistakes) :
    Store.serve (.getMistake e.1) m = (.ok e.2, m) := by
  rw [serve_getMistake, lookup?_eq_some_of_mem h.nodup he]

theorem master_eq_self (h : v.mastered = true) : v.master = v :=
  congrArg (fun b => { v with mastered := b }) h.symm

theorem Tidy.revise_of_mastered (h : m.Tidy) (he : e ∈ m.mistakes) (hm : e.2.mastered = true) :
    m.revise (markUnder e.1) = m := by
  refine revise_eq_self fun d hd => ?_
  unfold markUnder
  split
  case isTrue hid =>
    rw [h.eq_of_marked he d hd hid]
    exact master_eq_self hm
  case isFalse => rfl

theorem Tidy.operate_master_of_mem (h : m.Tidy) (he : e ∈ m.mistakes) :
    operate (.master e.1) m = (.ok (.mistake e.2.master), m.revise (markUnder e.1)) := by
  have hget := h.serve_getMistake_of_mem he
  cases hm : e.2.mastered with
  | false =>
    have hput := h.serve_putMistake he (g := Mistake.master) (fun v => v.id == some e.1) rfl
      (beq_iff_eq.mpr (h.named e he)) (h.eq_of_marked he)
    exact Notebook.operate_master hget hm hput
  | true =>
    rw [Notebook.operate_master_of_mastered hget hm, h.revise_of_mastered he hm, master_eq_self hm]

theorem Tidy.operate_master_of_not_mem (h : m.Tidy) (hid : ∀ e ∈ m.mistakes, e.1 ≠ id) :
    operate (.master id) m = (.error .notFound, m.revise (markUnder id)) := by
  have hself : m.revise (markUnder id) = m := by
    refine revise_eq_self fun e he => ?_
    rw [markUnder, if_neg]
    simpa [h.named e he] using hid e he
  have hlookup : lookup? id m.mistakes = none := by
    rw [← Option.not_isSome_iff_eq_none, lookup?_isSome_iff, List.mem_map]
    exact fun ⟨e, he, heq⟩ => hid e he heq
  have hget := serve_getMistake id m
  rw [hlookup] at hget
  rw [Notebook.operate_master_of_error hget, hself]

theorem Tidy.changes (h : m.Tidy) (op : Operation) :
    m.Changes op (operate op m).1 (operate op m).2 := by
  cases op with
  | miss a =>
    by_cases hknown : ∃ e ∈ m.mistakes, e.2.expression = a.expression
    · obtain ⟨e, he, hx⟩ := hknown
      rw [h.operate_miss_again he hx]
      exact .missed a he hx
    · have hnew : ∀ e ∈ m.mistakes, e.2.expression ≠ a.expression :=
        fun e he hx => hknown ⟨e, he, hx⟩
      rw [operate_miss_new hnew]
      exact .entered a hnew
  | master id =>
    by_cases hknown : ∃ e ∈ m.mistakes, e.1 = id
    · obtain ⟨e, he, rfl⟩ := hknown
      rw [h.operate_master_of_mem he]
      exact .marked e.1 _
    · rw [h.operate_master_of_not_mem fun e he hid => hknown ⟨e, he, hid⟩]
      exact .marked id _
  | clear f => exact .cleared f _
  | list | grouped | counts =>
    exact .read _ (fun _ => Operation.noConfusion) (fun _ => Operation.noConfusion)
      fun _ => Operation.noConfusion
  | get id =>
    rw [Notebook.operate_get (serve_getMistake id m)]
    exact .read _ (fun _ => Operation.noConfusion) (fun _ => Operation.noConfusion)
      fun _ => Operation.noConfusion
  | retry id input =>
    rw [Notebook.operate_retry input (serve_getMistake id m)]
    exact .read _ (fun _ => Operation.noConfusion) (fun _ => Operation.noConfusion)
      fun _ => Operation.noConfusion

theorem Changes.tidy {op : Operation} {r : Except StorageError Reply} {m' : Memory}
    (hc : m.Changes op r m') (h : m.Tidy) : m'.Tidy := by
  cases hc with
  | entered a hnew => exact h.enter hnew ⟨Nat.le_refl 1, (by decide : 1 ≤ maxCount)⟩
  | missed a hmem hx => exact h.revise ((inPlace_missAgain _ _).when _)
  | marked => exact h.revise (inPlace_master.when _)
  | cleared f => exact h.sweep f
  | read => exact h

end MentalMath.Memory
