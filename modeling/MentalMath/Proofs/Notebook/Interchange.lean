import MentalMath.Proofs.Notebook.Mirror

/-! A notebook in memory and one in tables cannot be told apart but by their numbers. From empty stores
on, whatever is done with entries that are there, both return the same under an order-preserving change
of the numbers in use. -/

namespace MentalMath

open Notebook

namespace Mirrors

variable {ρ : MistakeId → MistakeId} {m : Memory} {db : Database} {e : MistakeId × Mistake}

/-! ### One operation -/

/-- Both stores return the same from an operation and still mirror each other, and entries that were
there keep their numbers. -/
def Alike (ρ : MistakeId → MistakeId) (m : Memory) (db : Database) (op : Operation) : Prop :=
  ∃ ρ', Mirrors ρ' (operate op m).2 (operate (op.rename ρ) db).2 ∧
    (∀ e ∈ m.mistakes, ρ' e.1 = ρ e.1) ∧
    (operate (op.rename ρ) db).1 = (operate op m).1.map (Reply.rename ρ')

theorem alike {ρ' : MistakeId → MistakeId} {m' : Memory} {db' : Database} (h : Mirrors ρ' m' db')
    (hold : ∀ e ∈ m.mistakes, ρ' e.1 = ρ e.1) {op : Operation} {r : Reply}
    (hm : operate op m = (.ok r, m')) (hdb : operate (op.rename ρ) db = (.ok (r.rename ρ'), db')) :
    Alike ρ m db op := by
  refine ⟨ρ', ?_, hold, ?_⟩
  · rw [hm, hdb]
    exact h
  · rw [hm, hdb]
    rfl

theorem alike_of_read (h : Mirrors ρ m db) {op : Operation} {r : Reply}
    (hm : operate op m = (.ok r, m)) (hdb : operate (op.rename ρ) db = (.ok (r.rename ρ), db)) :
    Alike ρ m db op :=
  h.alike (fun _ _ => rfl) hm hdb

theorem alike_list (h : Mirrors ρ m db) (f : MistakeFilter) : Alike ρ m db (.list f) :=
  h.alike_of_read rfl (operate_list (h.serve_listMistakes f))

theorem alike_grouped (h : Mirrors ρ m db) (f : MistakeFilter) : Alike ρ m db (.grouped f) := by
  refine h.alike_of_read rfl ((operate_grouped (h.serve_listMistakes f)).trans ?_)
  simp only [Except.map, group_rename]
  rfl

theorem alike_counts (h : Mirrors ρ m db) : Alike ρ m db .counts := by
  refine h.alike_of_read rfl ((operate_counts (h.serve_listMistakes .all)).trans ?_)
  simp only [Except.map, count_rename]
  rfl

theorem alike_get (h : Mirrors ρ m db) (he : e ∈ m.mistakes) : Alike ρ m db (.get e.1) :=
  h.alike_of_read (operate_get (h.tidy.serve_getMistake_of_mem he))
    (operate_get (h.serve_getMistake he))

theorem alike_retry (h : Mirrors ρ m db) (he : e ∈ m.mistakes) (input : String) :
    Alike ρ m db (.retry e.1 input) :=
  h.alike_of_read (operate_retry input (h.tidy.serve_getMistake_of_mem he))
    (operate_retry input (h.serve_getMistake he))

theorem alike_master (h : Mirrors ρ m db) (he : e ∈ m.mistakes) : Alike ρ m db (.master e.1) := by
  have hm := h.tidy.operate_master_of_mem he
  have hget := h.serve_getMistake he
  cases hmastered : e.2.mastered with
  | true =>
    rw [h.tidy.revise_of_mastered he hmastered, Memory.master_eq_self hmastered] at hm
    exact h.alike_of_read hm (operate_master_of_mastered hget hmastered)
  | false =>
    obtain ⟨db', hput, hmirrors⟩ := h.serve_putMistake he Memory.inPlace_master (fun _ => rfl)
      (h.plain e he) (fun v => v.id == some e.1) (beq_iff_eq.mpr (h.tidy.named e he))
      (h.tidy.eq_of_marked he)
    exact hmirrors.alike (fun _ _ => rfl) hm (operate_master hget hmastered hput)

theorem alike_clear (h : Mirrors ρ m db) (f : MistakeFilter) : Alike ρ m db (.clear f) := by
  obtain ⟨db', hserve, hmirrors⟩ := h.serve_deleteMistakes f
  exact hmirrors.alike (fun _ _ => rfl) rfl (operate_clear hserve)

theorem alike_miss (h : Mirrors ρ m db) {a : Answer} (ha : a.answeredAt.HasPlainYear)
    (hroom : (∀ r ∈ db.mistakes, r.expression ≠ a.expression) →
      Database.nextNumber (db.mistakes.map MistakeRow.id) ≤ Text.maxSigned64) :
    Alike ρ m db (.miss a) := by
  have hfind : Store.serve (.findMistake a.expression) db =
      (.ok ((m.findMistake a.expression).map (Mistake.rename ρ)), db) :=
    congrArg (·, db) (h.findMistake_eq a.expression)
  by_cases hknown : ∃ e ∈ m.mistakes, e.2.expression = a.expression
  · obtain ⟨e, he, hx⟩ := hknown
    rw [← hx, h.tidy.findMistake_of_mem he, hx] at hfind
    obtain ⟨db', hput, hmirrors⟩ := h.serve_putMistake he
      (Memory.inPlace_missAgain a.userAnswer a.answeredAt) (fun _ => rfl) ha
      (fun v => v.expression == a.expression) (beq_iff_eq.mpr hx) (h.tidy.eq_of_missed he hx)
    exact hmirrors.alike (fun _ _ => rfl) (h.tidy.operate_miss_again he hx)
      (operate_miss hfind hput)
  · have hnew : ∀ e ∈ m.mistakes, e.2.expression ≠ a.expression :=
      fun e he hx => hknown ⟨e, he, hx⟩
    rw [Memory.findMistake_eq_none_iff.mpr hnew] at hfind
    obtain ⟨ρ', db', hput, hold, hmirrors⟩ := h.serve_putMistake_new (v := Mistake.first a) rfl hnew
      ⟨Nat.le_refl 1, (by decide : 1 ≤ maxCount)⟩ ha (hroom (h.expression_ne hnew))
    exact hmirrors.alike hold (Memory.operate_miss_new hnew) (operate_miss hfind hput)

end Mirrors

/-! ### Many operations -/

namespace Notebook

/-- The tables have a number left for the entry that an operation adds. -/
def Operation.HasRoom (db : Database) : Operation → Prop
  | .miss a => (∀ r ∈ db.mistakes, r.expression ≠ a.expression) →
      Database.nextNumber (db.mistakes.map MistakeRow.id) ≤ Text.maxSigned64
  | _ => True

/-- An operation names entries of the memory only. -/
def Operation.IsKnown (m : Memory) (op : Operation) : Prop :=
  ∀ id ∈ op.numbers, id ∈ m.mistakes.map Prod.fst

/-- The numbers in use in the tables are those in use in the memory but for a change of the numbers
that keeps their order. -/
structure Renumbers (ρ : MistakeId → MistakeId) (m : Memory) (db : Database) : Prop where
  numbers : db.mistakes.map MistakeRow.id = m.mistakes.map fun e => ((ρ e.1).value : Int)
  order : ∀ i ∈ m.mistakes.map Prod.fst, ∀ j ∈ m.mistakes.map Prod.fst,
    i.value < j.value → (ρ i).value < (ρ j).value

/-- From each operation both stores return the same under changed numbers, where the numbers of the
entries that stay are changed as before, and so on from the stores after it. An operation names
entries that are there, and a new row finds a number. -/
def StayAlike (ρ : MistakeId → MistakeId) (m : Memory) (db : Database) : List Operation → Prop
  | [] => True
  | op :: ops => op.IsKnown m → op.HasRoom db →
    ∃ ρ', (operate (op.rename ρ) db).1 = (operate op m).1.map (Reply.rename ρ') ∧
      (∀ id ∈ m.mistakes.map Prod.fst, ρ' id = ρ id) ∧
      Renumbers ρ' (operate op m).2 (operate (op.rename ρ) db).2 ∧
      StayAlike ρ' (operate op m).2 (operate (op.rename ρ) db).2 ops

end Notebook

namespace Mirrors

variable {ρ : MistakeId → MistakeId} {m : Memory} {db : Database}

theorem empty : Mirrors ρ Memory.empty Database.empty :=
  ⟨Memory.tidy_empty, rfl, fun _ hd => absurd hd List.not_mem_nil,
    fun _ he => absurd he List.not_mem_nil, fun _ he => absurd he List.not_mem_nil⟩

theorem renumbers (h : Mirrors ρ m db) : Renumbers ρ m db := by
  refine ⟨?_, fun i hi j hj => ?_⟩
  · rw [h.rows, List.map_map]
    rfl
  · obtain ⟨d, hd, rfl⟩ := List.mem_map.mp hi
    obtain ⟨e, he, rfl⟩ := List.mem_map.mp hj
    exact h.order d hd e he

theorem alike_of_known (h : Mirrors ρ m db) {op : Operation} (hknown : op.IsKnown m)
    (hroom : op.HasRoom db) (hplain : ∀ a, op = .miss a → a.answeredAt.HasPlainYear) :
    Alike ρ m db op := by
  have hentry : ∀ id ∈ op.numbers, ∃ e ∈ m.mistakes, e.1 = id :=
    fun id hid => List.mem_map.mp (hknown id hid)
  cases op with
  | miss a => exact h.alike_miss (hplain a rfl) hroom
  | list f => exact h.alike_list f
  | grouped f => exact h.alike_grouped f
  | counts => exact h.alike_counts
  | clear f => exact h.alike_clear f
  | get id =>
    obtain ⟨e, he, rfl⟩ := hentry id (List.mem_singleton_self id)
    exact h.alike_get he
  | retry id input =>
    obtain ⟨e, he, rfl⟩ := hentry id (List.mem_singleton_self id)
    exact h.alike_retry he input
  | master id =>
    obtain ⟨e, he, rfl⟩ := hentry id (List.mem_singleton_self id)
    exact h.alike_master he

theorem stayAlike (h : Mirrors ρ m db) {ops : List Operation}
    (hplain : ∀ a, .miss a ∈ ops → a.answeredAt.HasPlainYear) : StayAlike ρ m db ops := by
  induction ops generalizing ρ m db with
  | nil => exact True.intro
  | cons op ops ih =>
    intro hknown hroom
    obtain ⟨ρ', hmirrors, hold, hreply⟩ := h.alike_of_known hknown hroom fun a ha =>
      hplain a (ha ▸ List.mem_cons_self)
    refine ⟨ρ', hreply, fun id hid => ?_, hmirrors.renumbers, ih hmirrors fun a ha =>
      hplain a (List.mem_cons_of_mem _ ha)⟩
    obtain ⟨e, he, rfl⟩ := List.mem_map.mp hid
    exact hold e he

end Mirrors

/-- A notebook in memory and one in tables stay alike from the start on, whatever is missed in plain
years, looked at, tried again, marked and taken out. -/
theorem Notebook.stayAlike_empty (ops : List Operation)
    (hplain : ∀ a, .miss a ∈ ops → a.answeredAt.HasPlainYear) :
    StayAlike id Memory.empty Database.empty ops :=
  Mirrors.empty.stayAlike hplain

/-- After all entries are taken out, a miss gets the number three in the memory and the number one in
the tables. -/
theorem Notebook.stayAlike_of_numbers_given_again :
    let sum : Answer := ⟨"17 + 25", "42", "32", .skill .twoDigitAddition, false, ⟨0, by decide⟩, .epoch⟩
    let difference : Answer := { sum with expression := "43 - 28", correctAnswer := "15" }
    let ops := [.miss sum, .miss difference, .clear .all, .miss sum]
    (∀ a, .miss a ∈ ops ++ [.get ⟨3⟩, .list .all] → a.answeredAt.HasPlainYear) ∧
      StayAlike id Memory.empty Database.empty (ops ++ [.get ⟨3⟩, .list .all]) ∧
      (ops.foldl (fun m op => (operate op m).2) Memory.empty).mistakes.map Prod.fst = [⟨3⟩] ∧
      (ops.foldl (fun db op => (operate op db).2) Database.empty).mistakes.map MistakeRow.id = [1] := by
  intro sum difference ops
  have hplain : ∀ a, .miss a ∈ ops ++ [.get ⟨3⟩, .list .all] → a.answeredAt.HasPlainYear := by
    intro a ha
    have htime : a.answeredAt = .epoch := by
      simp only [ops, List.cons_append, List.nil_append, List.mem_cons, Operation.miss.injEq,
        reduceCtorEq, List.not_mem_nil, or_false, false_or] at ha
      rcases ha with rfl | rfl | rfl <;> rfl
    rw [htime]
    decide
  exact ⟨hplain, stayAlike_empty _ hplain, by decide +kernel, by decide +kernel⟩

end MentalMath
