import Mathlib.Data.List.Find
import MentalMath.Proofs.Notebook.Mirror

/-! What a store has to do with the entries of its notebook, whatever it is made of: an entry is looked
up by its expression or its number, and handed in again once it was changed. -/

namespace MentalMath

namespace Notebook

section Requests

variable {σ : Type} [Store σ]

/-- The entry of an expression, as the store returns it. -/
def entryOf (s : σ) (x : String) : Option Mistake :=
  (Store.serve (.findMistake x) s).1.toOption.join

/-- An entry that may be handed in: a new one, or one in the place of that of its expression. -/
structure Fits (s : σ) (v : Mistake) : Prop where
  counted : 1 ≤ v.count ∧ v.count ≤ maxCount
  known : ∀ id, v.id = some id →
    ∃ old, entryOf s v.expression = some old ∧ old.id = some id ∧ old.firstAt = v.firstAt

/-- What can come of looking an entry up by its number. -/
inductive Gets (s : σ) (id : MistakeId) : Except StorageError Mistake → Prop
  | found {v : Mistake} (hv : entryOf s v.expression = some v) (hid : v.id = some id) :
    Gets s id (.ok v)
  | missing (e : StorageError) (he : e ≠ .conflict)
      (hnone : ∀ x v, entryOf s x = some v → v.id ≠ some id) : Gets s id (.error e)

/-- What can come of handing in an entry. -/
inductive Puts (s : σ) (v : Mistake) : Except StorageError MistakeId → σ → Prop
  | entered (id : MistakeId) (s' : σ) (hid : v.id = none) (hnew : entryOf s v.expression = none)
      (hfresh : ∀ x w, entryOf s x = some w → w.id ≠ some id)
      (hentry : ∀ x, entryOf s' x = if v.expression = x then some (v.withId id) else entryOf s x) :
    Puts s v (.ok id) s'
  | replaced (id : MistakeId) (s' : σ) (hid : v.id = some id)
      (hentry : ∀ x, entryOf s' x = if v.expression = x then some v else entryOf s x) :
    Puts s v (.ok id) s'
  | refused {old : Mistake} (hid : v.id = none) (hold : entryOf s v.expression = some old) :
    Puts s v (.error .conflict) s

end Requests

end Notebook

open Notebook (entryOf Fits Gets Puts)

class NotebookTable (σ : Type) where
  /-- The store is in order, with room for that many more entries. -/
  Ready : Nat → σ → Prop

open NotebookTable in
/-- What the requests of a notebook make of a store. -/
class LawfulNotebookTable (σ : Type) [Store σ] [NotebookTable σ] : Prop where
  ready_of_succ {n : Nat} {s : σ} : Ready (n + 1) s → Ready n s
  ready_put {n : Nat} {s : σ} {v : Mistake} : Ready (n + 1) s → Fits s v →
    Ready n (Store.serve (.putMistake v) s).2
  expression {n : Nat} {s : σ} {x : String} {v : Mistake} : Ready n s → entryOf s x = some v →
    v.expression = x
  numbered {n : Nat} {s : σ} {x : String} {v : Mistake} : Ready n s → entryOf s x = some v →
    ∃ id, v.id = some id
  counted {n : Nat} {s : σ} {x : String} {v : Mistake} : Ready n s → entryOf s x = some v →
    1 ≤ v.count ∧ v.count ≤ maxCount
  apart {n : Nat} {s : σ} {x y : String} {v w : Mistake} : Ready n s → entryOf s x = some v →
    entryOf s y = some w → v.id = w.id → x = y
  finds {n : Nat} {s : σ} (x : String) : Ready n s →
    Store.serve (.findMistake x) s = (.ok (entryOf s x), s)
  gets {n : Nat} {s : σ} (id : MistakeId) : Ready n s →
    ∃ r, Store.serve (.getMistake id) s = (r, s) ∧ Gets s id r
  puts {n : Nat} {s : σ} {v : Mistake} : Ready (n + 1) s → Fits s v →
    Puts s v (Store.serve (.putMistake v) s).1 (Store.serve (.putMistake v) s).2

theorem Mistake.withId_eq_self {v : Mistake} {id : MistakeId} (h : v.id = some id) :
    v.withId id = v := by
  rw [withId, ← h]

/-! ### Values as they are -/

namespace Memory

variable {m : Memory} {v w : Mistake} {x : String} {id : MistakeId}

theorem Tidy.entryOf_eq_some_iff (h : m.Tidy) :
    entryOf m x = some v ↔ v.expression = x ∧ ∃ id, v.id = some id ∧ (id, v) ∈ m.mistakes := by
  constructor
  · intro hv
    obtain ⟨id, hmem, hx⟩ := exists_of_findMistake hv
    exact ⟨hx, id, h.named _ hmem, hmem⟩
  · rintro ⟨rfl, id, -, hmem⟩
    exact h.findMistake_of_mem hmem

/-- The entry in the place of the one under its number. -/
def instead (v w : Mistake) : Mistake :=
  if w.id == v.id then v else w

theorem findMistake_enter (hnew : ∀ e ∈ m.mistakes, e.2.expression ≠ v.expression) (x : String) :
    (m.enter v).findMistake x =
      if v.expression = x then some (v.withId ⟨m.lastNumber + 1⟩) else m.findMistake x := by
  rw [findMistake, enter, List.map_append, List.find?_append, ← findMistake]
  split
  case isTrue hx =>
    have hnone : m.findMistake x = none := findMistake_eq_none_iff.mpr (hx ▸ hnew)
    simp [hnone, Mistake.withId, hx]
  case isFalse hx => simp [Mistake.withId, hx]

theorem findMistake_revise {g : Mistake → Mistake}
    (hg : ∀ e ∈ m.mistakes, (g e.2).expression = e.2.expression) (x : String) :
    (m.revise g).findMistake x = (m.findMistake x).map g := by
  have hsame : ∀ e ∈ m.mistakes, ((g e.2).expression == x) = (e.2.expression == x) :=
    fun e he => by rw [hg e he]
  rw [findMistake, revise, List.map_map, List.find?_map, findMistake, List.find?_map,
    Option.map_map]
  exact congrArg (Option.map _) (List.find?_congr hsame)

/-- Entries that are changed where they are stay in order if each keeps its number and its
expression, and some misses. -/
theorem Tidy.revise_of_forall (h : m.Tidy) {g : Mistake → Mistake}
    (hg : ∀ e ∈ m.mistakes, (g e.2).id = e.2.id ∧ (g e.2).expression = e.2.expression ∧
      1 ≤ (g e.2).count ∧ (g e.2).count ≤ maxCount) : (m.revise g).Tidy := by
  constructor
  · simpa [Memory.revise, Function.comp_def] using h.ordered
  · exact forall_mem_revise h.given
  · exact forall_mem_revise fun e he => (hg e he).1.trans (h.named e he)
  · have hsame : (m.revise g).mistakes.map (fun e => e.2.expression) =
        m.mistakes.map fun e => e.2.expression := by
      rw [Memory.revise, List.map_map]
      exact List.map_congr_left fun e he => (hg e he).2.1
    rw [hsame]
    exact h.apart
  · exact forall_mem_revise fun e he => (hg e he).2.2

theorem serve_putMistake_new (hid : v.id = none)
    (hnew : ∀ e ∈ m.mistakes, e.2.expression ≠ v.expression) :
    Store.serve (.putMistake v) m = (.ok ⟨m.lastNumber + 1⟩, m.enter v) := by
  have hany : (m.mistakes.any fun e => e.2.expression == v.expression) = false := by
    simpa using hnew
  show m.putMistake v = _
  simp only [putMistake, hid, hany]
  rfl

theorem serve_putMistake_known (hid : v.id = none) (hold : m.findMistake v.expression = some w) :
    Store.serve (.putMistake v) m = (.error .conflict, m) := by
  obtain ⟨i, hmem, hx⟩ := exists_of_findMistake hold
  have hany : (m.mistakes.any fun e => e.2.expression == v.expression) = true :=
    List.any_eq_true.mpr ⟨(i, w), hmem, beq_iff_eq.mpr hx⟩
  show m.putMistake v = _
  simp only [putMistake, hid, hany]
  rfl

/-- What comes of handing in an entry again. -/
structure Replaces (m : Memory) (v : Mistake) (id : MistakeId) : Prop where
  serve : Store.serve (.putMistake v) m = (.ok id, m.revise (instead v))
  tidy : (m.revise (instead v)).Tidy
  find : ∀ x, (m.revise (instead v)).findMistake x =
    if v.expression = x then some v else m.findMistake x

theorem Tidy.exists_of_fits (h : m.Tidy) (hv : Fits m v) (hid : v.id = some id) :
    ∃ old, (id, old) ∈ m.mistakes ∧ v.expression = old.expression ∧ v.firstAt = old.firstAt := by
  obtain ⟨old, hold, hown, hfirst⟩ := hv.known id hid
  obtain ⟨hx, i, hi, hmem⟩ := h.entryOf_eq_some_iff.mp hold
  obtain rfl : id = i := Option.some.inj (hown.symm.trans hi)
  exact ⟨old, hmem, hx.symm, hfirst.symm⟩

theorem instead_self (h : w.id = v.id) : instead v w = v :=
  if_pos (beq_iff_eq.mpr h)

theorem instead_of_ne (h : w.id ≠ v.id) : instead v w = w :=
  if_neg fun heq => h (beq_iff_eq.mp heq)

theorem Tidy.eq_of_id (h : m.Tidy) {d e : MistakeId × Mistake} (hd : d ∈ m.mistakes)
    (he : e ∈ m.mistakes) (heq : d.2.id = e.2.id) : d = e :=
  h.eq_of_marked he d hd (beq_iff_eq.mpr (heq.trans (h.named e he)))

theorem Tidy.replaces (h : m.Tidy) {old : Mistake} (hmem : (id, old) ∈ m.mistakes)
    (hid : v.id = some id) (hx : v.expression = old.expression)
    (hv : 1 ≤ v.count ∧ v.count ≤ maxCount) : m.Replaces v id := by
  have hown : old.id = v.id := (h.named _ hmem).trans hid.symm
  have hother : ∀ d ∈ m.mistakes, d ≠ (id, old) → instead v d.2 = d.2 := fun d hd hne =>
    instead_of_ne fun heq => hne (h.eq_of_id hd hmem (heq.trans hown.symm))
  have hall : ∀ d ∈ m.mistakes, (instead v d.2).id = d.2.id ∧
      (instead v d.2).expression = d.2.expression ∧
      1 ≤ (instead v d.2).count ∧ (instead v d.2).count ≤ maxCount := by
    intro d hd
    by_cases hde : d = (id, old)
    · subst hde
      rw [instead_self hown]
      exact ⟨hown.symm, hx, hv⟩
    · rw [hother d hd hde]
      exact ⟨rfl, rfl, h.counted d hd⟩
  refine ⟨?_, h.revise_of_forall hall, fun x => ?_⟩
  · exact h.serve_putMistake hmem (g := fun _ => v) (fun w => w.id == v.id) hown.symm
      (beq_iff_eq.mpr hown) fun d hd heq => h.eq_of_id hd hmem ((beq_iff_eq.mp heq).trans hown.symm)
  · rw [findMistake_revise fun d hd => (hall d hd).2.1]
    split
    case isTrue heq =>
      subst heq
      rw [hx, h.findMistake_of_mem hmem, Option.map_some, instead_self hown]
    case isFalse hne =>
      cases hfind : m.findMistake x with
      | none => rfl
      | some w =>
        obtain ⟨i, hi, rfl⟩ := exists_of_findMistake hfind
        rw [Option.map_some, hother (i, w) hi]
        rintro ⟨rfl, rfl⟩
        exact hne hx

theorem Tidy.gets (h : m.Tidy) (id : MistakeId) :
    ∃ r, Store.serve (.getMistake id) m = (r, m) ∧ Gets m id r := by
  refine ⟨_, serve_getMistake id m, ?_⟩
  cases hlookup : lookup? id m.mistakes with
  | some v =>
    have hmem := mem_of_lookup? hlookup
    exact .found (h.findMistake_of_mem hmem) (h.named _ hmem)
  | none =>
    refine .missing _ StorageError.noConfusion fun x v hv hid => ?_
    obtain ⟨-, i, hi, hmem⟩ := h.entryOf_eq_some_iff.mp hv
    obtain rfl : id = i := Option.some.inj (hid.symm.trans hi)
    rw [lookup?_eq_some_of_mem h.nodup hmem] at hlookup
    cases hlookup

/-- The next number belongs to no entry. -/
theorem Tidy.not_new (h : m.Tidy) (hw : entryOf m x = some w) :
    w.id ≠ some ⟨m.lastNumber + 1⟩ := by
  intro hown
  obtain ⟨-, i, hi, hmem⟩ := h.entryOf_eq_some_iff.mp hw
  have hgiven := h.given _ hmem
  rw [← Option.some.inj (hown.symm.trans hi)] at hgiven
  exact Nat.not_succ_le_self _ hgiven

theorem Tidy.puts (h : m.Tidy) (hv : Fits m v) :
    Puts m v (Store.serve (.putMistake v) m).1 (Store.serve (.putMistake v) m).2 ∧
      (Store.serve (.putMistake v) m).2.Tidy := by
  cases hid : v.id with
  | some id =>
    obtain ⟨old, hmem, hx, -⟩ := h.exists_of_fits hv hid
    have hr := h.replaces hmem hid hx hv.counted
    rw [hr.serve]
    exact ⟨.replaced id _ hid hr.find, hr.tidy⟩
  | none =>
    cases hfind : m.findMistake v.expression with
    | some w =>
      rw [serve_putMistake_known hid hfind]
      exact ⟨.refused hid hfind, h⟩
    | none =>
      have hnew := findMistake_eq_none_iff.mp hfind
      rw [serve_putMistake_new hid hnew]
      exact ⟨.entered _ _ hid hfind (fun x w hw => h.not_new hw) (findMistake_enter hnew),
        h.enter hnew hv.counted⟩

instance : NotebookTable Memory := ⟨fun _ m => m.Tidy⟩

theorem Tidy.apart_of_id (h : m.Tidy) {y : String} (hv : entryOf m x = some v)
    (hw : entryOf m y = some w) (heq : v.id = w.id) : x = y := by
  obtain ⟨rfl, i, hi, hmem⟩ := h.entryOf_eq_some_iff.mp hv
  obtain ⟨rfl, j, hj, hmem'⟩ := h.entryOf_eq_some_iff.mp hw
  obtain rfl : i = j := Option.some.inj (hi.symm.trans (heq.trans hj))
  exact congrArg (fun e : MistakeId × Mistake => e.2.expression)
    (List.inj_on_of_nodup_map h.nodup hmem hmem' rfl)

instance : LawfulNotebookTable Memory where
  ready_of_succ h := h
  ready_put h hv := (Tidy.puts h hv).2
  expression h hv := ((Tidy.entryOf_eq_some_iff h).mp hv).1
  numbered h hv := by
    obtain ⟨-, id, hid, -⟩ := (Tidy.entryOf_eq_some_iff h).mp hv
    exact ⟨id, hid⟩
  counted h hv := by
    obtain ⟨-, id, -, hmem⟩ := (Tidy.entryOf_eq_some_iff h).mp hv
    exact Tidy.counted h _ hmem
  apart h hv hw heq := Tidy.apart_of_id h hv hw heq
  finds _ _ := rfl
  gets id h := Tidy.gets h id
  puts h hv := (Tidy.puts h hv).1

end Memory

/-! ### Tables -/

namespace Database

open Column

variable {m : Memory} {db : Database} {v : Mistake} {id : MistakeId} {n : Nat}

/-- The tables hold the entries of a store that holds its values as they are, under the same numbers,
and go on with the same number. -/
structure Shows (m : Memory) (n : Nat) (db : Database) : Prop where
  tidy : m.Tidy
  rows : db.mistakes = m.mistakes.map (mirrorRow fun id => id)
  next : nextNumber (db.mistakes.map MistakeRow.id) = m.lastNumber + 1
  room : m.lastNumber + n ≤ Text.maxSigned64

theorem shows_empty (hn : n ≤ Text.maxSigned64) : Shows Memory.empty n Database.empty :=
  ⟨Memory.tidy_empty, rfl, rfl, by simpa [Memory.empty] using hn⟩

theorem Shows.of_succ (h : Shows m (n + 1) db) : Shows m n db :=
  ⟨h.tidy, h.rows, h.next, Nat.le_trans (Nat.le_succ _) h.room⟩

theorem Shows.read_row (h : Shows m n db) {e : MistakeId × Mistake} (he : e ∈ m.mistakes) :
    (mirrorRow (fun id => id) e).read = .ok e.2 := by
  rw [mirrorRow, MistakeRow.read_ofMistake _ (h.tidy.counted e he).2]
  exact congrArg Except.ok (Mistake.withId_eq_self (h.tidy.named e he))

theorem Shows.findMistake_eq (h : Shows m n db) (x : String) :
    db.findMistake x = .ok (m.findMistake x) := by
  rw [findMistake_of_rows (g := id) h.rows fun _ he => h.read_row he, Option.map_id]
  rfl

theorem Shows.entryOf_eq (h : Shows m n db) (x : String) : entryOf db x = entryOf m x := by
  have hfind : (Store.serve (.findMistake x) db).1 = .ok (m.findMistake x) := h.findMistake_eq x
  rw [entryOf, hfind]
  rfl

theorem Shows.eq_of_number (h : Shows m n db) {d e : MistakeId × Mistake} (hd : d ∈ m.mistakes)
    (he : e ∈ m.mistakes) (heq : d.1.value = e.1.value) : d = e :=
  List.inj_on_of_nodup_map h.tidy.nodup hd he (congrArg MistakeId.mk heq)

theorem Shows.le_maxSigned64 (h : Shows m n db) {e : MistakeId × Mistake} (he : e ∈ m.mistakes) :
    e.1.value ≤ Text.maxSigned64 :=
  Nat.le_trans (h.tidy.given e he) (Nat.le_trans (Nat.le_add_right _ _) h.room)

theorem Shows.mistakeRow?_eq_none (h : Shows m n db) (hid : ∀ e ∈ m.mistakes, e.1 ≠ id) :
    db.mistakeRow? id.value = none := by
  rw [mistakeRow?, h.rows, List.find?_eq_none]
  intro r hr heq
  obtain ⟨e, he, rfl⟩ := List.mem_map.mp hr
  exact hid e he (congrArg MistakeId.mk (Int.ofNat_inj.mp (beq_iff_eq.mp heq)))

theorem Shows.gets (h : Shows m n db) (id : MistakeId) :
    ∃ r, Store.serve (.getMistake id) db = (r, db) ∧ Gets db id r := by
  refine ⟨db.getMistake id, rfl, ?_⟩
  by_cases hknown : ∃ e ∈ m.mistakes, e.1 = id
  · obtain ⟨e, he, rfl⟩ := hknown
    have hrow := mistakeRow?_of_rows h.rows he fun d hd heq => h.eq_of_number hd he heq
    simp only [getMistake, ofId_eq_ok (h.le_maxSigned64 he), bind, Except.bind, hrow, h.read_row he]
    refine .found ?_ (h.tidy.named e he)
    rw [h.entryOf_eq]
    exact h.tidy.findMistake_of_mem he
  · have hnone : ∀ x v, entryOf db x = some v → v.id ≠ some id := by
      intro x v hv hid
      rw [h.entryOf_eq] at hv
      obtain ⟨-, i, hi, hmem⟩ := h.tidy.entryOf_eq_some_iff.mp hv
      exact hknown ⟨(i, v), hmem, Option.some.inj (hi.symm.trans hid)⟩
    by_cases hroom : id.value ≤ Text.maxSigned64
    · have hrow := h.mistakeRow?_eq_none fun e he heq => hknown ⟨e, he, heq⟩
      simp only [getMistake, ofId_eq_ok hroom, bind, Except.bind, hrow]
      exact .missing .notFound StorageError.noConfusion hnone
    · simp only [getMistake, ofId_eq_error hroom, bind, Except.bind]
      exact .missing _ StorageError.noConfusion hnone

theorem nextNumber_concat (ids : List Int) :
    nextNumber (ids ++ [nextNumber ids]) = nextNumber ids + 1 := by
  cases ids with
  | nil => rfl
  | cons id ids =>
    have hlast : max (ids.foldl max id) (ids.foldl max id + 1) = ids.foldl max id + 1 := by omega
    simp only [nextNumber, List.cons_append, List.foldl_append, List.foldl_cons, List.foldl_nil,
      hlast]

theorem run_insertMistake_of_known (hv : 1 ≤ v.count) {r : MistakeRow} (hr : r ∈ db.mistakes)
    (hx : r.expression = v.expression) : (insertMistake v).run db = .error .conflict := by
  have hany : (db.mistakes.any fun old => old.expression == v.expression) = true :=
    List.any_eq_true.mpr ⟨r, hr, beq_iff_eq.mpr hx⟩
  simp only [insertMistake, StateT.run_bind, StateT.run_get, pure_bind]
  rw [run_demand (MistakeRow.isAdmissible_ofMistake _ hv)]
  simp only [bind, Except.bind, MistakeRow.ofMistake, hany]
  rfl

theorem Shows.replaces (h : Shows m (n + 1) db) {old : Mistake} (hmem : (id, old) ∈ m.mistakes)
    (hid : v.id = some id) (hx : v.expression = old.expression) (hf : v.firstAt = old.firstAt)
    (hv : 1 ≤ v.count ∧ v.count ≤ maxCount) : ∃ db',
      Store.serve (.putMistake v) db = (.ok id, db') ∧ Shows (m.revise (Memory.instead v)) n db' := by
  have hr := h.tidy.replaces hmem hid hx hv
  have hown : old.id = v.id := (h.tidy.named _ hmem).trans hid.symm
  refine ⟨_, serve_putMistake_of_rows h.rows hmem (fun d hd heq => h.eq_of_number hd hmem heq)
    (h.le_maxSigned64 hmem) hid hx hf hv.1 (g := Memory.instead v) ?_ ?_, hr.tidy, ?_, ?_, ?_⟩
  · rw [Memory.instead_self hown]
  · exact fun d hd hne => Memory.instead_of_ne fun heq =>
      hne (h.tidy.eq_of_id hd hmem (heq.trans hown.symm))
  · rw [Memory.revise, List.map_map]
    rfl
  · rw [← show _ = ((m.revise _).lastNumber : Int) + 1 from h.next, h.rows, List.map_map, List.map_map]
    rfl
  · exact h.of_succ.room

theorem Shows.enters (h : Shows m (n + 1) db) (hid : v.id = none)
    (hnew : ∀ e ∈ m.mistakes, e.2.expression ≠ v.expression)
    (hv : 1 ≤ v.count ∧ v.count ≤ maxCount) : ∃ db',
      Store.serve (.putMistake v) db = (.ok ⟨m.lastNumber + 1⟩, db') ∧ Shows (m.enter v) n db' := by
  have hrows : ∀ r ∈ db.mistakes, r.expression ≠ v.expression := by
    intro r hr
    rw [h.rows] at hr
    obtain ⟨e, he, rfl⟩ := List.mem_map.mp hr
    exact hnew e he
  have hrun := run_insertMistake hv.1 hrows
  refine ⟨{ db with mistakes := db.mistakes ++ [.ofMistake (m.lastNumber + 1 : Nat) v] }, ?_,
    h.tidy.enter hnew hv, ?_, ?_, ?_⟩
  · show serve _ db = _
    simp only [serve, hid]
    rw [commit_of_ok hrun, h.next]
    rfl
  · rw [h.rows, Memory.enter, List.map_append]
    rfl
  · have hnext := nextNumber_concat (db.mistakes.map MistakeRow.id)
    rw [h.next] at hnext
    rw [List.map_append]
    exact hnext
  · show m.lastNumber + 1 + n ≤ _
    have hroom := h.room
    omega

/-- Handing in an entry does the same to tables as to values as they are. -/
theorem Shows.puts (h : Shows m (n + 1) db) (hv : Fits db v) :
    Puts db v (Store.serve (.putMistake v) db).1 (Store.serve (.putMistake v) db).2 ∧
      ∃ m', Shows m' n (Store.serve (.putMistake v) db).2 := by
  have hfits : Fits m v := ⟨hv.counted, fun id hid => h.entryOf_eq v.expression ▸ hv.known id hid⟩
  cases hid : v.id with
  | some id =>
    obtain ⟨old, hmem, hx, hf⟩ := h.tidy.exists_of_fits hfits hid
    obtain ⟨db', hserve, hshows⟩ := h.replaces hmem hid hx hf hv.counted
    rw [hserve]
    refine ⟨.replaced id db' hid fun x => ?_, _, hshows⟩
    rw [hshows.entryOf_eq, h.entryOf_eq]
    exact (h.tidy.replaces hmem hid hx hv.counted).find x
  | none =>
    cases hfind : m.findMistake v.expression with
    | some w =>
      obtain ⟨i, hmem, hx⟩ := Memory.exists_of_findMistake hfind
      have hrun : (insertMistake v).run db = .error .conflict := by
        refine run_insertMistake_of_known hv.counted.1 (r := mirrorRow (fun id => id) (i, w)) ?_ hx
        exact h.rows ▸ List.mem_map_of_mem hmem
      have hserve : Store.serve (.putMistake v) db = (.error .conflict, db) := by
        show serve _ db = _
        simp only [serve, hid]
        rw [commit_of_error hrun]
        rfl
      rw [hserve]
      exact ⟨.refused hid ((h.entryOf_eq _).trans hfind), m, h.of_succ⟩
    | none =>
      have hnew := Memory.findMistake_eq_none_iff.mp hfind
      obtain ⟨db', hserve, hshows⟩ := h.enters hid hnew hv.counted
      rw [hserve]
      refine ⟨.entered _ db' hid ((h.entryOf_eq _).trans hfind) ?_ fun x => ?_, _, hshows⟩
      · intro x w hw
        exact h.tidy.not_new ((h.entryOf_eq x).symm.trans hw)
      · rw [hshows.entryOf_eq, h.entryOf_eq]
        exact Memory.findMistake_enter hnew x

instance : NotebookTable Database := ⟨fun n db => ∃ m, Shows m n db⟩

instance : LawfulNotebookTable Database where
  ready_of_succ := fun ⟨m, h⟩ => ⟨m, h.of_succ⟩
  ready_put := fun ⟨_, h⟩ hv => (h.puts hv).2
  expression := fun ⟨_, h⟩ hv =>
    LawfulNotebookTable.expression (n := 0) h.tidy (h.entryOf_eq _ ▸ hv)
  numbered := fun ⟨_, h⟩ hv => LawfulNotebookTable.numbered (n := 0) h.tidy (h.entryOf_eq _ ▸ hv)
  counted := fun ⟨_, h⟩ hv => LawfulNotebookTable.counted (n := 0) h.tidy (h.entryOf_eq _ ▸ hv)
  apart := fun ⟨_, h⟩ hv hw heq =>
    LawfulNotebookTable.apart (n := 0) h.tidy (h.entryOf_eq _ ▸ hv) (h.entryOf_eq _ ▸ hw) heq
  finds x := fun ⟨_, h⟩ => by
    rw [h.entryOf_eq]
    exact congrArg (·, _) (h.findMistake_eq x)
  gets id := fun ⟨_, h⟩ => h.gets id
  puts := fun ⟨_, h⟩ hv => (h.puts hv).1

end Database

end MentalMath
