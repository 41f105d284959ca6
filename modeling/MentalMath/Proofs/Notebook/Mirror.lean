import MentalMath.Proofs.Notebook.Entries
import MentalMath.Proofs.Storage.Relational.Reading
import MentalMath.Proofs.Time.Order

/-! A notebook in memory and one in tables, side by side. The tables hold the entries of the memory
under other numbers that come in the same order, and every operation keeps it so and returns the same
but for the numbers. -/

namespace MentalMath

open Column
open Memory (InPlace)

/-! ### Other numbers -/

variable {ρ : MistakeId → MistakeId}

def Mistake.rename (ρ : MistakeId → MistakeId) (v : Mistake) : Mistake :=
  { v with id := v.id.map ρ }

namespace Notebook

/-- The numbers that an operation names. -/
def Operation.numbers : Operation → List MistakeId
  | .get id | .retry id _ | .master id => [id]
  | _ => []

def Operation.rename (ρ : MistakeId → MistakeId) : Operation → Operation
  | .get id => .get (ρ id)
  | .retry id input => .retry (ρ id) input
  | .master id => .master (ρ id)
  | op => op

def Reply.rename (ρ : MistakeId → MistakeId) : Reply → Reply
  | .number id => .number (ρ id)
  | .mistakes ms => .mistakes (ms.map (Mistake.rename ρ))
  | .groups gs => .groups (gs.map fun g => ⟨g.category, g.mistakes.map (Mistake.rename ρ)⟩)
  | .mistake m => .mistake (m.rename ρ)
  | r => r

theorem group_rename (ms : List Mistake) : group (ms.map (Mistake.rename ρ)) =
    (group ms).map fun g => ⟨g.category, g.mistakes.map (Mistake.rename ρ)⟩ := by
  rw [group, group, List.map_filterMap]
  refine List.filterMap_congr fun c _ => ?_
  have hown : (ms.map (Mistake.rename ρ)).filter (fun m => m.category == c) =
      (ms.filter fun m => m.category == c).map (Mistake.rename ρ) := by
    rw [List.filter_map]
    rfl
  simp only [hown, List.isEmpty_map]
  split <;> rfl

theorem count_rename (ms : List Mistake) : count (ms.map (Mistake.rename ρ)) = count ms := by
  simp only [count, List.length_map, List.countP_map]
  rfl

end Notebook

/-! ### Rows -/

namespace MistakeRow

variable {v w : Mistake}

theorem update_ofMistake (i : Int) (hx : w.expression = v.expression) (hf : w.firstAt = v.firstAt) :
    (ofMistake i v).update w = ofMistake i w := by
  simp only [update, ofMistake, hx, hf]

theorem isAdmissible_ofMistake (i : Int) (hv : 1 ≤ v.count) :
    (ofMistake i v).isAdmissible = true := by
  have hcount : (1 : Int) ≤ v.count := by omega
  simp only [isAdmissible, ofMistake, ofBool_isBit, Bool.and_true, hcount, decide_true]

theorem isShown_ofMistake (i : Int) (f : MistakeFilter) : (ofMistake i v).isShown f = f.admits v := by
  have hbit : ∀ b c : Bool, (ofBool b == ofBool c) = (b == c) := by decide
  simp only [isShown, ofMistake, hbit, MistakeFilter.admits_eq_mark]

theorem read_ofMistake (i : MistakeId) (hv : v.count ≤ maxCount) :
    (ofMistake i.value v).read = .ok (v.withId i) := by
  have hid : toId "wrong_answer_id" (i.value : Int) = .ok i.value := if_pos (Int.natCast_nonneg _)
  simp only [read, ofMistake, hid, toCount_natCast _ hv, toCategory_slug, toInstant_storedText,
    toBool_ofBool, bind, Except.bind, pure, Except.pure]
  rfl

end MistakeRow

namespace Database

variable {db : Database} {v : Mistake} {r : MistakeRow}

theorem run_insertMistake (hv : 1 ≤ v.count)
    (hnew : ∀ r ∈ db.mistakes, r.expression ≠ v.expression) :
    (insertMistake v).run db = .ok (nextNumber (db.mistakes.map MistakeRow.id), { db with
      mistakes := db.mistakes ++ [.ofMistake (nextNumber (db.mistakes.map MistakeRow.id)) v] }) := by
  have hany : (db.mistakes.any fun old => old.expression == v.expression) = false := by
    simpa using hnew
  simp only [insertMistake, StateT.run_bind, StateT.run_get, pure_bind]
  rw [run_demand (MistakeRow.isAdmissible_ofMistake _ hv)]
  simp only [bind, Except.bind, MistakeRow.ofMistake, hany]
  rfl

theorem run_updateMistake {id : MistakeId} (hid : id.value ≤ Text.maxSigned64)
    (hr : db.mistakeRow? id.value = some r) (hv : (r.update v).isAdmissible = true) :
    (updateMistake id v).run db = .ok (id, { db with
      mistakes := db.mistakes.map fun old : MistakeRow =>
        if old.id == (id.value : Int) then r.update v else old }) := by
  rw [updateMistake, run_bind_of_ok (run_ofId _ hid)]
  simp only [StateT.run_bind, StateT.run_get, pure_bind, hr]
  rw [run_demand hv]
  rfl

end Database

/-! ### The tables as a mirror of the memory -/

/-- The row of an entry under another number. -/
def mirrorRow (ρ : MistakeId → MistakeId) (e : MistakeId × Mistake) : MistakeRow :=
  .ofMistake (ρ e.1).value e.2

namespace Database

variable {db : Database} {entries : List (MistakeId × Mistake)} {e : MistakeId × Mistake}

theorem findMistake_of_rows {g : Mistake → Mistake} {x : String}
    (hrows : db.mistakes = entries.map (mirrorRow ρ))
    (hread : ∀ e ∈ entries, (mirrorRow ρ e).read = .ok (g e.2)) :
    db.findMistake x =
      .ok (((entries.map Prod.snd).find? fun v => v.expression == x).map g) := by
  rw [findMistake, hrows, List.find?_map, List.find?_map]
  have hsame : (fun r : MistakeRow => r.expression == x) ∘ mirrorRow ρ =
      (fun v : Mistake => v.expression == x) ∘ Prod.snd := rfl
  rw [hsame]
  cases hfind : entries.find? ((fun v : Mistake => v.expression == x) ∘ Prod.snd) with
  | none => rfl
  | some e =>
    have hread := hread e (List.mem_of_find?_eq_some hfind)
    simp only [Option.map_some, Option.mapM_some, hread]
    rfl

theorem mistakeRow?_of_rows (hrows : db.mistakes = entries.map (mirrorRow ρ)) (he : e ∈ entries)
    (hinj : ∀ d ∈ entries, (ρ d.1).value = (ρ e.1).value → d = e) :
    db.mistakeRow? (ρ e.1).value = some (mirrorRow ρ e) := by
  rw [mistakeRow?, hrows, List.find?_map]
  cases hfind : entries.find? ((fun r : MistakeRow => r.id == (ρ e.1).value) ∘ mirrorRow ρ) with
  | none =>
    have hnone := List.find?_eq_none.mp hfind e he
    exact absurd (beq_iff_eq.mpr rfl) hnone
  | some d =>
    have hid : (mirrorRow ρ d).id = (ρ e.1).value := by simpa using List.find?_some hfind
    rw [hinj d (List.mem_of_find?_eq_some hfind) (Int.ofNat_inj.mp hid)]
    rfl

/-- An entry that is handed in for the row of one is written there, and nowhere else. -/
theorem serve_putMistake_of_rows (hrows : db.mistakes = entries.map (mirrorRow ρ))
    (he : e ∈ entries) (hinj : ∀ d ∈ entries, (ρ d.1).value = (ρ e.1).value → d = e)
    (hroom : (ρ e.1).value ≤ Text.maxSigned64) {v : Mistake} (hid : v.id = some (ρ e.1))
    (hx : v.expression = e.2.expression) (hf : v.firstAt = e.2.firstAt) (hv : 1 ≤ v.count)
    {g : Mistake → Mistake} (hself : mirrorRow ρ (e.1, g e.2) = mirrorRow ρ (e.1, v))
    (hother : ∀ d ∈ entries, d ≠ e → g d.2 = d.2) :
    Store.serve (.putMistake v) db =
      (.ok (ρ e.1), { db with mistakes := entries.map fun d => mirrorRow ρ (d.1, g d.2) }) := by
  have hrow : (mirrorRow ρ e).update v = mirrorRow ρ (e.1, v) := MistakeRow.update_ofMistake _ hx hf
  have hadmissible : (mirrorRow ρ (e.1, v)).isAdmissible = true :=
    MistakeRow.isAdmissible_ofMistake _ hv
  have hrun := run_updateMistake hroom (mistakeRow?_of_rows hrows he hinj) (hrow ▸ hadmissible)
  have hwritten : (db.mistakes.map fun old : MistakeRow => if old.id == ((ρ e.1).value : Int) then
        (mirrorRow ρ e).update v else old) = entries.map fun d => mirrorRow ρ (d.1, g d.2) := by
    rw [hrows, List.map_map]
    refine List.map_congr_left fun d hd => ?_
    by_cases hde : d = e
    · rw [hde, hself, ← hrow]
      exact if_pos (beq_self_eq_true _)
    · have hne : (mirrorRow ρ d).id ≠ (ρ e.1).value :=
        fun heq => hde (hinj d hd (Int.ofNat_inj.mp heq))
      rw [hother d hd hde]
      exact if_neg (by simpa using hne)
  rw [hwritten] at hrun
  show serve _ db = _
  simp only [serve, hid]
  exact commit_of_ok hrun

end Database

/-- The tables hold the entries of the memory under other numbers. -/
structure Mirrors (ρ : MistakeId → MistakeId) (m : Memory) (db : Database) : Prop where
  tidy : m.Tidy
  rows : db.mistakes = m.mistakes.map (mirrorRow ρ)
  order : ∀ d ∈ m.mistakes, ∀ e ∈ m.mistakes, d.1.value < e.1.value → (ρ d.1).value < (ρ e.1).value
  few : ∀ e ∈ m.mistakes, (ρ e.1).value ≤ Text.maxSigned64
  plain : ∀ e ∈ m.mistakes, e.2.lastAt.HasPlainYear

namespace Mirrors

variable {m : Memory} {db : Database} {d e : MistakeId × Mistake} {x : String} {f : MistakeFilter}

theorem le_iff (h : Mirrors ρ m db) (hd : d ∈ m.mistakes) (he : e ∈ m.mistakes) :
    (ρ d.1).value ≤ (ρ e.1).value ↔ d.1.value ≤ e.1.value := by
  have hde := h.order d hd e he
  have hed := h.order e he d hd
  rcases Nat.lt_trichotomy d.1.value e.1.value with hlt | heq | hgt
  · have := hde hlt
    omega
  · have hid : d.1 = e.1 := congrArg MistakeId.mk heq
    rw [hid]
    simp
  · have := hed hgt
    omega

theorem eq_of_number (h : Mirrors ρ m db) (hd : d ∈ m.mistakes) (he : e ∈ m.mistakes)
    (heq : (ρ d.1).value = (ρ e.1).value) : d = e := by
  have hde := (h.le_iff hd he).mp (Nat.le_of_eq heq)
  have hed := (h.le_iff he hd).mp (Nat.le_of_eq heq.symm)
  exact List.inj_on_of_nodup_map h.tidy.nodup hd he (congrArg MistakeId.mk (Nat.le_antisymm hde hed))

theorem read_row (h : Mirrors ρ m db) (he : e ∈ m.mistakes) :
    (mirrorRow ρ e).read = .ok (e.2.rename ρ) := by
  rw [mirrorRow, MistakeRow.read_ofMistake _ (h.tidy.counted e he).2, Mistake.rename,
    h.tidy.named e he]
  rfl

/-! ### Requests -/

theorem findMistake_eq (h : Mirrors ρ m db) (x : String) :
    db.findMistake x = .ok ((m.findMistake x).map (Mistake.rename ρ)) :=
  Database.findMistake_of_rows h.rows fun _ he => h.read_row he

theorem mistakeRow?_eq (h : Mirrors ρ m db) (he : e ∈ m.mistakes) :
    db.mistakeRow? (ρ e.1).value = some (mirrorRow ρ e) :=
  Database.mistakeRow?_of_rows h.rows he fun _ hd heq => h.eq_of_number hd he heq

theorem serve_getMistake (h : Mirrors ρ m db) (he : e ∈ m.mistakes) :
    Store.serve (.getMistake (ρ e.1)) db = (.ok (e.2.rename ρ), db) := by
  show (db.getMistake (ρ e.1), db) = _
  simp only [Database.getMistake, ofId_eq_ok (h.few e he), bind, Except.bind, h.mistakeRow?_eq he,
    h.read_row he]

theorem newestFirst_eq (h : Mirrors ρ m db) (hd : d ∈ m.mistakes) (he : e ∈ m.mistakes) :
    (mirrorRow ρ d).newestFirst (mirrorRow ρ e) = d.2.newestFirst e.2 := by
  have hlt : (mirrorRow ρ e).lastAt < (mirrorRow ρ d).lastAt ↔ e.2.lastAt < d.2.lastAt :=
    Instant.storedText_lt_iff (h.plain e he) (h.plain d hd)
  have heq : (mirrorRow ρ d).lastAt = (mirrorRow ρ e).lastAt ↔ d.2.lastAt = e.2.lastAt :=
    Instant.storedText_inj
  have hle : (mirrorRow ρ e).id ≤ (mirrorRow ρ d).id ↔ e.1.value ≤ d.1.value :=
    Int.ofNat_le.trans (h.le_iff he hd)
  rw [Bool.eq_iff_iff]
  simp only [MistakeRow.newestFirst, Mistake.newestFirst, Bool.or_eq_true, Bool.and_eq_true,
    decide_eq_true_eq, beq_iff_eq, hlt, heq, hle, h.tidy.named d hd, h.tidy.named e he,
    Option.map_some, Option.getD_some]

theorem mapM_read (h : Mirrors ρ m db) {es : List (MistakeId × Mistake)}
    (hes : ∀ e ∈ es, e ∈ m.mistakes) : (es.map (mirrorRow ρ)).mapM MistakeRow.read =
      .ok ((es.map Prod.snd).map (Mistake.rename ρ)) := by
  induction es with
  | nil => rfl
  | cons e es ih =>
    simp only [List.map_cons, List.mapM_cons, h.read_row (hes e List.mem_cons_self),
      ih fun d hd => hes d (List.mem_cons_of_mem _ hd)]
    rfl

theorem filter_rows (h : Mirrors ρ m db) (f : MistakeFilter) :
    db.mistakes.filter (MistakeRow.isShown f) =
      (m.mistakes.filter fun e => f.admits e.2).map (mirrorRow ρ) := by
  rw [h.rows, List.filter_map]
  exact congrArg _ (List.filter_congr fun e _ => MistakeRow.isShown_ofMistake _ f)

theorem listMistakes_eq (h : Mirrors ρ m db) (f : MistakeFilter) :
    db.listMistakes f = .ok ((m.listMistakes f).map (Mistake.rename ρ)) := by
  let shown := m.mistakes.filter fun e => f.admits e.2
  let sorted := shown.mergeSort fun d e => d.2.newestFirst e.2
  have hmem : ∀ e ∈ shown, e ∈ m.mistakes := fun e he => (List.mem_filter.mp he).1
  have hrows : (shown.map (mirrorRow ρ)).mergeSort MistakeRow.newestFirst =
      sorted.map (mirrorRow ρ) :=
    (List.map_mergeSort fun d hd e he => (h.newestFirst_eq (hmem d hd) (hmem e he)).symm).symm
  have hentries : m.listMistakes f = sorted.map Prod.snd := by
    rw [Memory.listMistakes, List.filter_map]
    exact (List.map_mergeSort (f := Prod.snd) (l := shown) fun _ _ _ _ => rfl).symm
  rw [Database.listMistakes, h.filter_rows, hrows, hentries]
  exact h.mapM_read fun e he => hmem e ((List.mergeSort_perm _ _).mem_iff.mp he)

theorem serve_listMistakes (h : Mirrors ρ m db) (f : MistakeFilter) :
    Store.serve (.listMistakes f) db = (.ok ((m.listMistakes f).map (Mistake.rename ρ)), db) :=
  congrArg (·, db) (h.listMistakes_eq f)

/-- Entries that are changed where they are. -/
theorem revise (h : Mirrors ρ m db) {g : Mistake → Mistake} (hg : InPlace g)
    (hlast : ∀ e ∈ m.mistakes, (g e.2).lastAt.HasPlainYear) :
    Mirrors ρ (m.revise g)
      { db with mistakes := m.mistakes.map fun e => mirrorRow ρ (e.1, g e.2) } := by
  refine ⟨h.tidy.revise hg, ?_, ?_, ?_, ?_⟩
  · rw [Memory.revise, List.map_map]
    rfl
  · exact Memory.forall_mem_revise fun d hd => Memory.forall_mem_revise fun e he => h.order d hd e he
  · exact Memory.forall_mem_revise h.few
  · exact Memory.forall_mem_revise hlast

/-- An entry that is stored again is changed where it is. -/
theorem serve_putMistake (h : Mirrors ρ m db) (he : e ∈ m.mistakes) {g : Mistake → Mistake}
    (hg : InPlace g) (hfirst : ∀ v, (g v).firstAt = v.firstAt) (hlast : (g e.2).lastAt.HasPlainYear)
    (p : Mistake → Bool) (hp : p e.2 = true)
    (hother : ∀ d ∈ m.mistakes, p d.2 = true → d = e) :
    ∃ db', Store.serve (.putMistake ((g e.2).rename ρ)) db = (.ok (ρ e.1), db') ∧
      Mirrors ρ (m.revise fun v => if p v = true then g v else v) db' := by
  have hid : ((g e.2).rename ρ).id = some (ρ e.1) := by
    rw [Mistake.rename, hg.id, h.tidy.named e he]
    rfl
  have hself : mirrorRow ρ (e.1, if p e.2 = true then g e.2 else e.2) = mirrorRow ρ (e.1, g e.2) := by
    rw [if_pos hp]
  have hput := Database.serve_putMistake_of_rows h.rows he
    (fun d hd heq => h.eq_of_number hd he heq) (h.few e he) hid (hg.expression e.2) (hfirst e.2)
    (hg.count e.2 (h.tidy.counted e he)).1 (g := fun v => if p v = true then g v else v) hself
    fun d hd hde => if_neg fun hpd => hde (hother d hd hpd)
  refine ⟨_, hput, h.revise (hg.when p) fun d hd => ?_⟩
  by_cases hpd : p d.2 = true
  · rw [if_pos hpd, hother d hd hpd]
    exact hlast
  · rw [if_neg hpd]
    exact h.plain d hd

theorem expression_ne (h : Mirrors ρ m db) (hx : ∀ e ∈ m.mistakes, e.2.expression ≠ x) :
    ∀ r ∈ db.mistakes, r.expression ≠ x := by
  intro r hr
  rw [h.rows] at hr
  obtain ⟨e, he, rfl⟩ := List.mem_map.mp hr
  exact hx e he

theorem lt_nextNumber (h : Mirrors ρ m db) (he : e ∈ m.mistakes) :
    ((ρ e.1).value : Int) < Database.nextNumber (db.mistakes.map MistakeRow.id) := by
  apply Database.lt_nextNumber
  rw [h.rows, List.map_map]
  exact List.mem_map_of_mem (f := MistakeRow.id ∘ mirrorRow ρ) he

theorem nextNumber_nonneg (h : Mirrors ρ m db) :
    0 ≤ Database.nextNumber (db.mistakes.map MistakeRow.id) := by
  cases hrows : m.mistakes with
  | nil =>
    rw [h.rows, hrows]
    exact Int.zero_le_ofNat 1
  | cons e es =>
    have hlt := h.lt_nextNumber (hrows ▸ List.mem_cons_self : e ∈ m.mistakes)
    omega

/-- A new entry under a number after all others. -/
theorem enter (h : Mirrors ρ m db) {v : Mistake} {ρ' : MistakeId → MistakeId} {n : Nat}
    (hold : ∀ e ∈ m.mistakes, ρ' e.1 = ρ e.1) (hself : ρ' ⟨m.lastNumber + 1⟩ = ⟨n⟩)
    (hlt : ∀ e ∈ m.mistakes, (ρ e.1).value < n) (hroom : n ≤ Text.maxSigned64)
    (hnew : ∀ e ∈ m.mistakes, e.2.expression ≠ v.expression)
    (hv : 1 ≤ v.count ∧ v.count ≤ maxCount) (hlast : v.lastAt.HasPlainYear) :
    Mirrors ρ' (m.enter v) { db with mistakes := db.mistakes ++ [.ofMistake n v] } := by
  refine ⟨h.tidy.enter hnew hv, ?_, ?_, ?_, ?_⟩
  · rw [Memory.enter, List.map_append, h.rows, List.map_singleton, mirrorRow, hself]
    refine congrArg (· ++ _) (List.map_congr_left fun e he => ?_)
    rw [mirrorRow, mirrorRow, hold e he]
  · apply Memory.forall_mem_enter
    · intro d hd
      apply Memory.forall_mem_enter
      · intro e he
        rw [hold d hd, hold e he]
        exact h.order d hd e he
      · rw [hold d hd, hself]
        exact fun _ => hlt d hd
    · -- no entry comes after the new one
      apply Memory.forall_mem_enter
      · exact fun e he hde => absurd (h.tidy.given e he) (Nat.not_le_of_lt (Nat.lt_of_succ_lt hde))
      · exact fun hde => absurd hde (Nat.lt_irrefl _)
  · apply Memory.forall_mem_enter
    · intro e he
      rw [hold e he]
      exact h.few e he
    · rw [hself]
      exact hroom
  · exact Memory.forall_mem_enter h.plain hlast

theorem serve_putMistake_new (h : Mirrors ρ m db) {v : Mistake} (hid : v.id = none)
    (hnew : ∀ e ∈ m.mistakes, e.2.expression ≠ v.expression)
    (hv : 1 ≤ v.count ∧ v.count ≤ maxCount) (hlast : v.lastAt.HasPlainYear)
    (hroom : Database.nextNumber (db.mistakes.map MistakeRow.id) ≤ Text.maxSigned64) :
    ∃ ρ' db', Store.serve (.putMistake v) db = (.ok (ρ' ⟨m.lastNumber + 1⟩), db') ∧
      (∀ e ∈ m.mistakes, ρ' e.1 = ρ e.1) ∧ Mirrors ρ' (m.enter v) db' := by
  have hrun := Database.run_insertMistake hv.1 (h.expression_ne hnew)
  have hnonneg := h.nextNumber_nonneg
  have hlt : ∀ e ∈ m.mistakes, _ := fun e he => h.lt_nextNumber he
  generalize Database.nextNumber (db.mistakes.map MistakeRow.id) = next at hrun hnonneg hlt hroom
  obtain ⟨n, rfl⟩ : ∃ n : Nat, next = n := ⟨next.toNat, by omega⟩
  have hself : Function.update ρ ⟨m.lastNumber + 1⟩ ⟨n⟩ ⟨m.lastNumber + 1⟩ = (⟨n⟩ : MistakeId) :=
    Function.update_self _ _ _
  have hold : ∀ e ∈ m.mistakes, Function.update ρ ⟨m.lastNumber + 1⟩ ⟨n⟩ e.1 = ρ e.1 := by
    intro e he
    refine Function.update_of_ne (fun heq => ?_) _ _
    have hgiven := h.tidy.given e he
    rw [heq] at hgiven
    exact Nat.not_succ_le_self _ hgiven
  refine ⟨_, _, ?_, hold, h.enter hold hself (fun e he => Int.ofNat_lt.mp (hlt e he))
    (Int.ofNat_le.mp hroom) hnew hv hlast⟩
  show Database.serve _ db = _
  simp only [Database.serve, hid]
  rw [Database.commit_of_ok hrun, hself]
  rfl

theorem serve_deleteMistakes (h : Mirrors ρ m db) (f : MistakeFilter) :
    ∃ db', Store.serve (.deleteMistakes f) db = ((Store.serve (.deleteMistakes f) m).1, db') ∧
      Mirrors ρ (m.sweep f) db' := by
  have hkept : (db.mistakes.filter fun r => !r.isShown f) =
      (m.sweep f).mistakes.map (mirrorRow ρ) := by
    rw [h.rows, List.filter_map]
    exact congrArg _ (List.filter_congr fun e _ =>
      congrArg not (MistakeRow.isShown_ofMistake _ f))
  have hmem : ∀ e ∈ (m.sweep f).mistakes, e ∈ m.mistakes := fun e he => (List.mem_filter.mp he).1
  refine ⟨{ db with mistakes := db.mistakes.filter fun r => !r.isShown f }, ?_, ?_⟩
  · have hcount : db.mistakes.length - (db.mistakes.filter fun r => !r.isShown f).length =
        m.mistakes.length - (m.sweep f).mistakes.length := by
      rw [hkept, h.rows, List.length_map, List.length_map]
    exact congrArg (fun n => (Except.ok n, _)) hcount
  · exact ⟨h.tidy.sweep f, hkept, fun d hd e he => h.order d (hmem d hd) e (hmem e he),
      fun e he => h.few e (hmem e he), fun e he => h.plain e (hmem e he)⟩

end Mirrors

end MentalMath
