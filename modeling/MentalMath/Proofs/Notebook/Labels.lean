import Mathlib.Data.List.Induction
import MentalMath.Proofs.Notebook.Entries
import MentalMath.Proofs.Storage.Relational.Requests

/-! What the entries of a notebook are known by: their numbers, their expressions and the times of their
first misses. Tables never change these while a number is in use and never take an expression twice. A
store that holds its values as they are takes an entry as it is handed in under a number, so the same
is true of it exactly as long as no entry is handed in under the number of another one. -/

namespace MentalMath

namespace Notebook

/-- What an entry is known by. -/
structure Label (ν τ : Type) where
  number : ν
  expression : String
  firstAt : τ
  deriving DecidableEq, Repr

variable {σ ν τ : Type} {labels labels' : List (Label ν τ)} {l : Label ν τ}

/-- No two entries have the same number or the same expression. -/
structure Apart (labels : List (Label ν τ)) : Prop where
  numbers : (labels.map Label.number).Nodup
  expressions : (labels.map Label.expression).Nodup

/-- A change that leaves each label as it is: a new one is added, or some are taken out. -/
inductive Retains (labels : List (Label ν τ)) : List (Label ν τ) → Prop
  | entered (l : Label ν τ) (hn : l.number ∉ labels.map Label.number)
    (hx : l.expression ∉ labels.map Label.expression) : Retains labels (labels ++ [l])
  | kept {labels' : List (Label ν τ)} (h : labels'.Sublist labels) : Retains labels labels'

theorem apart_nil : Apart ([] : List (Label ν τ)) :=
  ⟨List.nodup_nil, List.nodup_nil⟩

theorem nodup_map_concat {α β : Type} {f : α → β} {as : List α} {a : α} (h : (as.map f).Nodup)
    (hnew : f a ∉ as.map f) : ((as ++ [a]).map f).Nodup := by
  rw [List.map_append, List.map_singleton]
  exact List.nodup_append'.mpr ⟨h, List.nodup_singleton _, List.disjoint_singleton.mpr hnew⟩

theorem Retains.apart (hk : Retains labels labels') (h : Apart labels) : Apart labels' := by
  cases hk with
  | entered l hn hx => exact ⟨nodup_map_concat h.numbers hn, nodup_map_concat h.expressions hx⟩
  | kept hsub => exact ⟨h.numbers.sublist (hsub.map _), h.expressions.sublist (hsub.map _)⟩

/-- An entry whose number is still in use is the same as before. -/
theorem Retains.mem (hk : Retains labels labels') (h : Apart labels) (hl : l ∈ labels)
    (hn : l.number ∈ labels'.map Label.number) : l ∈ labels' := by
  cases hk with
  | entered => exact List.mem_append_left _ hl
  | kept hsub =>
    obtain ⟨l', hl', heq⟩ := List.mem_map.mp hn
    rwa [← List.inj_on_of_nodup_map h.numbers (hsub.subset hl') hl heq]

/-! ### Requests one after the other -/

variable [Store σ] {view : σ → List (Label ν τ)} {rs : List Request} {s : σ}

/-- However far the requests have come, no two entries have the same number or the same expression, and
an entry whose number has been in use all along since is still the same. -/
structure Lasting (view : σ → List (Label ν τ)) (rs : List Request) (s : σ) : Prop where
  apart : ∀ before, before <+: rs → Apart (view (Store.after before s))
  lasting : ∀ before between, before ++ between <+: rs → ∀ l ∈ view (Store.after before s),
    (∀ part, part <+: between →
      l.number ∈ (view (Store.after (before ++ part) s)).map Label.number) →
    l ∈ view (Store.after (before ++ between) s)

theorem lasting_of_retains (h : Apart (view s)) (hstep : ∀ before r, before ++ [r] <+: rs →
      Apart (view (Store.after before s)) →
      Retains (view (Store.after before s)) (view (Store.serve r (Store.after before s)).2)) :
    Lasting view rs s := by
  have hapart : ∀ before, before <+: rs → Apart (view (Store.after before s)) := by
    intro before
    induction before using List.reverseRecOn with
    | nil => exact fun _ => h
    | append_singleton before r ih =>
      intro hbefore
      have hso := ih ((List.prefix_append before [r]).trans hbefore)
      rw [Store.after_concat]
      exact (hstep before r hbefore hso).apart hso
  refine ⟨hapart, fun before between => ?_⟩
  induction between using List.reverseRecOn with
  | nil =>
    intro _ l hl _
    rwa [List.append_nil]
  | append_singleton between r ih =>
    intro hbetween l hl hused
    rw [← List.append_assoc] at hbetween ⊢
    have hso := (List.prefix_append _ [r]).trans hbetween
    have hmem := ih hso l hl fun part hpart => hused part (hpart.trans (List.prefix_append _ _))
    have hn := hused (between ++ [r]) (List.prefix_refl _)
    rw [← List.append_assoc, Store.after_concat] at hn
    rw [Store.after_concat]
    exact (hstep _ r hbetween (hapart _ hso)).mem (hapart _ hso) hmem hn

end Notebook

open Notebook (Label Apart Retains Lasting)

/-! ### Tables -/

namespace Database

variable {db db' : Database}

/-- What the entries of the tables are known by. -/
def labels (db : Database) : List (Label Int String) :=
  db.mistakes.map fun r => ⟨r.id, r.expression, r.firstAt⟩

theorem map_number_labels : db.labels.map Label.number = db.mistakes.map MistakeRow.id := by
  rw [labels, List.map_map]
  rfl

theorem map_expression_labels :
    db.labels.map Label.expression = db.mistakes.map MistakeRow.expression := by
  rw [labels, List.map_map]
  rfl

theorem retains_of_sublist (h : db'.mistakes.Sublist db.mistakes) : Retains db.labels db'.labels :=
  .kept (h.map _)

theorem retains_of_labels_eq (h : db'.labels = db.labels) : Retains db.labels db'.labels :=
  h ▸ .kept (List.Sublist.refl _)

theorem retains_insertMistake {v : Mistake} {id : Int}
    (hrun : (insertMistake v).run db = .ok (id, db')) : Retains db.labels db'.labels := by
  rw [insertMistake, run_get_bind] at hrun
  obtain ⟨_, _, hdemand, hrest⟩ := run_bind_eq_ok_iff.mp hrun
  rw [(run_demand_eq_ok_iff.mp hdemand).2] at hrest
  split at hrest
  case isTrue => cases hrest
  case isFalse hnew =>
    cases hrest
    simp only [labels, List.map_append, List.map_singleton]
    refine .entered _ ?_ ?_
    · intro hmem
      rw [← labels, map_number_labels] at hmem
      exact Int.lt_irrefl _ (lt_nextNumber hmem)
    · rw [← labels, map_expression_labels]
      simpa using hnew

/-- A row is written over under its number, with its expression and its first miss. -/
theorem retains_updateMistake (h : Apart db.labels) {v : Mistake} {id i : MistakeId}
    (hrun : (updateMistake id v).run db = .ok (i, db')) : Retains db.labels db'.labels := by
  obtain ⟨key, _, hkey, hrest⟩ := run_bind_eq_ok_iff.mp hrun
  rw [run_lift_eq_ok hkey, run_get_bind] at hrest
  split at hrest
  case h_1 => cases hrest
  case h_2 r hr =>
    obtain ⟨_, _, hdemand, hset⟩ := run_bind_eq_ok_iff.mp hrest
    rw [(run_demand_eq_ok_iff.mp hdemand).2] at hset
    cases hset
    have hids : (db.mistakes.map MistakeRow.id).Nodup := map_number_labels ▸ h.numbers
    have hkey : r.id = key := eq_of_beq (List.find?_some (p := fun r : MistakeRow => r.id == key) hr)
    refine retains_of_labels_eq ?_
    rw [labels, labels, List.map_map]
    refine List.map_congr_left fun old hold => ?_
    rw [Function.comp_apply]
    split
    case isTrue heq =>
      have hid : old.id = r.id := (eq_of_beq heq).trans hkey.symm
      rw [List.inj_on_of_nodup_map hids hold (List.mem_of_find?_eq_some hr) hid]
      rfl
    case isFalse => rfl

theorem retains_deleteMistake {id : MistakeId} {u : Unit}
    (hrun : (deleteMistake id).run db = .ok (u, db')) : Retains db.labels db'.labels := by
  obtain ⟨key, _, hkey, hrest⟩ := run_bind_eq_ok_iff.mp hrun
  rw [run_lift_eq_ok hkey, run_get_bind] at hrest
  split at hrest
  · cases hrest
  · cases hrest
    exact retains_of_sublist List.filter_sublist

theorem retains_deleteMistakes {f : MistakeFilter} {n : Nat}
    (hrun : (deleteMistakes f).run db = .ok (n, db')) : Retains db.labels db'.labels := by
  cases hrun
  exact retains_of_sublist List.filter_sublist

section Others

variable {rows : List MistakeRow}

def HasMistakes (rows : List MistakeRow) (db : Database) : Prop :=
  db.mistakes = rows

theorem hasMistakes_insertSessionRow (r : SessionRow) :
    Preserves (HasMistakes rows) (insertSessionRow r) :=
  preserves_bind (preserves_demand _) fun _ => preserves_modify fun _ h => h

theorem hasMistakes_updateSessionRow (r : SessionRow) :
    Preserves (HasMistakes rows) (updateSessionRow r) := by
  have hwrite : Preserves (HasMistakes rows) (do
      demand r.isAdmissible
      modify fun db =>
        { db with sessions := db.sessions.map fun old => if old.id == r.id then r else old }) :=
    preserves_bind (preserves_demand _) fun _ => preserves_modify fun _ h => h
  refine preserves_get_bind fun db _ => ?_
  split
  · exact preserves_bind (preserves_throw _) fun _ => hwrite
  · exact hwrite

theorem hasMistakes_insertAnswer (key position : Int) (a : Answer) :
    Preserves (HasMistakes rows) (insertAnswer key position a) :=
  preserves_get_bind fun _ _ => preserves_get_bind fun _ h =>
    preserves_bind (preserves_demand _) fun _ => preserves_set h

theorem hasMistakes_insertAnswers (key position : Int) (as : List Answer) :
    Preserves (HasMistakes rows) (insertAnswers key position as) := by
  induction as generalizing position with
  | nil => exact preserves_pure ()
  | cons a as ih => exact preserves_bind (hasMistakes_insertAnswer _ _ a) fun _ => ih _

theorem hasMistakes_countAnswer (key : Int) (a : Answer) :
    Preserves (HasMistakes rows) (countAnswer key a) := by
  refine preserves_get_bind fun db _ => ?_
  split
  · exact preserves_throw _
  · exact hasMistakes_updateSessionRow _

theorem hasMistakes_insertSession (s : Session) :
    Preserves (HasMistakes rows) (insertSession s) := by
  refine preserves_get_bind fun db _ => ?_
  have hwrite (id : Int) : Preserves (HasMistakes rows) (do
      insertSessionRow (.ofSession id s)
      insertAnswers id 0 s.answers
      return id) :=
    preserves_bind (hasMistakes_insertSessionRow _) fun _ =>
      preserves_bind (hasMistakes_insertAnswers _ _ _) fun _ => preserves_pure id
  dsimp only
  split
  · exact preserves_bind (preserves_throw _) fun _ => hwrite _
  · exact hwrite _

theorem hasMistakes_saveSession (s : Session) : Preserves (HasMistakes rows) (saveSession s) := by
  unfold saveSession
  split
  · exact preserves_throw _
  · refine preserves_bind (preserves_lift _) fun key => ?_
    refine preserves_bind (hasMistakes_updateSessionRow _) fun _ => ?_
    exact preserves_bind (preserves_modify fun _ h => h) fun _ => hasMistakes_insertAnswers _ _ _

theorem hasMistakes_appendAnswer (id : SessionId) (a : Answer) :
    Preserves (HasMistakes rows) (appendAnswer id a) := by
  refine preserves_bind (preserves_lift _) fun key => ?_
  refine preserves_bind (hasMistakes_countAnswer _ _) fun _ => preserves_get_bind fun db _ => ?_
  dsimp only
  split
  · exact preserves_bind (preserves_throw _) fun _ => hasMistakes_insertAnswer _ _ _
  · exact hasMistakes_insertAnswer _ _ _

theorem hasMistakes_deleteSessions : Preserves (HasMistakes rows) deleteSessions :=
  preserves_get_bind fun _ h => preserves_bind (preserves_set h) fun _ => preserves_pure _

theorem hasMistakes_savePreferences (p : Preferences) :
    Preserves (HasMistakes rows) (savePreferences p) :=
  preserves_get_bind fun _ _ =>
    preserves_bind (preserves_demand _) fun _ => preserves_modify fun _ h => h

end Others

theorem retains_of_hasMistakes {α : Type} {t : Transaction α}
    (h : Preserves (HasMistakes db.mistakes) t) : Retains db.labels (commit t db).2.labels := by
  have hsame : (commit t db).2.mistakes = db.mistakes := h.commit rfl
  exact retains_of_sublist (hsame ▸ List.Sublist.refl _)

/-- A request leaves the labels as they are, but for those that it adds or takes out. -/
theorem retains_serve (h : Apart db.labels) (r : Request) :
    Retains db.labels (Store.serve r db).2.labels := by
  have hself : Retains db.labels db.labels := .kept (List.Sublist.refl _)
  show Retains db.labels (serve r db).2.labels
  cases r with
  | insertSession s => exact retains_of_hasMistakes (hasMistakes_insertSession s)
  | saveSession s => exact retains_of_hasMistakes (hasMistakes_saveSession s)
  | appendAnswer id a => exact retains_of_hasMistakes (hasMistakes_appendAnswer id a)
  | deleteSessions => exact retains_of_hasMistakes hasMistakes_deleteSessions
  | savePreferences p => exact retains_of_hasMistakes (hasMistakes_savePreferences p)
  | putMistake v =>
    simp only [serve]
    split
    · exact commit_induction hself fun _ _ => retains_updateMistake h
    · exact commit_induction (P := fun db' => Retains db.labels db'.labels) hself fun _ _ =>
        retains_insertMistake
  | deleteMistake id => exact commit_induction hself fun _ _ => retains_deleteMistake
  | deleteMistakes f => exact commit_induction hself fun _ _ => retains_deleteMistakes
  | getSession | listSessions | findMistake | getMistake | listMistakes | getPreferences
  | clearPreferences => exact hself

end Database

/-! ### Values as they are -/

namespace Memory

variable {m m' : Memory}

/-- What the entries of the store are known by. -/
def labels (m : Memory) : List (Label MistakeId Instant) :=
  m.mistakes.map fun e => ⟨e.1, e.2.expression, e.2.firstAt⟩

/-- Whether a request hands an entry in under the number of one with another expression or another first
miss. -/
def Mislabels (m : Memory) : Request → Prop
  | .putMistake v => ∃ id old, v.id = some id ∧ lookup? id m.mistakes = some old ∧
      (v.expression ≠ old.expression ∨ v.firstAt ≠ old.firstAt)
  | _ => False

theorem map_number_labels : m.labels.map Label.number = m.mistakes.map Prod.fst := by
  rw [labels, List.map_map]
  rfl

/-- What a request does to the entries. -/
inductive Files (m : Memory) : Request → Memory → Prop
  | entered (v : Mistake) (hid : v.id = none)
      (hnew : ∀ e ∈ m.mistakes, e.2.expression ≠ v.expression) :
    Files m (.putMistake v) (m.enter v)
  | replaced (v : Mistake) {id : MistakeId} {old : Mistake} (hid : v.id = some id)
      (hold : lookup? id m.mistakes = some old) :
    Files m (.putMistake v) { m with mistakes := replace id v m.mistakes }
  | kept (r : Request) (m' : Memory) (hm : ¬m.Mislabels r) (hsub : m'.mistakes.Sublist m.mistakes)
      (hl : m.lastNumber ≤ m'.lastNumber) : Files m r m'

theorem files_putMistake (m : Memory) (v : Mistake) :
    m.Files (.putMistake v) (m.putMistake v).2 := by
  unfold putMistake
  split
  case h_1 id hid =>
    split
    case h_1 hold =>
      refine .kept _ m ?_ (List.Sublist.refl _) (Nat.le_refl _)
      rintro ⟨l, old, hl, hlookup, -⟩
      rw [hid] at hl
      cases hl
      rw [hold] at hlookup
      cases hlookup
    case h_2 old hold => exact .replaced v hid hold
  case h_2 hid =>
    split
    case isTrue =>
      refine .kept _ m ?_ (List.Sublist.refl _) (Nat.le_refl _)
      rintro ⟨l, old, hl, -⟩
      rw [hid] at hl
      cases hl
    case isFalse hnew => exact .entered v hid (by simpa using hnew)

theorem files_serve (m : Memory) (r : Request) : m.Files r (Store.serve r m).2 := by
  have hl : m.lastNumber ≤ (Store.serve r m).2.lastNumber := (writes_serve m r).lastNumber_le
  cases r with
  | putMistake v => exact files_putMistake m v
  | deleteMistake id =>
    refine .kept _ _ (fun h => h) ?_ hl
    show (m.deleteMistake id).2.mistakes.Sublist m.mistakes
    unfold deleteMistake
    split
    · exact List.Sublist.refl _
    · exact List.filter_sublist
  | deleteMistakes f => exact .kept _ _ (fun h => h) List.filter_sublist hl
  | saveSession s =>
    refine .kept _ _ (fun h => h) ?_ hl
    show (m.saveSession s).2.mistakes.Sublist m.mistakes
    unfold saveSession
    split
    · exact List.Sublist.refl _
    · split <;> exact List.Sublist.refl _
  | appendAnswer id a =>
    refine .kept _ _ (fun h => h) ?_ hl
    show (m.appendAnswer id a).2.mistakes.Sublist m.mistakes
    unfold appendAnswer
    split
    · exact List.Sublist.refl _
    · split <;> exact List.Sublist.refl _
  | getSession id =>
    refine .kept _ _ (fun h => h) ?_ hl
    show (m.getSession id).2.mistakes.Sublist m.mistakes
    unfold getSession
    split <;> exact List.Sublist.refl _
  | getMistake id =>
    rw [serve_getMistake] at hl ⊢
    exact .kept _ _ (fun h => h) (List.Sublist.refl _) hl
  | insertSession | deleteSessions | listSessions | findMistake | listMistakes | getPreferences
  | savePreferences | clearPreferences => exact .kept _ _ (fun h => h) (List.Sublist.refl _) hl

/-- All numbers of entries were given out. -/
def Given (m : Memory) : Prop :=
  ∀ id ∈ m.mistakes.map Prod.fst, id.value ≤ m.lastNumber

theorem Files.given {r : Request} (hf : m.Files r m') (h : m.Given) : m'.Given := by
  cases hf with
  | entered v =>
    intro id hid
    rw [enter, List.map_append, List.map_singleton] at hid
    cases List.mem_append.mp hid with
    | inl hid => exact Nat.le_succ_of_le (h id hid)
    | inr hid =>
      rw [List.mem_singleton.mp hid]
      exact Nat.le_refl _
  | replaced v hid hold =>
    rw [Given, map_fst_replace]
    exact h
  | kept _ _ _ hsub hl =>
    exact fun id hid => Nat.le_trans (h id ((hsub.map Prod.fst).subset hid)) hl

theorem given_after (rs : List Request) : (Store.after rs empty).Given :=
  Store.after_keeps (fun r _ m h => (files_serve m r).given h) fun _ h => nomatch h

theorem labels_replace (h : Apart m.labels) {id : MistakeId} {v old : Mistake}
    (hold : lookup? id m.mistakes = some old) (hx : v.expression = old.expression)
    (hf : v.firstAt = old.firstAt) :
    ({ m with mistakes := replace id v m.mistakes } : Memory).labels = m.labels := by
  have hnodup : (m.mistakes.map Prod.fst).Nodup := map_number_labels ▸ h.numbers
  rw [labels, labels, replace, List.map_map]
  refine List.map_congr_left fun e he => ?_
  rw [Function.comp_apply]
  split
  case isTrue hid =>
    obtain rfl : e.1 = id := eq_of_beq hid
    have hfound : some e.2 = some old := (lookup?_eq_some_of_mem hnodup he).symm.trans hold
    rw [hx, hf, ← Option.some.inj hfound]
  case isFalse => rfl

theorem Files.retains {r : Request} (hf : m.Files r m') (h : Apart m.labels) (hg : m.Given)
    (hm : ¬m.Mislabels r) : Retains m.labels m'.labels := by
  cases hf with
  | entered v hid hnew =>
    rw [labels, labels, enter, List.map_append, List.map_singleton]
    refine .entered _ ?_ ?_
    · intro hmem
      rw [← labels, map_number_labels] at hmem
      exact Nat.not_succ_le_self _ (hg _ hmem)
    · rw [List.map_map]
      intro hmem
      obtain ⟨e, he, hx⟩ := List.mem_map.mp hmem
      exact hnew e he hx
  | @replaced v id old hid hold =>
    have hx : v.expression = old.expression := by
      by_contra hx
      exact hm ⟨id, old, hid, hold, Or.inl hx⟩
    have hfirst : v.firstAt = old.firstAt := by
      by_contra hfirst
      exact hm ⟨id, old, hid, hold, Or.inr hfirst⟩
    rw [labels_replace h hold hx hfirst]
    exact .kept (List.Sublist.refl _)
  | kept _ _ _ hsub => exact .kept (hsub.map _)

/-- After an entry was handed in under the number of another one, that number stays in use and the old
label is gone. -/
theorem Mislabels.lost {r : Request} (hm : m.Mislabels r)
    (h : Apart (Store.serve r m).2.labels) : ∃ l ∈ m.labels,
      l.number ∈ (Store.serve r m).2.labels.map Label.number ∧ l ∉ (Store.serve r m).2.labels := by
  cases r with
  | putMistake v =>
    obtain ⟨id, old, hid, hold, hne⟩ := hm
    have hserve : (Store.serve (.putMistake v) m).2.mistakes = replace id v m.mistakes := by
      show (m.putMistake v).2.mistakes = _
      simp only [putMistake, hid, hold]
    have hsome : (lookup? id m.mistakes).isSome := by rw [hold]; rfl
    have hmem : id ∈ m.mistakes.map Prod.fst := lookup?_isSome_iff.mp hsome
    refine ⟨⟨id, old.expression, old.firstAt⟩, List.mem_map_of_mem (mem_of_lookup? hold), ?_, ?_⟩
    · rwa [map_number_labels, hserve, map_fst_replace]
    · intro hl
      obtain ⟨e, he, heq⟩ := List.mem_map.mp hl
      obtain ⟨hn, hx, hfirst⟩ := Label.mk.inj heq
      have hfound := lookup?_eq_some_of_mem (map_number_labels ▸ h.numbers) he
      rw [hserve, hn, lookup?_replace_self hsome] at hfound
      rw [← Option.some.inj hfound] at hx hfirst
      exact hne.elim (absurd hx) (absurd hfirst)
  | _ => cases hm

end Memory

namespace Notebook

/-- Tables keep what their entries are known by whatever is asked of them. A store that holds its
values as they are does so exactly if no entry is ever handed in under the number of one with another
expression or another first miss. -/
theorem lasting_labels (rs : List Request) :
    Lasting Database.labels rs Database.empty ∧
      (Lasting Memory.labels rs Memory.empty ↔
        ∀ before r, before ++ [r] <+: rs → ¬(Store.after before Memory.empty).Mislabels r) := by
  refine ⟨lasting_of_retains apart_nil fun _ r _ h => Database.retains_serve h r, fun h => ?_, fun h => ?_⟩
  · intro before r hrs hm
    obtain ⟨l, hl, hn, hlost⟩ := hm.lost (Store.after_concat before r Memory.empty ▸ h.apart _ hrs)
    apply hlost
    rw [← Store.after_concat]
    refine h.lasting before [r] hrs l hl fun part hpart => ?_
    cases List.prefix_concat_iff.mp (show part <+: [] ++ [r] from hpart) with
    | inl heq =>
      rw [heq, List.nil_append, Store.after_concat]
      exact hn
    | inr hnil =>
      rw [List.prefix_nil.mp hnil, List.append_nil]
      exact List.mem_map_of_mem hl
  · exact lasting_of_retains apart_nil fun before r hrs hapart =>
      (Memory.files_serve _ r).retains hapart (Memory.given_after before) (h before r hrs)

/-- The entry of one expression is handed in again as that of another one. The store that holds its
values as they are then has two entries of one expression, and the number of the first stands for
another problem; the tables keep its expression and the time of its first miss. -/
theorem not_lasting_of_mislabeled :
    let later : Instant := ⟨1, 0, by decide, by decide⟩
    let known : Mistake := ⟨none, "27 + 56", "83", "73", .skill .twoDigitAddition, 1, .epoch, .epoch, false⟩
    let other : Mistake := { known with expression := "45 + 12", correctAnswer := "57" }
    let rs := [.putMistake known, .putMistake other,
      .putMistake { other with id := some ⟨1⟩, firstAt := later }]
    ¬Lasting Memory.labels rs Memory.empty ∧
      (Store.after rs Memory.empty).labels =
        [⟨⟨1⟩, "45 + 12", later⟩, ⟨⟨2⟩, "45 + 12", Instant.epoch⟩] ∧
      (Store.after rs Database.empty).labels =
        [⟨1, "27 + 56", Instant.epoch.storedText⟩, ⟨2, "45 + 12", Instant.epoch.storedText⟩] := by
  intro later known other rs
  have hlabels : (Store.after rs Memory.empty).labels =
      [⟨⟨1⟩, "45 + 12", later⟩, ⟨⟨2⟩, "45 + 12", Instant.epoch⟩] := by decide
  refine ⟨fun h => ?_, hlabels, by decide⟩
  have hnodup := (h.apart rs (List.prefix_refl rs)).expressions
  rw [hlabels] at hnodup
  exact absurd hnodup (by decide)

end Notebook

end MentalMath
