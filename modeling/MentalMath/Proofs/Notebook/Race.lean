import Mathlib.Data.List.Induction
import MentalMath.Proofs.Notebook.Errand

/-! Clients that update one notebook at once. No miss and no mark is lost as long as no update hands in
what it would no longer hand in if it looked again, and at the first one that does, something is. -/

namespace MentalMath

namespace Notebook

open NotebookTable (Ready)
open LawfulNotebookTable

variable {σ : Type} [Store σ]

section Standing

variable [NotebookTable σ] [LawfulNotebookTable σ] {n : Nat} {b : Bench σ} {start s : σ}
  {pre post : List Errand}

/-- The store is in order, and each errand has come as far as its program takes it. -/
structure Standing (n : Nat) (b : Bench σ) : Prop where
  ready : Ready n b.store
  stages : ∀ e ∈ b.errands, Stage b.store e

/-- What comes of serving an errand: all stays in order, and nothing is lost exactly if the errand
overlooks nothing. -/
structure Serves (start : σ) (n : Nat) (b : Bench σ) (i : Nat) : Prop where
  standing : Standing n (b.serve i)
  lawful_iff : Lawful start b → (Lawful start (b.serve i) ↔ ¬b.Overlooks i)

theorem fits_missAgain {a : Answer} (hready : Ready n s) {known : Mistake}
    (hk : entryOf s a.expression = some known) :
    Fits s (known.missAgain a.userAnswer a.answeredAt) := by
  obtain ⟨hlow, hhigh⟩ := counted hready hk
  refine ⟨?_, fun id hid => ⟨known, ?_, hid, rfl⟩⟩
  · show 1 ≤ min (known.count + 1) maxCount ∧ min (known.count + 1) maxCount ≤ maxCount
    omega
  · show entryOf s known.expression = some known
    rw [LawfulNotebookTable.expression hready hk, hk]

theorem fits_afterMiss (hready : Ready n s) (a : Answer) :
    Fits s (Mistake.afterMiss a (entryOf s a.expression)) := by
  cases hk : entryOf s a.expression with
  | none => exact ⟨⟨Nat.le_refl 1, (by decide : 1 ≤ maxCount)⟩, fun id hid => nomatch hid⟩
  | some known => exact fits_missAgain hready hk

variable (pre post) in
theorem serve_begin_miss (hready : Ready n s) (a : Answer) : ∃ next,
    (⟨s, pre ++ .begin (.miss a) :: post⟩ : Bench σ).serve pre.length = ⟨s, pre ++ ⟨.miss a,
        .ask (.putMistake (Mistake.afterMiss a (entryOf s a.expression))) next⟩ :: post⟩ ∧
      ∀ r, next r = .done (r.map .number) := by
  obtain ⟨next, hbegin, -, hnext⟩ := begin_miss a
  obtain ⟨next', hask, hdone⟩ := hnext (entryOf s a.expression)
  refine ⟨next', ?_, hdone⟩
  rw [hbegin, Bench.serve_ask, finds _ hready, hask]

/-- What an errand of a mark goes on with once it looked the entry up. One that is marked already is not
handed in again. -/
inductive Looked (s : σ) (id : MistakeId) : Program (Except StorageError Reply) → Prop
  | missing (e : StorageError) (he : e ≠ .conflict) : Looked s id (.done (.error e))
  | marked (v : Mistake) (hv : entryOf s v.expression = some v) (hid : v.id = some id)
      (hm : v.mastered = true) : Looked s id (.done (.ok (.mistake v)))
  | unmarked (v : Mistake) (hv : entryOf s v.expression = some v) (hid : v.id = some id)
      (next : Except StorageError MistakeId → Program (Except StorageError Reply))
      (hnext : ∀ r, next r = .done (r.map fun _ => .mistake v.master)) :
    Looked s id (.ask (.putMistake v.master) next)

variable (pre post) in
theorem serve_begin_master (hready : Ready n s) (id : MistakeId) : ∃ rest,
    (⟨s, pre ++ .begin (.master id) :: post⟩ : Bench σ).serve pre.length =
      ⟨s, pre ++ ⟨.master id, rest⟩ :: post⟩ ∧ Looked s id rest := by
  obtain ⟨next, hbegin, herror, hmastered, hnext⟩ := begin_master id
  obtain ⟨reply, hget, hgets⟩ := gets id hready
  refine ⟨next reply, by rw [hbegin, Bench.serve_ask, hget], ?_⟩
  cases hgets with
  | missing e he hnone =>
    rw [herror]
    exact .missing e he
  | @found v hv hid =>
    cases hm : v.mastered with
    | true =>
      rw [hmastered v hm]
      exact .marked v hv hid hm
    | false =>
      obtain ⟨next', hask, hdone⟩ := hnext v hm
      rw [hask]
      exact .unmarked v hv hid next' hdone

omit [NotebookTable σ] [LawfulNotebookTable σ] in
theorem not_overlooks_begin {u : Update} :
    ¬(⟨s, pre ++ .begin u :: post⟩ : Bench σ).Overlooks pre.length := by
  obtain ⟨r, next, hbegin, hr⟩ := begin_eq_ask u
  rw [hbegin]
  refine Bench.not_overlooks fun u' v next' heq => ?_
  simp only [getElem?_split, Option.some.injEq, Errand.mk.injEq, Program.ask.injEq] at heq
  exact hr v heq.2.1

/-- Looking an entry up keeps all in order and loses nothing, as long as no entry is reported as marked
that is not. -/
theorem serves_begin {u : Update} {rest : Program (Except StorageError Reply)}
    (h : Standing (n + 1) ⟨s, pre ++ .begin u :: post⟩)
    (hserve : (⟨s, pre ++ .begin u :: post⟩ : Bench σ).serve pre.length =
      ⟨s, pre ++ ⟨u, rest⟩ :: post⟩)
    (hstage : Stage s ⟨u, rest⟩) (hrecords : ∀ x, Errand.records x ⟨u, rest⟩ = false)
    (hmarks : ∀ x v l, entryOf s x = some v → v.id = some l →
      Errand.marks l ⟨u, rest⟩ = true → v.mastered = true)
    (hgranted : Errand.conflicts ⟨u, rest⟩ = false) :
    Serves start n ⟨s, pre ++ .begin u :: post⟩ pre.length := by
  obtain ⟨r, next, hbegin, hr⟩ := begin_eq_ask u
  constructor
  · rw [hserve]
    exact ⟨ready_of_succ h.ready, stages_replace h.stages (Grows.refl s) hstage⟩
  · intro hlaw
    rw [hserve]
    rw [hbegin] at hlaw ⊢
    refine ⟨fun _ => ?_, fun _ => hlaw.looked hrecords hmarks hgranted⟩
    rw [← hbegin]
    exact not_overlooks_begin

theorem serves_find {a : Answer} (h : Standing (n + 1) ⟨s, pre ++ .begin (.miss a) :: post⟩) :
    Serves start n ⟨s, pre ++ .begin (.miss a) :: post⟩ pre.length := by
  have hready : Ready n s := ready_of_succ h.ready
  obtain ⟨next, hserve, hdone⟩ := serve_begin_miss pre post hready a
  refine serves_begin h hserve (.missing a _ next hdone (fun v hv => ?_) (fits_afterMiss hready a))
    (fun x => records_ask) (fun x v l _ _ hm => ?_) rfl
  · exact ⟨LawfulNotebookTable.expression hready hv, numbered hready hv⟩
  · rw [marks_ask] at hm
    cases hm

theorem eq_of_id (hready : Ready n s) {x y : String} {v w : Mistake} (hv : entryOf s x = some v)
    (hw : entryOf s y = some w) (hid : v.id = w.id) : v = w := by
  obtain rfl : x = y := apart hready hv hw hid
  exact Option.some.inj (hv.symm.trans hw)

theorem serves_get {id : MistakeId} (h : Standing (n + 1) ⟨s, pre ++ .begin (.master id) :: post⟩) :
    Serves start n ⟨s, pre ++ .begin (.master id) :: post⟩ pre.length := by
  have hready : Ready n s := ready_of_succ h.ready
  obtain ⟨rest, hserve, hlooked⟩ := serve_begin_master pre post hready id
  cases hlooked with
  | missing e he =>
    refine serves_begin h hserve (.ended _ _ fun l hm => nomatch hm) (fun x => rfl)
      (fun x v l _ _ hm => nomatch hm) ?_
    cases e <;> first | rfl | contradiction
  | marked v hv hid hm =>
    refine serves_begin h hserve (.ended _ _ fun l hl => ?_) (fun x => rfl)
      (fun x w l hw hwid hl => ?_) rfl
    · exact ⟨_, v, hv, beq_iff_eq.mp hl ▸ hid⟩
    · have hidl : id = l := beq_iff_eq.mp hl
      rw [eq_of_id hready hw hv (hwid.trans (hidl ▸ hid.symm)), hm]
  | unmarked v hv hid next hnext =>
    have hcounted := counted hready hv
    refine serves_begin h hserve (.marking id v next hnext hid ⟨hcounted, fun l hl => ?_⟩)
      (fun x => records_ask) (fun x w l _ _ hl => ?_) rfl
    · exact ⟨v, hv, hl, rfl⟩
    · rw [marks_ask] at hl
      cases hl

theorem due_master (hready : Ready n s) {id : MistakeId} {x : String} {v : Mistake}
    (hv : entryOf s x = some v) (hid : v.id = some id) :
    (Update.master id).due s = some v.master := by
  obtain ⟨reply, hget, hgets⟩ := gets id hready
  cases hgets with
  | @found z hz hzid =>
    rw [Update.due, hget, eq_of_id hready hz hv (hzid.trans hid.symm)]
    rfl
  | missing e he hnone => exact absurd hid (hnone _ v hv)

/-- An errand that has only just looked overlooks nothing. -/
theorem not_overlooks_of_looked (hready : Ready n s) (u : Update) :
    ¬((⟨s, pre ++ .begin u :: post⟩ : Bench σ).serve pre.length).Overlooks pre.length := by
  cases u with
  | miss a =>
    obtain ⟨next, hserve, -⟩ := serve_begin_miss pre post hready a
    rw [hserve, Bench.overlooks_iff (w := Mistake.afterMiss a (entryOf s a.expression)) rfl, not_not]
    exact ⟨rfl, rfl, rfl⟩
  | master id =>
    obtain ⟨rest, hserve, hlooked⟩ := serve_begin_master pre post hready id
    rw [hserve]
    cases hlooked with
    | missing | marked => exact Bench.not_overlooks (by simp)
    | unmarked v hv hid next hnext =>
      rw [Bench.overlooks_iff (due_master hready hv hid), not_not]
      exact ⟨rfl, rfl, rfl⟩

variable {next : Except StorageError MistakeId → Program (Except StorageError Reply)}

omit [LawfulNotebookTable σ] in
/-- A number that was reported as marked is in use. -/
theorem Standing.used {errands : List Errand} {id : MistakeId} (h : Standing n ⟨s, errands⟩)
    (hm : Marked (some id) errands) : ∃ x v, entryOf s x = some v ∧ v.id = some id := by
  obtain ⟨l, hl, e, he, hmarks⟩ := hm
  cases hl
  cases h.stages e he with
  | begun u =>
    cases u with
    | miss a => cases hmarks
    | master l => cases hmarks
  | missing | marking => cases hmarks
  | ended u r hused => exact hused id hmarks

omit [NotebookTable σ] [LawfulNotebookTable σ] in
theorem due_miss {a : Answer} {known : Option Mistake} (hk : entryOf s a.expression = known) :
    (Update.miss a).due s = some (Mistake.afterMiss a known) :=
  congrArg (fun known => some (Mistake.afterMiss a known)) hk

/-- A first miss is handed in. It is lost if its expression has an entry by now. -/
theorem lawful_first_iff {a : Answer} {reply : Except StorageError MistakeId} {s' : σ}
    (hstart : ∀ x v, entryOf start x = some v → 1 ≤ v.count)
    (h : Standing (n + 1)
      ⟨s, pre ++ ⟨.miss a, .ask (.putMistake (Mistake.first a)) next⟩ :: post⟩)
    (hlaw : Lawful start ⟨s, pre ++ ⟨.miss a, .ask (.putMistake (Mistake.first a)) next⟩ :: post⟩)
    (hputs : Puts s (Mistake.first a) reply s') :
    Lawful start ⟨s', pre ++ ⟨.miss a, .done (reply.map .number)⟩ :: post⟩ ↔ ¬Bench.Overlooks
      ⟨s, pre ++ ⟨.miss a, .ask (.putMistake (Mistake.first a)) next⟩ :: post⟩ pre.length := by
  cases hputs with
  | entered id _ hid hnew hfresh hentry =>
    rw [Bench.overlooks_iff (due_miss hnew), not_not]
    refine iff_of_true (hlaw.entered hstart hnew (fun hm => ?_) hentry) ⟨rfl, rfl, rfl⟩
    obtain ⟨x, w, hw, hwid⟩ := h.used hm
    exact hfresh x w hw hwid
  | replaced id _ hid => cases hid
  | @refused old hid hold =>
    obtain ⟨id, hown⟩ := numbered h.ready hold
    rw [Bench.overlooks_iff (due_miss hold), not_not]
    refine iff_of_false (fun hafter => ?_) fun hsame => ?_
    · have hgranted := hafter.granted ⟨.miss a, .done (.error .conflict)⟩
        (List.mem_append_right _ List.mem_cons_self)
      cases hgranted
    · have hnone : none = old.id := hsame.1
      rw [hown] at hnone
      cases hnone

/-- One more miss is handed in. It undoes what was done to the entry since it was looked up. -/
theorem lawful_again_iff {a : Answer} {known : Mistake} {id : MistakeId}
    {reply : Except StorageError MistakeId} {s' : σ}
    (hx : known.expression = a.expression) (hid : known.id = some id)
    (hfits : Fits s (known.missAgain a.userAnswer a.answeredAt)) (hready : Ready (n + 1) s)
    (hlaw : Lawful start ⟨s, pre ++ ⟨.miss a, .ask
      (.putMistake (known.missAgain a.userAnswer a.answeredAt)) next⟩ :: post⟩)
    (hputs : Puts s (known.missAgain a.userAnswer a.answeredAt) reply s') :
    Lawful start ⟨s', pre ++ ⟨.miss a, .done (reply.map .number)⟩ :: post⟩ ↔ ¬Bench.Overlooks
      ⟨s, pre ++ ⟨.miss a, .ask
        (.putMistake (known.missAgain a.userAnswer a.answeredAt)) next⟩ :: post⟩ pre.length := by
  obtain ⟨old, hold, hown, -⟩ := hfits.known id hid
  have hnow : entryOf s a.expression = some old := hx ▸ hold
  cases hputs with
  | entered _ _ hnone => exact absurd (hid.symm.trans hnone) (Option.some_ne_none id)
  | refused hnone => exact absurd (hid.symm.trans hnone) (Option.some_ne_none id)
  | replaced l _ hl hentry =>
    obtain rfl : id = l := Option.some.inj (hid.symm.trans hl)
    rw [Bench.overlooks_iff (due_miss hnow), not_not]
    refine (hlaw.replaced_iff (w := Mistake.afterMiss a (some old)) hold hid hown ?_ hentry ?_
      (fun _ _ => rfl) rfl ?_ ?_).trans (and_iff_right (hid.trans hown.symm)).symm
    · intro x w hw hwid
      exact apart hready hw hold (hwid.trans hown.symm)
    · intro x hne
      exact beq_false_of_ne (hx ▸ hne)
    · have hrecords : Errand.records known.expression
          ⟨.miss a, .done (Except.map Reply.number (.ok id))⟩ = true := beq_iff_eq.mpr hx.symm
      rw [show (known.missAgain a.userAnswer a.answeredAt).expression = known.expression from rfl,
        hrecords]
      rfl
    · exact (or_iff_left fun hm => nomatch hm).symm

theorem serves_missing {a : Answer} {known : Option Mistake}
    (hnext : ∀ r, next r = .done (r.map .number))
    (hknown : ∀ v, known = some v → v.expression = a.expression ∧ ∃ id, v.id = some id)
    (hfits : Fits s (Mistake.afterMiss a known))
    (hstart : ∀ x v, entryOf start x = some v → 1 ≤ v.count)
    (h : Standing (n + 1)
      ⟨s, pre ++ ⟨.miss a, .ask (.putMistake (Mistake.afterMiss a known)) next⟩ :: post⟩) :
    Serves start n
      ⟨s, pre ++ ⟨.miss a, .ask (.putMistake (Mistake.afterMiss a known)) next⟩ :: post⟩
      pre.length := by
  have hputs := puts h.ready hfits
  constructor
  · rw [Bench.serve_ask, hnext]
    exact ⟨ready_put h.ready hfits, stages_replace h.stages (hputs.grows hfits)
      (.ended _ _ fun l hm => nomatch hm)⟩
  · intro hlaw
    rw [Bench.serve_ask, hnext]
    cases known with
    | none => exact lawful_first_iff hstart h hlaw hputs
    | some known =>
      obtain ⟨hx, id, hid⟩ := hknown known rfl
      exact lawful_again_iff hx hid hfits h.ready hlaw hputs

/-- An entry is handed in with its mark. It undoes what was done to the entry since it was looked up. -/
theorem lawful_marking_iff {id : MistakeId} {v : Mistake} {reply : Except StorageError MistakeId}
    {s' : σ} (hid : v.id = some id) (hfits : Fits s v.master) (hready : Ready (n + 1) s)
    (hlaw : Lawful start ⟨s, pre ++ ⟨.master id, .ask (.putMistake v.master) next⟩ :: post⟩)
    (hputs : Puts s v.master reply s') :
    Lawful start
        ⟨s', pre ++ ⟨.master id, .done (reply.map fun _ => .mistake v.master)⟩ :: post⟩ ↔
      ¬Bench.Overlooks ⟨s, pre ++ ⟨.master id, .ask (.putMistake v.master) next⟩ :: post⟩
        pre.length := by
  obtain ⟨old, hold, hown, -⟩ := hfits.known id hid
  cases hputs with
  | entered _ _ hnone => exact absurd (hid.symm.trans hnone) (Option.some_ne_none id)
  | refused hnone => exact absurd (hid.symm.trans hnone) (Option.some_ne_none id)
  | replaced l _ hl hentry =>
    rw [Bench.overlooks_iff (due_master hready hold hown), not_not]
    refine (hlaw.replaced_iff (w := old.master) hold hid hown ?_ hentry (fun _ _ => rfl) ?_ rfl ?_
      ?_).trans (and_iff_right (hid.trans hown.symm)).symm
    · intro x z hz hzid
      exact apart hready hz hold (hzid.trans hown.symm)
    · exact fun l hne => beq_false_of_ne hne.symm
    · have hcounted := (counted hready hold).2
      show old.count = min (old.count + 0) maxCount
      omega
    · exact iff_of_true rfl (Or.inr (beq_self_eq_true id))

theorem serves_marking {id : MistakeId} {v : Mistake}
    (hnext : ∀ r, next r = .done (r.map fun _ => .mistake v.master)) (hid : v.id = some id)
    (hfits : Fits s v.master)
    (h : Standing (n + 1) ⟨s, pre ++ ⟨.master id, .ask (.putMistake v.master) next⟩ :: post⟩) :
    Serves start n ⟨s, pre ++ ⟨.master id, .ask (.putMistake v.master) next⟩ :: post⟩
      pre.length := by
  have hputs := puts h.ready hfits
  have hgrows := hputs.grows hfits
  obtain ⟨old, hold, hown, -⟩ := hfits.known id hid
  obtain ⟨w, hw, hwid, -⟩ := hgrows _ old hold
  constructor
  · rw [Bench.serve_ask, hnext]
    refine ⟨ready_put h.ready hfits,
      stages_replace h.stages hgrows (.ended _ _ fun l hm => ⟨_, w, hw, ?_⟩)⟩
    have hl : id = l := by
      cases hreply : (Store.serve (.putMistake v.master) s).1 with
      | error e =>
        rw [hreply] at hm
        cases hm
      | ok i =>
        rw [hreply] at hm
        exact beq_iff_eq.mp hm
    rw [hwid, hown, hl]
  · intro hlaw
    rw [Bench.serve_ask, hnext]
    exact lawful_marking_iff hid hfits h.ready hlaw hputs

/-- Whatever request comes next, all stays in order, and nothing is lost exactly if it overlooks
nothing. -/
theorem Standing.serves (h : Standing (n + 1) b)
    (hstart : ∀ x v, entryOf start x = some v → 1 ≤ v.count) (i : Nat) : Serves start n b i := by
  have hidle (hsame : b.serve i = b) (hno : ¬b.Overlooks i) : Serves start n b i := by
    refine ⟨?_, fun hlaw => ?_⟩
    · rw [hsame]
      exact ⟨ready_of_succ h.ready, h.stages⟩
    · rw [hsame]
      exact iff_of_true hlaw hno
  cases he : b.errands[i]? with
  | none => exact hidle (by simp only [Bench.serve, he]) (Bench.not_overlooks (by simp [he]))
  | some e =>
    obtain ⟨pre, post, hsplit, rfl⟩ : ∃ pre post, b.errands = pre ++ e :: post ∧ pre.length = i := by
      obtain ⟨hlt, heq⟩ := List.getElem?_eq_some_iff.mp he
      refine ⟨b.errands.take i, b.errands.drop (i + 1), ?_, List.length_take_of_le hlt.le⟩
      rw [← heq, ← List.drop_eq_getElem_cons hlt, List.take_append_drop]
    obtain ⟨s, errands⟩ := b
    obtain rfl : errands = pre ++ e :: post := hsplit
    -- How far the errand has come tells which request is next.
    cases h.stages e (by simp) with
    | begun u =>
      cases u with
      | miss a => exact serves_find h
      | master id => exact serves_get h
    | missing a known next hnext hknown hfits => exact serves_missing hnext hknown hfits hstart h
    | marking id v next hnext hid hfits => exact serves_marking hnext hid hfits h
    | ended u r hused =>
      exact hidle (by simp only [Bench.serve, he]) (Bench.not_overlooks (by simp))

omit [NotebookTable σ] [LawfulNotebookTable σ] in
/-- An update that begins has not done anything yet. -/
theorem lawful_begin_iff (u : Update) : Lawful start (b.react (.begin u)) ↔ Lawful start b := by
  have hrecords : ∀ x, (Errand.begin u).records x = false := fun x => by cases u <;> rfl
  have hmarks : ∀ id, (Errand.begin u).marks id = false := fun id => by cases u <;> rfl
  have hgranted : (Errand.begin u).conflicts = false := by cases u <;> rfl
  have hmisses : ∀ x, misses x (b.errands ++ [.begin u]) = misses x b.errands := fun x => by
    simp [misses, hrecords]
  have hmarked : ∀ id, Marked id (b.errands ++ [.begin u]) ↔ Marked id b.errands := fun id => by
    simp [Marked, hmarks, or_and_right, exists_or]
  constructor
  · intro h
    refine ⟨fun x => (h.counts x).trans (by rw [← hmisses x]; rfl), fun x v hv => ?_, fun e he => ?_⟩
    · rw [← hmarked]
      exact h.marks x v hv
    · exact h.granted e (List.mem_append_left _ he)
  · intro h
    refine ⟨fun x => (h.counts x).trans (by rw [← hmisses x]; rfl), fun x v hv => ?_, fun e he => ?_⟩
    · exact (h.marks x v hv).trans (or_congr_right (hmarked _).symm)
    · rcases List.mem_append.mp he with he | he
      · exact h.granted e he
      · rw [List.mem_singleton.mp he, hgranted]

theorem Standing.react (h : Standing (n + 1) b)
    (hstart : ∀ x v, entryOf start x = some v → 1 ≤ v.count) (t : Turn) : Standing n (b.react t) := by
  cases t with
  | begin u =>
    refine ⟨ready_of_succ h.ready, fun e he => ?_⟩
    rcases List.mem_append.mp he with he | he
    · exact h.stages e he
    · rw [List.mem_singleton.mp he]
      exact .begun u
  | serve i => exact (h.serves hstart i).standing

end Standing

/-! ### Turns one after the other -/

section After

variable [NotebookTable σ] [LawfulNotebookTable σ] {n : Nat} {start : σ} {turns : List Turn}

omit [LawfulNotebookTable σ] [NotebookTable σ] in
theorem Bench.after_concat (turns : List Turn) (t : Turn) (b : Bench σ) :
    b.after (turns ++ [t]) = (b.after turns).react t :=
  List.foldl_append

theorem lawful_start (h : Ready n start) : Lawful start ⟨start, []⟩ := by
  refine ⟨fun x => ?_, fun x v hv => ?_, fun e he => nomatch he⟩
  · cases hv : entryOf start x with
    | none => rfl
    | some v =>
      have hcounted := (counted h hv).2
      show v.count = min (v.count + 0) maxCount
      omega
  · dsimp only at hv
    rw [hv]
    exact ⟨Or.inl, fun hm => hm.elim (fun hm => hm) fun ⟨_, _, _, he, _⟩ => nomatch he⟩

theorem standing_after (h : Ready (turns.length + n) start) :
    Standing n (Bench.after turns ⟨start, []⟩) := by
  induction turns using List.reverseRecOn generalizing n with
  | nil =>
    rw [List.length_nil, Nat.zero_add] at h
    exact ⟨h, fun e he => nomatch he⟩
  | append_singleton turns t ih =>
    rw [List.length_append, List.length_singleton, Nat.add_assoc, Nat.add_comm 1] at h
    rw [Bench.after_concat]
    exact (ih h).react (fun x v hv => (counted h hv).1) t

/-- Nothing is lost on the way, and so nothing is at the end, exactly if no errand ever hands in an entry
with another number, count or mark than it would hand in if it looked the entry up only then. -/
theorem lawful_iff_overlooks_nothing (h : Ready turns.length start) :
    (∀ part, part <+: turns → Lawful start (Bench.after part ⟨start, []⟩)) ↔
      ∀ before i, before ++ [.serve i] <+: turns →
        ¬(Bench.after before ⟨start, []⟩).Overlooks i := by
  have hstart : ∀ x v, entryOf start x = some v → 1 ≤ v.count := fun x v hv => (counted h hv).1
  have hstanding : ∀ before t, before ++ [t] <+: turns →
      ∃ n, Standing (n + 1) (Bench.after before ⟨start, []⟩) := by
    rintro before t ⟨rest, rfl⟩
    rw [List.append_assoc, List.length_append] at h
    exact ⟨rest.length, standing_after h⟩
  have hstep : ∀ before i, before ++ [.serve i] <+: turns →
      Lawful start (Bench.after before ⟨start, []⟩) →
      (Lawful start (Bench.after (before ++ [.serve i]) ⟨start, []⟩) ↔
        ¬(Bench.after before ⟨start, []⟩).Overlooks i) := by
    intro before i hbefore hlaw
    obtain ⟨n, hstands⟩ := hstanding before _ hbefore
    rw [Bench.after_concat]
    exact (hstands.serves hstart i).lawful_iff hlaw
  constructor
  · intro hlaw before i hbefore
    have hpart := (List.prefix_append before [.serve i]).trans hbefore
    exact (hstep before i hbefore (hlaw before hpart)).mp (hlaw _ hbefore)
  · -- Induction from the end, since each turn is judged by the store that the turns before it leave.
    intro hno part
    induction part using List.reverseRecOn with
    | nil => exact fun _ => lawful_start h
    | append_singleton part t ih =>
      intro hpart
      have hlaw := ih ((List.prefix_append part [t]).trans hpart)
      cases t with
      | begin u =>
        rw [Bench.after_concat]
        exact (lawful_begin_iff u).mpr hlaw
      | serve i => exact (hstep part i hpart hlaw).mpr (hno part i hpart)

/-- Updates one after the other, where the first is errand number `k`. -/
def serial : Nat → List Update → List Turn
  | _, [] => []
  | k, u :: us => .begin u :: .serve k :: .serve k :: serial (k + 1) us

omit [NotebookTable σ] [LawfulNotebookTable σ] in
theorem length_serve (b : Bench σ) (i : Nat) : (b.serve i).errands.length = b.errands.length := by
  unfold Bench.serve
  split
  · exact List.length_set
  · rfl

/-- An update that is served to its end before anything else happens loses nothing. -/
theorem lawful_serve_begin {b : Bench σ} (h : Standing (n + 3) b)
    (hstart : ∀ x v, entryOf start x = some v → 1 ≤ v.count) (hlaw : Lawful start b) (u : Update) :
    Lawful start (((b.react (.begin u)).serve b.errands.length).serve b.errands.length) := by
  have hbegun : Standing (n + 2) (b.react (.begin u)) := h.react hstart (.begin u)
  have hlooked := hbegun.serves hstart b.errands.length
  have hlawLooked := (hlooked.lawful_iff ((lawful_begin_iff u).mpr hlaw)).mpr not_overlooks_begin
  exact ((hlooked.standing.serves hstart b.errands.length).lawful_iff hlawLooked).mpr
    (not_overlooks_of_looked hbegun.ready u)

theorem Lawful.serial {b : Bench σ} {us : List Update} (hlaw : Lawful start b)
    (h : Standing (3 * us.length) b) (hstart : ∀ x v, entryOf start x = some v → 1 ≤ v.count) :
    Lawful start (b.after (serial b.errands.length us)) := by
  induction us generalizing b with
  | nil => exact hlaw
  | cons u us ih =>
    have hlength : (((b.react (.begin u)).serve b.errands.length).serve
        b.errands.length).errands.length = b.errands.length + 1 := by
      rw [length_serve, length_serve]
      exact List.length_append
    have hnext := ih (lawful_serve_begin h hstart hlaw u)
      (((h.react hstart (.begin u)).react hstart (.serve _)).react hstart (.serve _))
    rw [hlength] at hnext
    exact hnext

/-- Updates one after the other lose nothing. -/
theorem lawful_after_serial {us : List Update} (h : Ready (3 * us.length) start) :
    Lawful start (Bench.after (serial 0 us) ⟨start, []⟩) :=
  (lawful_start h).serial ⟨h, fun _ he => nomatch he⟩ fun _ _ hv => (counted h hv).1

end After

/-- Of two clients that miss a new problem at once, the second overlooks the entry of the first. -/
theorem overlooks_of_race :
    let a : Answer := ⟨"27 + 56", "83", "73", .skill .twoDigitAddition, false, .zero, .epoch⟩
    let turns : List Turn :=
      [.begin (.miss a), .begin (.miss a), .serve 0, .serve 1, .serve 0, .serve 1]
    Ready turns.length Database.empty ∧ ∃ before i, before ++ [.serve i] <+: turns ∧
      (Bench.after before ⟨Database.empty, []⟩).Overlooks i := by
  intro a turns
  have hready : Ready turns.length Database.empty :=
    ⟨Memory.empty, Database.shows_empty (by decide)⟩
  refine ⟨hready, ?_⟩
  -- With nothing overlooked nothing would be lost, but the second miss ends with a conflict.
  by_contra hno
  have hlaw := (lawful_iff_overlooks_nothing hready).mpr
    (fun before i hbefore hi => hno ⟨before, i, hbefore, hi⟩) turns (List.prefix_refl turns)
  obtain ⟨e, he, hconflict⟩ := List.any_eq_true.mp
    (show (Bench.after turns ⟨Database.empty, []⟩).errands.any Errand.conflicts = true by decide)
  rw [hlaw.granted e he] at hconflict
  cases hconflict

/-- Two errands that look an entry up before either hands it in. Of two misses one is not counted, the
second of two first misses ends with a conflict, and a mark that a miss has not seen is taken away. -/
theorem not_lawful_of_race :
    let a : Answer := ⟨"27 + 56", "83", "73", .skill .twoDigitAddition, false, .zero, .epoch⟩
    let first : List Turn := [.begin (.miss a), .serve 0, .serve 0]
    let twice := first ++ [.begin (.miss a), .begin (.miss a), .serve 1, .serve 2, .serve 1, .serve 2]
    let atOnce : List Turn :=
      [.begin (.miss a), .begin (.miss a), .serve 0, .serve 1, .serve 0, .serve 1]
    let marked := first ++
      [.begin (.miss a), .begin (.master ⟨1⟩), .serve 1, .serve 2, .serve 2, .serve 1]
    (¬Lawful Memory.empty (Bench.after twice ⟨Memory.empty, []⟩) ∧
      ¬Lawful Memory.empty (Bench.after atOnce ⟨Memory.empty, []⟩) ∧
      ¬Lawful Memory.empty (Bench.after marked ⟨Memory.empty, []⟩)) ∧
    ¬Lawful Database.empty (Bench.after twice ⟨Database.empty, []⟩) ∧
      ¬Lawful Database.empty (Bench.after atOnce ⟨Database.empty, []⟩) := by
  intro a first twice atOnce marked
  refine ⟨⟨fun h => ?_, fun h => ?_, fun h => ?_⟩, fun h => ?_, fun h => ?_⟩
  · exact absurd (h.counts "27 + 56") (by decide)
  · obtain ⟨e, he, hconflict⟩ := List.any_eq_true.mp
      (show (Bench.after atOnce ⟨Memory.empty, []⟩).errands.any Errand.conflicts = true by decide)
    rw [h.granted e he] at hconflict
    cases hconflict
  · obtain ⟨e, he, hmarks⟩ := List.any_eq_true.mp
      (show (Bench.after marked ⟨Memory.empty, []⟩).errands.any (Errand.marks ⟨1⟩) = true by decide)
    have hentry : entryOf (Bench.after marked ⟨Memory.empty, []⟩).store "27 + 56" =
        some { Mistake.first a with id := some ⟨1⟩, count := 2 } := by decide
    have hmastered := (h.marks _ _ hentry).mpr (Or.inr ⟨⟨1⟩, rfl, e, he, hmarks⟩)
    cases hmastered
  · have hcount : countOf (entryOf (Bench.after twice ⟨Database.empty, []⟩).store "27 + 56") = 2 := by
      decide +kernel
    have hmisses : misses "27 + 56" (Bench.after twice ⟨Database.empty, []⟩).errands = 3 := by decide +kernel
    have hcounts := h.counts "27 + 56"
    rw [hcount, hmisses] at hcounts
    exact absurd hcounts (by decide)
  · obtain ⟨e, he, hconflict⟩ := List.any_eq_true.mp
      (show (Bench.after atOnce ⟨Database.empty, []⟩).errands.any Errand.conflicts = true by decide)
    rw [h.granted e he] at hconflict
    cases hconflict

end Notebook

end MentalMath
