import MentalMath.Proofs.Notebook.Table

/-! Updates of one notebook by several clients at once, request by request. Each update looks an entry
up and then hands it in as a whole, so it undoes what was done to the entry in between. Here is what must
not be lost of misses and marks, how far an errand can have come, and what it takes for an errand that
goes on to lose nothing. -/

namespace MentalMath

namespace Notebook

inductive Update where
  | miss (a : Answer)
  | master (id : MistakeId)
  deriving DecidableEq, Repr

def Update.operation : Update → Operation
  | .miss a => .miss a
  | .master id => .master id

/-- An update as far as it has come. -/
structure Errand where
  update : Update
  /-- What is left of its program. -/
  rest : Program (Except StorageError Reply)

namespace Errand

def begin (u : Update) : Errand :=
  ⟨u, u.operation.program.run⟩

/-- Whether the errand recorded a miss of an expression. -/
def records (x : String) : Errand → Bool
  | ⟨.miss a, .done (.ok _)⟩ => a.expression == x
  | _ => false

/-- Whether the errand reported the entry under a number as marked. -/
def marks (id : MistakeId) : Errand → Bool
  | ⟨.master l, .done (.ok _)⟩ => l == id
  | _ => false

/-- Whether the errand ended with a conflict. -/
def conflicts : Errand → Bool
  | ⟨_, .done (.error .conflict)⟩ => true
  | _ => false

end Errand

/-- A store and the errands of its clients. -/
structure Bench (σ : Type) where
  store : σ
  /-- The errands in the order of their begin. -/
  errands : List Errand

inductive Turn where
  | begin (u : Update)
  /-- The next request of an errand is served. -/
  | serve (i : Nat)
  deriving DecidableEq, Repr

variable {σ : Type} [Store σ]

namespace Bench

/-- The next request of an errand is served. An errand that is over stays as it is. -/
def serve (i : Nat) (b : Bench σ) : Bench σ :=
  match b.errands[i]? with
  | some ⟨u, .ask r next⟩ =>
    ⟨(Store.serve r b.store).2, b.errands.set i ⟨u, next (Store.serve r b.store).1⟩⟩
  | _ => b

def react (b : Bench σ) : Turn → Bench σ
  | .begin u => { b with errands := b.errands ++ [.begin u] }
  | .serve i => b.serve i

def after (turns : List Turn) (b : Bench σ) : Bench σ :=
  turns.foldl react b

end Bench

/-! ### What must not be lost -/

/-- The number of misses of an entry, if there is one. -/
def countOf (v : Option Mistake) : Nat :=
  v.elim 0 Mistake.count

/-- The misses of an expression that were recorded. -/
def misses (x : String) (errands : List Errand) : Nat :=
  errands.countP (Errand.records x)

/-- An entry under a number was reported as marked. -/
def Marked (id : Option MistakeId) (errands : List Errand) : Prop :=
  ∃ l, id = some l ∧ ∃ e ∈ errands, e.marks l = true

/-- Nothing is lost: each expression has the misses that it had at the start and those that were
recorded since, up to the largest count; an entry is marked exactly if it was at the start or was
reported as marked since; and no update ended with a conflict. -/
structure Lawful (start : σ) (b : Bench σ) : Prop where
  counts : ∀ x, countOf (entryOf b.store x) =
    min (countOf (entryOf start x) + misses x b.errands) maxCount
  marks : ∀ x v, entryOf b.store x = some v → (v.mastered = true ↔
    (entryOf start x).any Mistake.mastered = true ∨ Marked v.id b.errands)
  granted : ∀ e ∈ b.errands, e.conflicts = false

/-- What an update would hand in if it looked the entry up now. -/
def Update.due (s : σ) : Update → Option Mistake
  | .miss a => some (Mistake.afterMiss a (entryOf s a.expression))
  | .master id => (Store.serve (.getMistake id) s).1.toOption.map Mistake.master

/-- An errand is about to hand in an entry with another number, count or mark than it would hand in if
it looked the entry up now. -/
def Bench.Overlooks (b : Bench σ) (i : Nat) : Prop :=
  ∃ u v next w, b.errands[i]? = some ⟨u, .ask (.putMistake v) next⟩ ∧ u.due b.store = some w ∧
    ¬(v.id = w.id ∧ v.count = w.count ∧ v.mastered = w.mastered)

/-! ### How far an errand has come -/

/-- How far an errand has come. An entry that it is about to hand in fits the store. -/
inductive Stage (s : σ) : Errand → Prop
  | begun (u : Update) : Stage s (.begin u)
  | missing (a : Answer) (known : Option Mistake)
      (next : Except StorageError MistakeId → Program (Except StorageError Reply))
      (hnext : ∀ r, next r = .done (r.map .number))
      (hknown : ∀ v, known = some v → v.expression = a.expression ∧ ∃ id, v.id = some id)
      (hfits : Fits s (Mistake.afterMiss a known)) :
    Stage s ⟨.miss a, .ask (.putMistake (Mistake.afterMiss a known)) next⟩
  | marking (id : MistakeId) (v : Mistake)
      (next : Except StorageError MistakeId → Program (Except StorageError Reply))
      (hnext : ∀ r, next r = .done (r.map fun _ => .mistake v.master))
      (hid : v.id = some id) (hfits : Fits s v.master) :
    Stage s ⟨.master id, .ask (.putMistake v.master) next⟩
  | ended (u : Update) (r : Except StorageError Reply)
      (hused : ∀ id, Errand.marks id ⟨u, .done r⟩ = true →
        ∃ x v, entryOf s x = some v ∧ v.id = some id) : Stage s ⟨u, .done r⟩

theorem begin_miss (a : Answer) : ∃ next,
    Errand.begin (.miss a) = ⟨.miss a, .ask (.findMistake a.expression) next⟩ ∧
      (∀ e, next (.error e) = .done (.error e)) ∧
      ∀ known, ∃ next', next (.ok known) = .ask (.putMistake (Mistake.afterMiss a known)) next' ∧
        ∀ r, next' r = .done (r.map .number) :=
  ⟨_, rfl, fun _ => rfl, fun _ => ⟨_, rfl, fun r => by cases r <;> rfl⟩⟩

theorem begin_master (id : MistakeId) : ∃ next,
    Errand.begin (.master id) = ⟨.master id, .ask (.getMistake id) next⟩ ∧
      (∀ e, next (.error e) = .done (.error e)) ∧
      (∀ v, v.mastered = true → next (.ok v) = .done (.ok (.mistake v))) ∧
      ∀ v, v.mastered = false → ∃ next', next (.ok v) = .ask (.putMistake v.master) next' ∧
        ∀ r, next' r = .done (r.map fun _ => .mistake v.master) := by
  let marked (v : Mistake) : StoreM Mistake := do
    let _ ← StoreM.request (.putMistake v.master)
    return v.master
  refine ⟨_, rfl, fun _ => rfl, fun v hv => ?_, fun v hv => ?_⟩
  · show Program.bind (if v.mastered = true then (pure v : StoreM Mistake) else marked v) _ = _
    rw [if_pos hv]
    rfl
  · refine ⟨fun r => ((Program.done r).bind (ExceptT.bindCont fun _ => pure v.master)).bind
      (ExceptT.bindCont fun v => pure (Reply.mistake v)), ?_, fun r => by cases r <;> rfl⟩
    show Program.bind (if v.mastered = true then (pure v : StoreM Mistake) else marked v) _ = _
    rw [if_neg (ne_true_of_eq_false hv)]
    rfl

/-- The first request of an update hands nothing in. -/
theorem begin_eq_ask (u : Update) : ∃ r next, Errand.begin u = ⟨u, .ask r next⟩ ∧
    ∀ v, r ≠ .putMistake v := by
  cases u with
  | miss a => exact ⟨_, _, rfl, fun v => Request.noConfusion⟩
  | master id => exact ⟨_, _, rfl, fun v => Request.noConfusion⟩

/-! ### What an errand adds to the record -/

section Replace

variable {pre post : List Errand} {u : Update} {r : Request} {x : String}
  {next : Except StorageError r.Reply → Program (Except StorageError Reply)} {e' : Errand}

@[simp]
theorem records_ask : Errand.records x ⟨u, .ask r next⟩ = false := by
  cases u <;> rfl

@[simp]
theorem marks_ask {id : MistakeId} : Errand.marks id ⟨u, .ask r next⟩ = false := by
  cases u <;> rfl

/-- What holds of all errands still does when one of them goes on. -/
theorem forall_mem_replace {P : Errand → Prop} {e : Errand} (h : ∀ d ∈ pre ++ e :: post, P d)
    (he : P e') : ∀ d ∈ pre ++ e' :: post, P d := by
  obtain ⟨hpre, hpost⟩ := List.forall_mem_append.mp h
  exact List.forall_mem_append.mpr
    ⟨hpre, List.forall_mem_cons.mpr ⟨he, (List.forall_mem_cons.mp hpost).2⟩⟩

theorem misses_replace : misses x (pre ++ e' :: post) =
    misses x (pre ++ ⟨u, .ask r next⟩ :: post) + (e'.records x).toNat := by
  simp only [misses, List.countP_append, List.countP_cons, records_ask]
  cases e'.records x <;> simp +arith

theorem marked_replace {id : Option MistakeId} : Marked id (pre ++ e' :: post) ↔
    Marked id (pre ++ ⟨u, .ask r next⟩ :: post) ∨ ∃ l, id = some l ∧ e'.marks l = true := by
  simp only [Marked, List.mem_append, List.mem_cons]
  constructor
  · rintro ⟨l, hl, e, he | rfl | he, hm⟩
    · exact Or.inl ⟨l, hl, e, Or.inl he, hm⟩
    · exact Or.inr ⟨l, hl, hm⟩
    · exact Or.inl ⟨l, hl, e, Or.inr (Or.inr he), hm⟩
  · rintro (⟨l, hl, e, he | rfl | he, hm⟩ | ⟨l, hl, hm⟩)
    · exact ⟨l, hl, e, Or.inl he, hm⟩
    · rw [marks_ask] at hm
      cases hm
    · exact ⟨l, hl, e, Or.inr (Or.inr he), hm⟩
    · exact ⟨l, hl, e', Or.inr (Or.inl rfl), hm⟩

variable {start s s' : σ}

/-- What it takes for nothing to be lost when an errand goes on. -/
theorem Lawful.replace_iff (h : Lawful start ⟨s, pre ++ ⟨u, .ask r next⟩ :: post⟩) :
    Lawful start ⟨s', pre ++ e' :: post⟩ ↔
      (∀ x, countOf (entryOf s' x) = min (countOf (entryOf start x) +
        misses x (pre ++ ⟨u, .ask r next⟩ :: post) + (e'.records x).toNat) maxCount) ∧
      (∀ x v, entryOf s' x = some v → (v.mastered = true ↔
        ((entryOf start x).any Mistake.mastered = true ∨
          Marked v.id (pre ++ ⟨u, .ask r next⟩ :: post)) ∨ ∃ l, v.id = some l ∧ e'.marks l = true)) ∧
      e'.conflicts = false := by
  have hmisses : ∀ x, countOf (entryOf start x) + misses x (pre ++ e' :: post) =
      countOf (entryOf start x) + misses x (pre ++ ⟨u, .ask r next⟩ :: post) +
        (e'.records x).toNat := fun x => by rw [misses_replace, Nat.add_assoc]
  have hmarked : ∀ x id, (entryOf start x).any Mistake.mastered = true ∨
        Marked id (pre ++ e' :: post) ↔ ((entryOf start x).any Mistake.mastered = true ∨
          Marked id (pre ++ ⟨u, .ask r next⟩ :: post)) ∨ ∃ l, id = some l ∧ e'.marks l = true :=
    fun x id => by rw [marked_replace, or_assoc]
  constructor
  · intro h'
    refine ⟨fun x => ?_, fun x v hv => ?_, h'.granted e' (by simp)⟩
    · rw [h'.counts x, hmisses]
    · rw [h'.marks x v hv, hmarked]
  · rintro ⟨hcounts, hmarks, hgranted⟩
    refine ⟨fun x => ?_, fun x v hv => ?_, forall_mem_replace h.granted hgranted⟩
    · rw [hcounts x, hmisses]
    · rw [hmarks x v hv, hmarked]

/-- Looking an entry up loses nothing, nor does finding it marked. -/
theorem Lawful.looked (h : Lawful start ⟨s, pre ++ ⟨u, .ask r next⟩ :: post⟩)
    (hrecords : ∀ x, e'.records x = false)
    (hmarks : ∀ x v l, entryOf s x = some v → v.id = some l → e'.marks l = true → v.mastered = true)
    (hgranted : e'.conflicts = false) : Lawful start ⟨s, pre ++ e' :: post⟩ := by
  refine h.replace_iff.mpr ⟨fun x => ?_, fun x v hv => ?_, hgranted⟩
  · rw [hrecords]
    exact h.counts x
  · constructor
    · exact fun hm => Or.inl ((h.marks x v hv).mp hm)
    · rintro (hm | ⟨l, hl, hm⟩)
      · exact (h.marks x v hv).mpr hm
      · exact hmarks x v l hv hl hm

/-- The first miss of an expression is recorded. -/
theorem Lawful.entered {a : Answer} {id : MistakeId} {reply : Reply}
    (h : Lawful start ⟨s, pre ++ ⟨u, .ask r next⟩ :: post⟩)
    (hstart : ∀ x v, entryOf start x = some v → 1 ≤ v.count) (hnew : entryOf s a.expression = none)
    (hfresh : ¬Marked (some id) (pre ++ ⟨u, .ask r next⟩ :: post))
    (hentry : ∀ x, entryOf s' x =
      if a.expression = x then some ((Mistake.first a).withId id) else entryOf s x) :
    Lawful start ⟨s', pre ++ ⟨.miss a, .done (.ok reply)⟩ :: post⟩ := by
  have hzero : countOf (entryOf start a.expression) +
      misses a.expression (pre ++ ⟨u, .ask r next⟩ :: post) = 0 := by
    have hcount := h.counts a.expression
    have hmax : 0 < maxCount := by decide
    rw [show entryOf s a.expression = none from hnew, show countOf none = 0 from rfl] at hcount
    dsimp only at hcount
    omega
  have hnone : entryOf start a.expression = none := by
    cases hfirst : entryOf start a.expression with
    | none => rfl
    | some v =>
      have hcount := hstart _ v hfirst
      rw [hfirst, show countOf (some v) = v.count from rfl] at hzero
      omega
  refine h.replace_iff.mpr ⟨fun x => ?_, fun x v hv => ?_, rfl⟩
  · rw [hentry]
    split
    case isTrue hx =>
      subst hx
      rw [hzero, show Errand.records a.expression ⟨.miss a, .done (.ok reply)⟩ = true from
        beq_self_eq_true _]
      rfl
    case isFalse hx =>
      rw [show Errand.records x ⟨.miss a, .done (.ok reply)⟩ = false from beq_false_of_ne hx]
      exact h.counts x
  · rw [hentry] at hv
    split at hv
    case isTrue hx =>
      subst hx
      cases hv
      constructor
      · exact fun hm => nomatch hm
      · rintro ((hm | hm) | ⟨l, -, hm⟩)
        · rw [hnone] at hm
          cases hm
        · exact absurd hm hfresh
        · cases hm
    case isFalse =>
      rw [h.marks x v hv]
      exact ⟨Or.inl, fun hm => hm.elim (fun hm => hm) fun ⟨_, _, hm⟩ => nomatch hm⟩

/-- An entry is handed in for one with the same number. It must have the count and the mark that come of
the one that is there. -/
theorem Lawful.replaced_iff {v old w : Mistake} {id : MistakeId}
    (h : Lawful start ⟨s, pre ++ ⟨u, .ask r next⟩ :: post⟩)
    (hold : entryOf s v.expression = some old) (hid : v.id = some id) (hown : old.id = some id)
    (hapart : ∀ x w, entryOf s x = some w → w.id = some id → x = v.expression)
    (hentry : ∀ x, entryOf s' x = if v.expression = x then some v else entryOf s x)
    (hrecords : ∀ x, v.expression ≠ x → e'.records x = false)
    (hmarks : ∀ l, l ≠ id → e'.marks l = false) (hgranted : e'.conflicts = false)
    (hcount : w.count = min (old.count + (e'.records v.expression).toNat) maxCount)
    (hmark : w.mastered = true ↔ old.mastered = true ∨ e'.marks id = true) :
    Lawful start ⟨s', pre ++ e' :: post⟩ ↔ v.count = w.count ∧ v.mastered = w.mastered := by
  have hself : entryOf s' v.expression = some v := by rw [hentry, if_pos rfl]
  have hmarked : (∃ l, v.id = some l ∧ e'.marks l = true) ↔ e'.marks id = true := by
    rw [hid]
    exact ⟨fun ⟨_, hl, hm⟩ => Option.some.inj hl ▸ hm, fun hm => ⟨id, rfl, hm⟩⟩
  have hmarkedBefore := h.marks v.expression old hold
  rw [hown, ← hid] at hmarkedBefore
  rw [hmarkedBefore, ← hmarked] at hmark
  have hcountBefore := h.counts v.expression
  dsimp only at hcountBefore
  rw [hold, show countOf (some old) = old.count from rfl] at hcountBefore
  have hcount : w.count = min (countOf (entryOf start v.expression) +
      misses v.expression (pre ++ ⟨u, .ask r next⟩ :: post) +
        (e'.records v.expression).toNat) maxCount := by omega
  have hmark : v.mastered = w.mastered ↔ (v.mastered = true ↔
      ((entryOf start v.expression).any Mistake.mastered = true ∨
        Marked v.id (pre ++ ⟨u, .ask r next⟩ :: post)) ∨ ∃ l, v.id = some l ∧ e'.marks l = true) := by
    rw [Bool.eq_iff_iff, hmark]
  rw [h.replace_iff, hmark, hcount]
  constructor
  · rintro ⟨hcounts, hafter, -⟩
    have hcountAfter := hcounts v.expression
    rw [hself] at hcountAfter
    exact ⟨hcountAfter, hafter v.expression v hself⟩
  · rintro ⟨hcountAfter, hmarkAfter⟩
    refine ⟨fun x => ?_, fun x z hz => ?_, hgranted⟩
    · rw [hentry]
      split
      case isTrue hx => exact hx ▸ hcountAfter
      case isFalse hx =>
        rw [hrecords x hx]
        exact h.counts x
    · rw [hentry] at hz
      split at hz
      case isTrue hx =>
        cases hz
        exact hx ▸ hmarkAfter
      case isFalse hx =>
        rw [h.marks x z hz]
        refine ⟨Or.inl, fun hm => hm.elim (fun hm => hm) fun ⟨l, hl, hm⟩ => ?_⟩
        by_cases hlid : l = id
        · exact absurd (hapart x z hz (hlid ▸ hl)).symm hx
        · rw [hmarks l hlid] at hm
          cases hm

end Replace

/-! ### One request -/

section Serve

variable {s s' : σ} {e e' : Errand} {pre post : List Errand} {v : Mistake}

/-- Each entry goes on under its number. -/
def Grows (s s' : σ) : Prop :=
  ∀ x v, entryOf s x = some v → ∃ w, entryOf s' x = some w ∧ w.id = v.id ∧ w.firstAt = v.firstAt

theorem Grows.refl (s : σ) : Grows s s :=
  fun _ v hv => ⟨v, hv, rfl, rfl⟩

theorem Fits.mono (hv : Fits s v) (hg : Grows s s') : Fits s' v := by
  refine ⟨hv.counted, fun id hid => ?_⟩
  obtain ⟨old, hold, hown, hfirst⟩ := hv.known id hid
  obtain ⟨w, hw, hwid, hwfirst⟩ := hg _ old hold
  exact ⟨w, hw, hwid.trans hown, hwfirst.trans hfirst⟩

theorem Stage.mono (h : Stage s e) (hg : Grows s s') : Stage s' e := by
  cases h with
  | begun u => exact .begun u
  | missing a known next hnext hknown hfits =>
    exact .missing a known next hnext hknown (hfits.mono hg)
  | marking id v next hnext hid hfits => exact .marking id v next hnext hid (hfits.mono hg)
  | ended u r hused =>
    refine .ended u r fun id hm => ?_
    obtain ⟨x, v, hv, hid⟩ := hused id hm
    obtain ⟨w, hw, hwid, -⟩ := hg x v hv
    exact ⟨x, w, hw, hwid.trans hid⟩

theorem Puts.grows {r : Except StorageError MistakeId} (hp : Puts s v r s') (hv : Fits s v) :
    Grows s s' := by
  cases hp with
  | entered id _ hid hnew _ hentry =>
    intro x w hw
    refine ⟨w, ?_, rfl, rfl⟩
    rw [hentry, if_neg, hw]
    rintro rfl
    rw [hnew] at hw
    cases hw
  | replaced id _ hid hentry =>
    intro x w hw
    obtain ⟨old, hold, hown, hfirst⟩ := hv.known id hid
    by_cases hx : v.expression = x
    · subst hx
      rw [hold] at hw
      cases hw
      exact ⟨v, by rw [hentry, if_pos rfl], hid.trans hown.symm, hfirst.symm⟩
    · exact ⟨w, by rw [hentry, if_neg hx, hw], rfl, rfl⟩
  | refused => exact Grows.refl s

theorem stages_replace (h : ∀ d ∈ pre ++ e :: post, Stage s d) (hg : Grows s s')
    (he : Stage s' e') : ∀ d ∈ pre ++ e' :: post, Stage s' d :=
  forall_mem_replace (fun d hd => (h d hd).mono hg) he

theorem getElem?_split : (pre ++ e :: post)[pre.length]? = some e := by
  rw [List.getElem?_append_right (Nat.le_refl _), Nat.sub_self, List.getElem?_cons_zero]

theorem Bench.serve_ask {u : Update} {r : Request}
    {next : Except StorageError r.Reply → Program (Except StorageError Reply)} :
    (⟨s, pre ++ ⟨u, .ask r next⟩ :: post⟩ : Bench σ).serve pre.length =
      ⟨(Store.serve r s).2, pre ++ ⟨u, next (Store.serve r s).1⟩ :: post⟩ := by
  simp [Bench.serve]

theorem Bench.overlooks_iff {u : Update} {w : Mistake}
    {next : Except StorageError MistakeId → Program (Except StorageError Reply)}
    (hdue : u.due s = some w) :
    (⟨s, pre ++ ⟨u, .ask (.putMistake v) next⟩ :: post⟩ : Bench σ).Overlooks pre.length ↔
      ¬(v.id = w.id ∧ v.count = w.count ∧ v.mastered = w.mastered) := by
  constructor
  · rintro ⟨u', v', next', w', he, hw, hne⟩
    simp only [getElem?_split, Option.some.injEq, Errand.mk.injEq, Program.ask.injEq,
      Request.putMistake.injEq] at he
    obtain ⟨rfl, rfl, -⟩ := he
    obtain rfl : w = w' := Option.some.inj (hdue.symm.trans hw)
    exact hne
  · exact fun hne => ⟨u, v, next, w, getElem?_split, hdue, hne⟩

theorem Bench.not_overlooks {b : Bench σ} {i : Nat}
    (h : ∀ u v next, b.errands[i]? ≠ some ⟨u, .ask (.putMistake v) next⟩) : ¬b.Overlooks i :=
  fun ⟨u, v, next, _, he, _⟩ => h u v next he

end Serve

end Notebook

end MentalMath
