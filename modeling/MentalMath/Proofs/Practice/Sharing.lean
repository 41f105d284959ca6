import MentalMath.Proofs.Practice.Effect

/-! Practice runs over one store, with what was written for each of them since the last reset. A run
keeps its number when the store forgets its session, so it may come to know the number of a session
that was written for another run. It is astray then. -/

namespace MentalMath

open SessionTable

/-- Many runs over one store, with what was written since the last reset. -/
structure Shared (σ : Type) where
  store : σ
  /-- The runs in the order in which they were started. -/
  runs : List Tracker
  /-- The numbers under which sessions were written, each with the run that it was done for. -/
  writes : List (SessionId × Nat)
  /-- The numbers under which runs were told that their completed session is stored. -/
  saved : List (SessionId × Nat)
  /-- What runs wrote that were astray. -/
  strays : List (SessionId × Nat)
  /-- The number of runs that were started before the last reset. -/
  before : Nat

namespace Shared

variable {σ : Type}

/-- The number that a run knows. -/
def held? (c : Shared σ) (i : Nat) : Option SessionId :=
  c.runs[i]?.bind Tracker.sessionId?

/-- The run that a session was last written for. -/
def lastWriter? (c : Shared σ) (k : SessionId) : Option Nat :=
  (c.writes.reverse.find? fun w => w.1 == k).map Prod.snd

/-- A run holds its completed session, which knows its number. -/
structure Finished (c : Shared σ) (k : SessionId) (i : Nat) (t : Tracker) (s : Session) : Prop where
  run : c.runs[i]? = some t
  status : t.status = .completed
  session : t.session? = some s
  id : s.id = some k

/-- No session is written for two runs. -/
def Apart (c : Shared σ) : Prop :=
  ∀ k i l, (k, i) ∈ c.writes → (k, l) ∈ c.writes → i = l

variable {c : Shared σ} {i l : Nat} {k : SessionId} {t : Tracker}

theorem held?_eq (ht : c.runs[i]? = some t) : c.held? i = t.sessionId? := by
  rw [held?, ht, Option.bind_some]

theorem exists_lastWriter? (h : (k, i) ∈ c.writes) :
    ∃ l, c.lastWriter? k = some l ∧ (k, l) ∈ c.writes := by
  cases hf : c.writes.reverse.find? fun w => w.1 == k with
  | none =>
    have hne := List.find?_eq_none.mp hf (k, i) (List.mem_reverse.mpr h)
    exact absurd (beq_self_eq_true k) hne
  | some w =>
    obtain ⟨k', l⟩ := w
    obtain rfl : k' = k := eq_of_beq (List.find?_some (p := fun w : SessionId × Nat => w.1 == k) hf)
    have hmem := List.mem_reverse.mp (List.mem_of_find?_eq_some hf)
    exact ⟨l, by rw [lastWriter?, hf, Option.map_some], hmem⟩

/-- A further run, which is not started yet. -/
def enroll (c : Shared σ) : Shared σ :=
  { c with runs := c.runs ++ [.empty] }

theorem runs_enroll_of_some (ht : c.runs[i]? = some t) : c.enroll.runs[i]? = some t := by
  rw [enroll, List.getElem?_append_left (List.getElem?_eq_some_iff.mp ht).1, ht]

theorem runs_enroll_length : c.enroll.runs[c.runs.length]? = some .empty :=
  List.getElem?_concat_length

theorem eq_empty_of_enroll (hnone : c.runs[i]? = none) (ht : c.enroll.runs[i]? = some t) :
    t = .empty := by
  rw [enroll, List.getElem?_append_right (List.getElem?_eq_none_iff.mp hnone)] at ht
  exact List.mem_singleton.mp (List.mem_of_getElem? ht)

theorem held?_enroll : c.enroll.held? i = c.held? i := by
  cases ht : c.runs[i]? with
  | some t => rw [held?_eq ht, held?_eq (runs_enroll_of_some ht)]
  | none =>
    rw [held?, held?, ht]
    cases ht' : c.enroll.runs[i]? with
    | none => rfl
    | some t => rw [eq_empty_of_enroll ht ht']; rfl

variable [SessionTable σ] {result : Report × Tracker} {j : Journal σ}

/-- Whether a run knows the number of a stored session that was never written for it. -/
def isAstray (c : Shared σ) (i : Nat) : Bool :=
  match c.held? i with
  | some k => (numbers c.store).contains k && !c.writes.contains (k, i)
  | none => false

/-- The end of a call of a run, with what it has written. -/
def after (c : Shared σ) (i : Nat) (result : Report × Tracker) (j : Journal σ) : Shared σ :=
  { c with
    store := j.store
    runs := c.runs.set i result.2
    writes := c.writes ++ j.written.map fun k => (k, i)
    saved := c.saved ++ result.1.savedId?.toList.map fun k => (k, i)
    strays := c.strays ++ if c.isAstray i then j.written.map fun k => (k, i) else [] }

/-! What a call makes of the runs and of what was written. -/

theorem runs_after_self (ht : c.runs[i]? = some t) :
    (c.after i result j).runs[i]? = some result.2 :=
  List.getElem?_set_self (List.getElem?_eq_some_iff.mp ht).1

theorem runs_after_of_ne (hne : l ≠ i) : (c.after i result j).runs[l]? = c.runs[l]? :=
  List.getElem?_set_ne hne.symm

theorem mem_append_pairs {pairs : List (SessionId × Nat)} {ids : List SessionId} :
    ((k, l) ∈ pairs ++ ids.map fun k => (k, i)) ↔ (k, l) ∈ pairs ∨ k ∈ ids ∧ l = i := by
  simp only [List.mem_append, List.mem_map, Prod.mk.injEq]
  constructor
  · rintro (h | ⟨k', hk, rfl, rfl⟩)
    · exact Or.inl h
    · exact Or.inr ⟨hk, rfl⟩
  · rintro (h | ⟨hk, rfl⟩)
    · exact Or.inl h
    · exact Or.inr ⟨k, hk, rfl, rfl⟩

theorem mem_writes_after :
    (k, l) ∈ (c.after i result j).writes ↔ (k, l) ∈ c.writes ∨ k ∈ j.written ∧ l = i :=
  mem_append_pairs

theorem mem_saved_after :
    (k, l) ∈ (c.after i result j).saved ↔
      (k, l) ∈ c.saved ∨ result.1.savedId? = some k ∧ l = i := by
  rw [← Option.mem_toList]
  exact mem_append_pairs

/-- The sessions stay apart when another one is written, if it was not written for another run. -/
theorem apart_after_iff {id : SessionId} (hw : j.written = [id]) :
    (c.after i result j).Apart ↔ c.Apart ∧ ∀ l, (id, l) ∈ c.writes → l = i := by
  have hmem : ∀ k l, (k, l) ∈ (c.after i result j).writes ↔ (k, l) ∈ c.writes ∨ k = id ∧ l = i := by
    intro k l
    rw [mem_writes_after, hw, List.mem_singleton]
  constructor
  · intro h
    refine ⟨fun k a b ha hb => ?_, fun l hl => ?_⟩
    · exact h k a b ((hmem k a).mpr (Or.inl ha)) ((hmem k b).mpr (Or.inl hb))
    · exact h id l i ((hmem id l).mpr (Or.inl hl)) ((hmem id i).mpr (Or.inr ⟨rfl, rfl⟩))
  · rintro ⟨h, hid⟩ k a b ha hb
    rw [hmem] at ha hb
    rcases ha with ha | ⟨hka, ha⟩ <;> rcases hb with hb | ⟨hkb, hb⟩
    · exact h k a b ha hb
    · exact (hid a (hkb ▸ ha)).trans hb.symm
    · exact ha.trans (hid b (hka ▸ hb)).symm
    · exact ha.trans hb.symm

theorem lastWriter?_after_of_not_written (hk : k ∉ j.written) :
    (c.after i result j).lastWriter? k = c.lastWriter? k := by
  have hnone : (j.written.map fun k => (k, i)).reverse.find? (fun w => w.1 == k) = none := by
    rw [List.find?_eq_none]
    intro w hw heq
    obtain ⟨k', hk', rfl⟩ := List.mem_map.mp (List.mem_reverse.mp hw)
    exact hk (eq_of_beq heq ▸ hk')
  rw [lastWriter?, after, List.reverse_append, List.find?_append, hnone, Option.none_or]
  rfl

theorem lastWriter?_after_of_written (hk : k ∈ j.written) :
    (c.after i result j).lastWriter? k = some i := by
  have hmem : (k, i) ∈ (j.written.map fun k => (k, i)).reverse :=
    List.mem_reverse.mpr (List.mem_map_of_mem hk)
  rw [lastWriter?, after, List.reverse_append, List.find?_append]
  cases hf : (j.written.map fun k => (k, i)).reverse.find? fun w => w.1 == k with
  | none => exact absurd (beq_self_eq_true k) (List.find?_eq_none.mp hf (k, i) hmem)
  | some w =>
    obtain ⟨k', -, rfl⟩ := List.mem_map.mp (List.mem_reverse.mp (List.mem_of_find?_eq_some hf))
    rfl

/-- A run has stored its completed session, which is as it was unless it was written for another run
since. -/
structure Secured (c : Shared σ) (k : SessionId) (i : Nat) : Prop where
  written : (k, i) ∈ c.writes
  session : ∃ t s, c.Finished k i t s ∧ (c.lastWriter? k = some i → Holds c.store k s)

/-- What holds of a store and its runs after any events. -/
structure Standing (c : Shared σ) : Prop where
  sound : Sound c.store
  known : ∀ k, k ∈ numbers c.store ↔ ∃ i, (k, i) ∈ c.writes
  held : ∀ k i, (k, i) ∈ c.writes → c.held? i = some k
  coherent : ∀ (i : Nat) (t : Tracker), c.runs[i]? = some t → t.Coherent
  saved : ∀ k i, (k, i) ∈ c.saved → c.Secured k i
  recent : ∀ k i, c.before ≤ i → c.held? i = some k → (k, i) ∈ c.writes
  apart : c.strays = [] ↔ c.Apart

namespace Standing

/-- A run that is astray knows the number of a session that was written for another run. -/
theorem isAstray_iff :
    c.isAstray i ↔ ∃ k, c.held? i = some k ∧ k ∈ numbers c.store ∧ (k, i) ∉ c.writes := by
  unfold isAstray
  cases c.held? i with
  | none =>
    constructor
    · intro hastray
      cases hastray
    · rintro ⟨_, hk, -, -⟩
      cases hk
  | some k =>
    simp only [Bool.and_eq_true, Bool.not_eq_true', Option.some.injEq, exists_eq_left',
      List.contains_eq_mem, decide_eq_true_eq, decide_eq_false_iff_not]

variable (h : c.Standing) (ht : c.runs[i]? = some t)
  (hd : Touches c.store t.sessionId? result.2.sessionId? j)
include h ht hd

omit ht in
theorem known_after (k : SessionId) :
    k ∈ numbers (c.after i result j).store ↔ ∃ l, (k, l) ∈ (c.after i result j).writes := by
  show k ∈ numbers j.store ↔ _
  rw [hd.mem_numbers_iff, h.known]
  constructor
  · rintro (⟨l, hl⟩ | hk)
    · exact ⟨l, mem_writes_after.mpr (Or.inl hl)⟩
    · exact ⟨i, mem_writes_after.mpr (Or.inr ⟨hk, rfl⟩)⟩
  · rintro ⟨l, hl⟩
    exact (mem_writes_after.mp hl).imp (fun hl => ⟨l, hl⟩) And.left

theorem held_after (k : SessionId) (l : Nat) (hw : (k, l) ∈ (c.after i result j).writes) :
    (c.after i result j).held? l = some k := by
  by_cases hl : l = i
  · subst hl
    rw [held?_eq (runs_after_self ht)]
    cases mem_writes_after.mp hw with
    | inl hold =>
      have hheld := h.held k l hold
      rw [held?_eq ht] at hheld
      rw [hheld] at hd
      exact hd.now_of_mem ((h.known k).mpr ⟨l, hold⟩)
    | inr hnew => exact hd.now_of_written hnew.1
  · rw [held?, runs_after_of_ne hl]
    cases mem_writes_after.mp hw with
    | inl hold => exact h.held k l hold
    | inr hnew => exact absurd hnew.2 hl

theorem recent_after (k : SessionId) (l : Nat) (hl : c.before ≤ l)
    (hk : (c.after i result j).held? l = some k) : (k, l) ∈ (c.after i result j).writes := by
  rw [mem_writes_after]
  by_cases hne : l = i
  · subst hne
    rw [held?_eq (runs_after_self ht)] at hk
    refine (hd.held_or_new hk).imp (fun hold => h.recent k l hl ?_) fun hnew => ⟨hnew.1, rfl⟩
    rw [held?_eq ht, hold]
  · rw [held?, runs_after_of_ne hne] at hk
    exact Or.inl (h.recent k l hl hk)

omit h hd in
/-- A run that is told that its session is stored has just written it. -/
theorem secured_of_told (hdoes : Call.Does c.store t result j) (hk : result.1.savedId? = some k) :
    (c.after i result j).Secured k i := by
  obtain ⟨hcompleted, hwritten, s, hsession, hid, hholds⟩ := hdoes.saved k hk
  refine ⟨mem_writes_after.mpr (Or.inr ⟨?_, rfl⟩), result.2, s, ?_, fun _ => hholds⟩
  · rw [hwritten]
    exact List.mem_singleton_self k
  · exact ⟨runs_after_self ht, hcompleted, hsession, hid⟩

omit hd in
/-- A stored session stays secured. Its run writes it again as it is, if at all; when another run
writes it, nothing is claimed of it any more. -/
theorem secured_after (hdoes : Call.Does c.store t result j)
    (hstays : t.status = .completed → result.2.withoutId = t.withoutId)
    (hs : c.Secured k l) : (c.after i result j).Secured k l := by
  obtain ⟨hw, t', s, ⟨hrun, hcompleted, hsession, hid⟩, hholds⟩ := hs
  have hkept : k ∉ j.written → (c.after i result j).lastWriter? k = some l →
      Holds (c.after i result j).store k s := by
    intro hk hlast
    rw [lastWriter?_after_of_not_written hk] at hlast
    exact hdoes.touches.holds hk (hholds hlast)
  by_cases hl : l = i
  · subst hl
    obtain rfl : t' = t := Option.some.inj (hrun.symm.trans ht)
    by_cases hk : k ∈ j.written
    · exact secured_of_told ht hdoes (hdoes.told hcompleted k hk)
    -- the number is in use, so the run keeps it, and a completed run keeps everything else
    · have hheld := h.held k l hw
      rw [held?_eq ht] at hheld
      have hnow : result.2.sessionId? = some k := by
        have htouches := hdoes.touches
        rw [hheld] at htouches
        exact htouches.now_of_mem ((h.known k).mpr ⟨l, hw⟩)
      have hsame := Tracker.eq_of_withoutId (hstays hcompleted) (hnow.trans hheld.symm)
      refine ⟨mem_writes_after.mpr (Or.inl hw), t', s, ?_, hkept hk⟩
      exact ⟨hsame ▸ runs_after_self ht, hcompleted, hsession, hid⟩
  · refine ⟨mem_writes_after.mpr (Or.inl hw), t', s, ?_, fun hlast => ?_⟩
    · exact ⟨(runs_after_of_ne hl).trans hrun, hcompleted, hsession, hid⟩
    · refine hkept (fun hk => hl ?_) hlast
      exact Option.some.inj (hlast.symm.trans (lastWriter?_after_of_written hk))

/-- A session is written for a second run exactly when a run that is astray writes. -/
theorem apart_after : (c.after i result j).strays = [] ↔ (c.after i result j).Apart := by
  cases hd with
  | quiet hq hid =>
    have hstrays : (c.after i result j).strays = c.strays := by simp [after, hq.written]
    have hwrites : (c.after i result j).writes = c.writes := by simp [after, hq.written]
    rw [hstrays, h.apart, Apart, Apart, hwrites]
  | inserted id hi hid hgone =>
    have hastray : c.isAstray i = false := by
      rw [← Bool.not_eq_true, isAstray_iff]
      rintro ⟨k, hk, hmem, -⟩
      exact hgone k ((held?_eq ht).symm.trans hk) hmem
    have hstrays : (c.after i result j).strays = c.strays := by simp [after, hastray]
    rw [hstrays, h.apart, apart_after_iff hi.written]
    refine ⟨fun hapart => ⟨hapart, fun l hl => ?_⟩, And.left⟩
    exact absurd ((h.known id).mpr ⟨l, hl⟩) hi.new
  | rewritten id hr hheld hid =>
    -- the session was written for some run before; it is this one unless the run is astray
    obtain ⟨l₀, hl₀⟩ := (h.known id).mp hr.there
    rw [apart_after_iff hr.written]
    by_cases hown : (id, i) ∈ c.writes
    · have hastray : c.isAstray i = false := by
        rw [← Bool.not_eq_true, isAstray_iff, held?_eq ht, hheld]
        rintro ⟨k, hk, -, hnot⟩
        exact hnot (Option.some.inj hk ▸ hown)
      have hstrays : (c.after i result j).strays = c.strays := by simp [after, hastray]
      rw [hstrays, h.apart]
      exact ⟨fun hapart => ⟨hapart, fun l hl => hapart id l i hl hown⟩, And.left⟩
    · have hastray : c.isAstray i = true :=
        isAstray_iff.mpr ⟨id, (held?_eq ht).trans hheld, hr.there, hown⟩
      have hstrays : (c.after i result j).strays ≠ [] := by simp [after, hastray, hr.written]
      refine ⟨fun hnil => absurd hnil hstrays, fun hapart => absurd ?_ hown⟩
      exact hapart.2 l₀ hl₀ ▸ hl₀

omit hd in
/-- A call keeps what holds of a store and its runs. -/
theorem after (hdoes : Call.Does c.store t result j)
    (hstays : t.status = .completed → result.2.withoutId = t.withoutId)
    (hcoherent : result.2.Coherent) : (c.after i result j).Standing where
  sound := hdoes.touches.sound
  known := h.known_after hdoes.touches
  held := h.held_after ht hdoes.touches
  coherent l t' hl := by
    by_cases hne : l = i
    · subst hne
      rw [runs_after_self ht] at hl
      exact Option.some.inj hl ▸ hcoherent
    · rw [runs_after_of_ne hne] at hl
      exact h.coherent l t' hl
  saved k l hs := by
    cases mem_saved_after.mp hs with
    | inl hold => exact h.secured_after ht hdoes hstays (h.saved k l hold)
    | inr hnew =>
      obtain ⟨hk, rfl⟩ := hnew
      exact secured_of_told ht hdoes hk
  recent := h.recent_after ht hdoes.touches
  apart := h.apart_after ht hdoes.touches

end Standing

/-- Where nothing was written since the last reset, the runs are all from before it. -/
theorem standing_blank {m : σ} {runs : List Tracker} (hm : Sound m) (hnone : numbers m = [])
    (hruns : ∀ (i : Nat) (t : Tracker), runs[i]? = some t → t.Coherent) :
    Standing ⟨m, runs, [], [], [], runs.length⟩ where
  sound := hm
  known k := by
    rw [hnone]
    constructor
    · intro hmem
      cases hmem
    · rintro ⟨_, hw⟩
      cases hw
  held _ _ h := by cases h
  coherent := hruns
  saved _ _ h := by cases h
  recent k i hi hk := by
    have hk : runs[i]?.bind Tracker.sessionId? = some k := hk
    rw [List.getElem?_eq_none_iff.mpr hi] at hk
    cases hk
  apart := ⟨fun _ _ _ _ h => (by cases h), fun _ => rfl⟩

/-- A further run changes nothing for the others. -/
theorem Standing.enroll (h : c.Standing) : c.enroll.Standing where
  sound := h.sound
  known := h.known
  held k l hw := held?_enroll.trans (h.held k l hw)
  coherent l t' hl := by
    cases ht : c.runs[l]? with
    | some t =>
      rw [runs_enroll_of_some ht] at hl
      exact Option.some.inj hl ▸ h.coherent l t ht
    | none => exact eq_empty_of_enroll ht hl ▸ Tracker.coherent_empty
  saved k l hs := by
    obtain ⟨hw, t, s, ⟨hrun, hstatus, hsession, hid⟩, hholds⟩ := h.saved k l hs
    exact ⟨hw, t, s, ⟨runs_enroll_of_some hrun, hstatus, hsession, hid⟩, hholds⟩
  recent k l hl hk := h.recent k l hl (held?_enroll.symm.trans hk)
  apart := h.apart

end Shared

end MentalMath
