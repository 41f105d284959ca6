import MentalMath.Proofs.Practice.Sharing
import MentalMath.Proofs.Storage.Memory
import MentalMath.Proofs.Storage.Relational.Requests
import MentalMath.Service.Settings

/-! Runs over one store with resets in between, at the grain of whole calls. What was written for a run
is written for no other one as long as numbers are not given out twice. A store made of tables gives
them out again after a reset: it goes wrong when a run from before the reset writes under a number that
another run has got since, and only then. -/

namespace MentalMath

open SessionTable
open Program (Served)

/-- What happens next. -/
inductive Event where
  | start (g : Generator) (category : Category) (count : Nat) (now : Instant)
  /-- A client makes a call that goes on with its run. -/
  | call (run : Nat) (call : Call) (hcall : call.GoesOn)
  | reset (now : Instant)

namespace Shared

variable {σ : Type} [SessionTable σ] {c c' : Shared σ} {i l : Nat} {k : SessionId} {t : Tracker}

variable [Store σ]

/-- A call of a run that has begun, served to its end. -/
def answer (c : Shared σ) (i : Nat) (u : Underway) : Shared σ :=
  let (result, j) := u.program.run (Journal.mk c.store [])
  c.after i result j

theorem store_answer (c : Shared σ) (i : Nat) (u : Underway) :
    (c.answer i u).store = (u.program.run c.store).2 :=
  (Journal.run_store u.program ⟨c.store, []⟩).2

/-- All data back at the start. The runs keep the numbers that they know. -/
def reset (c : Shared σ) (now : Instant) : Shared σ :=
  { c with
    store := ((Settings.resetAll now).run.run c.store).2
    writes := []
    saved := []
    strays := []
    before := c.runs.length }

/-- The next event. A call of a run that was not started does nothing. -/
def react : Event → Shared σ → Checked (Shared σ)
  | .start g category count now, c => do
    let (u, _) ← (Call.start category count now).begin g .empty
    return c.enroll.answer c.runs.length u
  | .call i call _, c =>
    match c.runs[i]? with
    | none => .ok c
    | some t => do
      let (u, _) ← call.begin (.listed []) t
      return c.answer i u
  | .reset now, c => .ok (c.reset now)

/-- What a store comes to with its runs, from nothing on. -/
inductive Reachable : Shared σ → Prop
  | start : Reachable ⟨empty, [], [], [], [], 0⟩
  | step {c c' : Shared σ} (e : Event) (h : Reachable c) (he : c.react e = .ok c') : Reachable c'

def follow : List Event → Shared σ → Checked (Shared σ)
  | [], c => .ok c
  | e :: events, c => do follow events (← c.react e)

theorem Reachable.follow {c c' : Shared σ} {events : List Event} (h : c.Reachable)
    (hf : (follow events c).toOption = some c') : c'.Reachable := by
  induction events generalizing c with
  | nil =>
    cases hf
    exact h
  | cons e events ih =>
    cases he : c.react e with
    | error f => simp [Shared.follow, he, bind, Except.bind, Except.toOption] at hf
    | ok next =>
      simp only [Shared.follow, he, bind, Except.bind] at hf
      exact ih (.step e h he) hf

/-- What the next event makes of a store and its runs. -/
inductive Proceeds (c : Shared σ) : Event → Shared σ → Prop
  | started (g : Generator) (category : Category) (count : Nat) (now : Instant) (u : Underway)
      (hb : Call.Begins .empty (.start category count now) u) :
    Proceeds c (.start g category count now) (c.enroll.answer c.runs.length u)
  | absent (i : Nat) (call : Call) (hcall : call.GoesOn) : Proceeds c (.call i call hcall) c
  | called (i : Nat) (call : Call) (hcall : call.GoesOn) (t : Tracker) (u : Underway)
      (ht : c.runs[i]? = some t) (hb : Call.Begins t call u) :
    Proceeds c (.call i call hcall) (c.answer i u)
  | reset (now : Instant) : Proceeds c (.reset now) (c.reset now)

theorem proceeds_of_react {e : Event} (he : c.react e = .ok c') : c.Proceeds e c' := by
  cases e with
  | start g category count now =>
    cases hb : (Call.start category count now).begin g .empty with
    | error f => simp [react, hb, bind, Except.bind] at he
    | ok begun =>
      simp only [react, hb, bind, Except.bind] at he
      cases he
      exact .started g category count now begun.1 (Call.begins_of_begin hb)
  | call i call hcall =>
    simp only [react] at he
    cases ht : c.runs[i]? with
    | none =>
      rw [ht] at he
      cases he
      exact .absent i call hcall
    | some t =>
      cases hb : call.begin (.listed []) t with
      | error f => simp [ht, hb, bind, Except.bind] at he
      | ok begun =>
        simp only [ht, hb, bind, Except.bind] at he
        cases he
        exact .called i call hcall t begun.1 ht (Call.begins_of_begin hb)
  | reset now =>
    cases he
    exact .reset now

section Steps

variable [LawfulSessionTable σ]

open LawfulSessionTable

/-- A reset leaves no session. -/
theorem numbers_resetAll (now : Instant) {m : σ} (hm : Sound m) :
    (Settings.resetAll now).run.Always Served (fun _ => True)
      (fun _ m' => Sound m' ∧ numbers m' = []) m := by
  have hother : ∀ {r : Request} {m m' : σ} {reply : Except StorageError r.Reply},
      Sound m ∧ numbers m = [] → Served r m reply m' → r.kind.writesSessions = false →
        Sound m' ∧ numbers m' = [] := by
    intro r m m' reply h ht hr
    obtain rfl : (Store.serve r m).2 = m' := congrArg Prod.snd ht
    exact ⟨sound_serve r h.1, (numbers_of_other h.1 hr).trans h.2⟩
  refine ⟨True.intro, fun reply m₁ ht₁ => ?_⟩
  have h₁ : Sound m₁ ∧ numbers m₁ = [] := by
    obtain rfl : (Store.serve .deleteSessions m).2 = m₁ := congrArg Prod.snd ht₁
    exact ⟨sound_serve .deleteSessions hm, numbers_delete hm⟩
  cases reply with
  | error e => exact h₁
  | ok sessions =>
  refine ⟨True.intro, fun reply m₂ ht₂ => ?_⟩
  have h₂ := hother h₁ ht₂ rfl
  cases reply with
  | error e => exact h₂
  | ok mistakes =>
  refine ⟨True.intro, fun reply m₃ ht₃ => ?_⟩
  have h₃ := hother h₂ ht₃ rfl
  cases reply with
  | error e => exact h₃
  | ok saved => exact h₃

/-- A call that has begun does to the store what calls do, and keeps what holds of a store and its
runs. -/
theorem Standing.answer {call : Call} {u : Underway} (h : c.Standing) (ht : c.runs[i]? = some t)
    (hb : Call.Begins t call u) (hcall : call.GoesOn ∨ t = .empty) :
    (c.answer i u).Standing ∧ ∃ result j, c.answer i u = c.after i result j ∧
      Call.Does c.store t result j := by
  have hdoes := (hb.does hcall h.sound).run
  have hends := hb.ends.run (Journal.mk c.store [])
  generalize hrun : u.program.run (Journal.mk c.store []) = served at hdoes hends
  have heq : c.answer i u = c.after i served.1 served.2 := by
    rw [Shared.answer, hrun]
  rw [heq]
  refine ⟨h.after ht hdoes (fun hc => ?_) ?_, served.1, served.2, rfl, hdoes⟩
  · rcases hcall with hcall | rfl
    · rw [hends, hb.standing_of_completed hcall hc]
    · cases hc
  · exact (hb.coherent (h.coherent i t ht)).of_withoutId hends

theorem Standing.reset (h : c.Standing) (now : Instant) : (c.reset now).Standing := by
  obtain ⟨hsound, hnone⟩ := (numbers_resetAll now h.sound).run
  exact standing_blank hsound hnone h.coherent

theorem Standing.proceeds {e : Event} (h : c.Standing) (hp : c.Proceeds e c') : c'.Standing := by
  cases hp with
  | started g category count now u hb =>
    exact (h.enroll.answer runs_enroll_length hb (Or.inr rfl)).1
  | absent i call hcall => exact h
  | called i call hcall t u ht hb => exact (h.answer ht hb (Or.inl hcall)).1
  | reset now => exact h.reset now

theorem Reachable.standing (h : c.Reachable) : c.Standing := by
  induction h with
  | start => exact standing_blank sound_empty numbers_empty fun _ _ ht => by cases ht
  | step e _ he ih => exact ih.proceeds (proceeds_of_react he)

/-- A run gets its completed session back as it is. -/
def Returns (c : Shared σ) (k : SessionId) (i : Nat) : Prop :=
  ∃ t s, c.Finished k i t s ∧ (Store.serve (.getSession k) c.store).1 = .ok ((shown σ s).withId k)

/-- The sessions of the runs are kept apart, and a run whose completed session is stored gets it
back. -/
structure Lawful (c : Shared σ) : Prop where
  apart : c.Apart
  returned : ∀ k i, (k, i) ∈ c.saved → c.Returns k i

/-- How it comes that the sessions of the runs are kept apart or are not. -/
structure Traced (c : Shared σ) : Prop where
  untouched : ∀ e c', c.react e = .ok c' → (∀ now, e ≠ .reset now) →
    ∃ w, c'.writes = c.writes ++ w ∧
      ∀ k s, Holds c.store k s → (∀ i, (k, i) ∉ w) → Holds c'.store k s
  broken : ∀ e c', c.Lawful → c.react e = .ok c' → (¬c'.Lawful ↔
    ∃ i call hcall, e = .call i call hcall ∧ c.isAstray i ∧ c'.writes ≠ c.writes)
  returned : ∀ k i, (k, i) ∈ c.saved → c.lastWriter? k = some i → c.Returns k i
  older : ∀ i, c.isAstray i → i < c.before

theorem Standing.untouched {e : Event} (h : c.Standing) (hp : c.Proceeds e c')
    (he : ∀ now, e ≠ .reset now) : ∃ w, c'.writes = c.writes ++ w ∧
      ∀ k s, Holds c.store k s → (∀ i, (k, i) ∉ w) → Holds c'.store k s := by
  have hafter : ∀ {i : Nat} {t : Tracker} {result : Report × Tracker} {j : Journal σ},
      Call.Does c.store t result j → ∀ k s, Holds c.store k s →
        (∀ l, (k, l) ∉ j.written.map fun k => (k, i)) → Holds j.store k s := by
    intro i t result j hdoes k s hs hnot
    exact hdoes.touches.holds (fun hk => hnot i (List.mem_map_of_mem hk)) hs
  cases hp with
  | started g category count now u hb =>
    obtain ⟨-, result, j, heq, hdoes⟩ := h.enroll.answer runs_enroll_length hb (Or.inr rfl)
    rw [heq]
    exact ⟨_, rfl, hafter hdoes⟩
  | absent i call hcall => exact ⟨[], (List.append_nil _).symm, fun _ _ hs _ => hs⟩
  | called i call hcall t u ht hb =>
    obtain ⟨-, result, j, heq, hdoes⟩ := h.answer ht hb (Or.inl hcall)
    rw [heq]
    exact ⟨_, rfl, hafter hdoes⟩
  | reset now => exact absurd rfl (he now)

/-- The run for which a session was written last gets it back. -/
theorem Standing.returned (h : c.Standing) (hs : (k, i) ∈ c.saved)
    (hlast : c.lastWriter? k = some i) : c.Returns k i := by
  obtain ⟨t, s, hfinished, hholds⟩ := (h.saved k i hs).session
  have hcoherent := h.coherent i t hfinished.run s hfinished.session
  exact ⟨t, s, hfinished, get_of_holds h.sound (hholds hlast) hcoherent⟩

theorem Standing.lawful (h : c.Standing) (hapart : c.Apart) : c.Lawful := by
  refine ⟨hapart, fun k i hs => h.returned hs ?_⟩
  have hw := (h.saved k i hs).written
  obtain ⟨l, hlast, hl⟩ := exists_lastWriter? hw
  rw [hlast, hapart k i l hw hl]

theorem Standing.lawful_iff (h : c.Standing) : c.Lawful ↔ c.strays = [] :=
  Iff.trans ⟨Lawful.apart, h.lawful⟩ h.apart.symm

/-- The sessions of the runs stop being kept apart exactly when a run writes that is astray. -/
theorem Standing.broken {e : Event} (h : c.Standing) (hl : c.Lawful) (hp : c.Proceeds e c') :
    ¬c'.Lawful ↔ ∃ i call hcall, e = .call i call hcall ∧ c.isAstray i ∧ c'.writes ≠ c.writes := by
  rw [(h.proceeds hp).lawful_iff]
  have hnil := h.lawful_iff.mp hl
  cases hp with
  | started g category count now u hb =>
    obtain ⟨-, result, j, heq, -⟩ := h.enroll.answer runs_enroll_length hb (Or.inr rfl)
    have hastray : c.enroll.isAstray c.runs.length = false := by
      rw [isAstray, held?_eq runs_enroll_length]
      rfl
    have hstrays : (c.enroll.after c.runs.length result j).strays = [] := by
      rw [Shared.after, hastray, if_neg Bool.false_ne_true, List.append_nil]
      exact hnil
    rw [heq]
    constructor
    · exact absurd hstrays
    · rintro ⟨_, _, _, he, _⟩
      cases he
  | absent i call hcall =>
    constructor
    · exact absurd hnil
    · rintro ⟨_, _, _, _, _, hne⟩
      exact absurd rfl hne
  | called i call hcall t u ht hb =>
    obtain ⟨-, result, j, heq, -⟩ := h.answer ht hb (Or.inl hcall)
    have hstrays : (c.after i result j).strays ≠ [] ↔
        c.isAstray i ∧ (c.after i result j).writes ≠ c.writes := by
      cases hastray : c.isAstray i <;> simp [Shared.after, hnil, hastray]
    rw [heq]
    refine hstrays.trans ⟨fun hs => ⟨i, call, hcall, rfl, hs⟩, ?_⟩
    rintro ⟨l, _, _, he, hs⟩
    cases he
    exact hs
  | reset now =>
    constructor
    · exact absurd rfl
    · rintro ⟨_, _, _, he, _⟩
      cases he

theorem Standing.traced (h : c.Standing) : c.Traced where
  untouched _ _ he hreset := h.untouched (proceeds_of_react he) hreset
  broken _ _ hl he := h.broken hl (proceeds_of_react he)
  returned _ _ := h.returned
  older i hi := by
    obtain ⟨k, hk, -, hnot⟩ := Standing.isAstray_iff.mp hi
    exact Nat.lt_of_not_le fun hle => hnot (h.recent k i hle hk)

end Steps

/-! A store that never gives a number out again. -/

section Memory

variable {c c' : Shared Memory}

/-- No two runs know the same number, and none knows one that was not given out. -/
structure Fresh (c : Shared Memory) : Prop where
  given : ∀ i k, c.held? i = some k → k.value ≤ c.store.lastNumber
  own : ∀ i l k, c.held? i = some k → c.held? l = some k → i = l

theorem Fresh.apart (h : c.Fresh) (hs : c.Standing) : c.Apart :=
  fun k i l hi hl => h.own i l k (hs.held k i hi) (hs.held k l hl)

theorem Fresh.after {result : Report × Tracker} {j : Journal Memory} (h : c.Fresh)
    (ht : c.runs[i]? = some t) (hd : Touches c.store t.sessionId? result.2.sessionId? j)
    (hgrows : c.store.Grows j.store) : (c.after i result j).Fresh := by
  have hold : ∀ l k, (c.after i result j).held? l = some k →
      c.held? l = some k ∨ l = i ∧ c.store.lastNumber < k.value ∧ k.value ≤ j.store.lastNumber := by
    intro l k hk
    by_cases hl : l = i
    · subst hl
      rw [held?_eq (runs_after_self ht)] at hk
      rw [held?_eq ht]
      apply (hd.held_or_new hk).imp_right
      rintro ⟨hw, hnew⟩
      have hmem := hd.mem_numbers_iff.mpr (Or.inr hw)
      exact ⟨rfl, (hgrows.fresh k hmem).resolve_left hnew, hgrows.sound.given k hmem⟩
    · rw [held?, runs_after_of_ne hl] at hk
      exact Or.inl hk
  constructor
  · intro l k hk
    rcases hold l k hk with hk | ⟨-, -, hle⟩
    · exact Nat.le_trans (h.given l k hk) hgrows.le
    · exact hle
  · intro a b k ha hb
    rcases hold a k ha with ha' | ⟨hai, hlt, -⟩ <;> rcases hold b k hb with hb' | ⟨hbi, hlt', -⟩
    · exact h.own a b k ha' hb'
    · exact absurd (h.given a k ha') (Nat.not_le_of_lt hlt')
    · exact absurd (h.given b k hb') (Nat.not_le_of_lt hlt)
    · rw [hai, hbi]

theorem Fresh.proceeds {e : Event} (h : c.Fresh) (hs : c.Standing) (hp : c.Proceeds e c') :
    c'.Fresh := by
  cases hp with
  | started g category count now u hb =>
    obtain ⟨-, result, j, heq, hdoes⟩ := hs.enroll.answer runs_enroll_length hb (Or.inr rfl)
    have hgrows := Memory.grows_run u.program hs.enroll.sound
    rw [← store_answer c.enroll c.runs.length u, heq] at hgrows
    have henrolled : c.enroll.Fresh := by
      constructor
      · intro i k hk
        exact h.given i k (held?_enroll.symm.trans hk)
      · intro i l k hi hl
        exact h.own i l k (held?_enroll.symm.trans hi) (held?_enroll.symm.trans hl)
    exact heq ▸ henrolled.after runs_enroll_length hdoes.touches hgrows
  | absent i call hcall => exact h
  | called i call hcall t u ht hb =>
    obtain ⟨-, result, j, heq, hdoes⟩ := hs.answer ht hb (Or.inl hcall)
    have hgrows := Memory.grows_run u.program hs.sound
    rw [← store_answer c i u, heq] at hgrows
    exact heq ▸ h.after ht hdoes.touches hgrows
  | reset now =>
    have hgrows := Memory.grows_run (Settings.resetAll now).run hs.sound
    exact ⟨fun i k hk => Nat.le_trans (h.given i k hk) hgrows.le, h.own⟩

theorem Reachable.fresh (h : c.Reachable) : c.Fresh := by
  induction h with
  | start => exact ⟨fun _ _ hk => (by cases hk), fun _ _ _ hk => by cases hk⟩
  | step e h he ih => exact ih.proceeds h.standing (proceeds_of_react he)

end Memory

/-- A run is astray over tables exactly if it knows a number that was given out since the last reset,
but not to it. -/
theorem Standing.isAstray_database_iff {c : Shared Database} (h : c.Standing) :
    c.isAstray i ↔ ∃ k, c.held? i = some k ∧
      1 ≤ k.value ∧ k.value ≤ c.store.sessions.length ∧ (k, i) ∉ c.writes := by
  have hmem : ∀ k : SessionId, k ∈ numbers c.store ↔
      1 ≤ k.value ∧ k.value ≤ c.store.sessions.length := by
    intro k
    rw [Database.Sound.mem_numbers_iff h.sound, Database.sessionRow?_isSome_iff,
      Database.Sound.mem_ids_iff h.sound]
    omega
  simp only [Standing.isAstray_iff, hmem, and_assoc]

/-- Over a store made of tables the sessions of the runs are kept apart, and runs get their completed
sessions back, exactly if since the last reset no run has written that was astray: one from before it,
whose number was given out again and which has not stored its session since. Over a store that holds
its values as they are this is always so. -/
theorem lawful_unless_astray {c : Shared Database} (h : c.Reachable) :
    (c.Lawful ↔ c.strays = []) ∧ c.Traced ∧
      (∀ i, c.isAstray i ↔ ∃ k, c.held? i = some k ∧
        1 ≤ k.value ∧ k.value ≤ c.store.sessions.length ∧ (k, i) ∉ c.writes) ∧
      ∀ c : Shared Memory, c.Reachable → c.Lawful ∧ c.Traced := by
  refine ⟨h.standing.lawful_iff, h.standing.traced, fun i => h.standing.isAstray_database_iff, ?_⟩
  intro c hc
  exact ⟨hc.standing.lawful (hc.fresh.apart hc.standing), hc.standing.traced⟩

/-- A run completes, all data is put back, and another run gets the same number and completes. -/
theorem lawful_of_reset :
    ∃ c : Shared Database, c.Reachable ∧ c.saved = [(⟨1⟩, 1)] ∧ c.Lawful := by
  have hend : (follow
      [.start (.listed [⟨"1 + 1", "2", none, none⟩]) .mixed 1 .epoch,
        .call 0 (.submit "2" .epoch) True.intro, .reset .epoch,
        .start (.listed [⟨"1 + 2", "3", none, none⟩]) .mixed 1 .epoch,
        .call 1 (.submit "3" .epoch) True.intro]
      (⟨empty, [], [], [], [], 0⟩ : Shared Database)).toOption.map (fun c => (c.saved, c.strays)) =
        some ([(⟨1⟩, 1)], []) := by
    decide +kernel
  obtain ⟨c, hc, hends⟩ := Option.map_eq_some_iff.mp hend
  have hreachable : c.Reachable := Reachable.start.follow hc
  have hstrays : c.strays = [] := congrArg Prod.snd hends
  exact ⟨c, hreachable, congrArg Prod.fst hends, (lawful_unless_astray hreachable).1.mpr hstrays⟩

/-- A run starts, all data is put back, another run gets the same number, and the first run writes
over its session. -/
theorem not_lawful_of_reset : ∃ c : Shared Database, c.Reachable ∧ ¬c.Lawful := by
  have hend : (follow
      [.start (.listed [⟨"1 + 1", "2", none, none⟩]) .mixed 1 .epoch, .reset .epoch,
        .start (.listed [⟨"1 + 2", "3", none, none⟩]) .mixed 1 .epoch,
        .call 0 (.submit "2" .epoch) True.intro]
      (⟨empty, [], [], [], [], 0⟩ : Shared Database)).toOption.map strays = some [(⟨1⟩, 0)] := by
    decide +kernel
  obtain ⟨c, hc, hstrays⟩ := Option.map_eq_some_iff.mp hend
  have hreachable : c.Reachable := Reachable.start.follow hc
  refine ⟨c, hreachable, fun h => ?_⟩
  rw [hreachable.standing.lawful_iff.mp h] at hstrays
  cases hstrays

end Shared

end MentalMath
