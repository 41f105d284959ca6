import MentalMath.Proofs.History.Window
import MentalMath.Proofs.Sorting
import MentalMath.Proofs.Storage.Listing
import MentalMath.Service.History

/-! What the stores show of the windows of the past. A window is the part of the list of all
completed sessions from the start of the window on, so a window that reaches further shows the same
sessions and more. The tables compare that start as a text. A year that is written with a sign comes
before all others as a text, so a start in such a year cuts nothing off, and the windows of the tables
are nested unless a narrower one starts in such a year and a wider one does not, which happens in
January of the year 10000 only. -/

namespace MentalMath

/-! ### Starts as texts -/

namespace Date

/-- The days up to the end of the year 9999. -/
theorem year_ofDays_le_iff {days : Int} : (ofDays days).year ≤ 9999 ↔ days < 2932897 := by
  have hlast : ofDays 2932896 = ⟨9999, 12, 31⟩ := by decide
  have hnext : ofDays 2932897 = ⟨10000, 1, 1⟩ := by decide
  constructor
  · intro hyear
    by_contra hdays
    rcases eq_or_lt_of_le (show 2932897 ≤ days by omega) with rfl | hlt
    · rw [hnext] at hyear
      exact absurd hyear (by decide)
    · have hbefore := ofDays_before hlt
      rw [hnext] at hbefore
      simp only [Before] at hbefore
      omega
  · intro hdays
    rcases eq_or_lt_of_le (show days ≤ 2932896 by omega) with rfl | hlt
    · rw [hlast]
    · have hbefore := ofDays_before hlt
      rw [hlast] at hbefore
      simp only [Before] at hbefore
      omega

/-- The 31 days after that are the January of the year 10000. -/
theorem ofDays_january {days : Int} (h₀ : 2932897 ≤ days) (h₁ : days < 2932928) :
    (ofDays days).year = 10000 ∧ (ofDays days).month = 1 := by
  have hjanuary : ∀ k : Fin 31, (ofDays (2932897 + k)).year = 10000 ∧
      (ofDays (2932897 + k)).month = 1 := by decide
  have hday := hjanuary ⟨(days - 2932897).toNat, by omega⟩
  rw [show (2932897 : Int) + (days - 2932897).toNat = days by omega] at hday
  exact hday

end Date

namespace Instant

variable {s t : Instant}

theorem year_le_year (h : s ≤ t) : s.toCivil.date.year ≤ t.toCivil.date.year := by
  rw [le_def] at h
  show (Date.ofDays (s.second / 86400)).year ≤ (Date.ofDays (t.second / 86400)).year
  rcases eq_or_lt_of_le (show s.second / 86400 ≤ t.second / 86400 by omega) with heq | hlt
  · rw [heq]
  · have hbefore := Date.ofDays_before hlt
    simp only [Date.Before] at hbefore
    omega

/-- A year that is not plain is written with a sign, and signs come before digits. -/
theorem storedText_lt_of_signed (hs : ¬s.HasPlainYear) (ht : t.HasPlainYear) :
    s.storedText < t.storedText := by
  obtain ⟨c, cs, hsign, hc⟩ : ∃ c cs, c.toNat < '0'.toNat ∧
      (Date.yearText s.toCivil.date.year).toList = c :: cs := by
    unfold HasPlainYear at hs
    rw [Date.yearText, if_neg hs]
    split
    · exact ⟨'+', _, by decide, String.toList_append⟩
    · exact ⟨'-', _, by decide, String.toList_append⟩
  have hyear : Date.yearText t.toCivil.date.year = Text.zeroPadded 4 t.toCivil.date.year.toNat :=
    if_pos ht
  obtain ⟨d, ds, hd⟩ : ∃ d ds, (Date.yearText t.toCivil.date.year).toList = d :: ds := by
    have hlength := Text.le_length_zeroPadded 4 t.toCivil.date.year.toNat
    rw [hyear]
    exact List.exists_cons_of_length_pos (by omega)
  have hdigit : d.isDigit = true := by
    rw [hyear] at hd
    exact Text.isDigit_of_mem_zeroPadded (hd ▸ List.mem_cons_self)
  show s.toCivil.text ++ "+00:00" < t.toCivil.text ++ "+00:00"
  rw [String.lt_iff_toList_lt, Stamp.toList_stamp, Stamp.toList_stamp, hc, hd]
  have hlt : c < d := Nat.lt_of_lt_of_le hsign (Text.toNat_of_isDigit hdigit).1
  exact List.cons_lt_cons_iff.mpr (Or.inl hlt)

/-- The first month of the years after 9999. -/
def InFirstSignedMonth (t : Instant) : Prop :=
  t.toCivil.date.year = 10000 ∧ t.toCivil.date.month = 1

instance (t : Instant) : Decidable t.InFirstSignedMonth :=
  inferInstanceAs (Decidable (_ ∧ _))

end Instant

namespace HistoryRange

variable {r r' : HistoryRange} {now start start' : Instant}

/-- Outside of that month a window starts in a plain year if a wider one does. -/
theorem hasPlainYear_of_wider (hnow : ¬now.InFirstSignedMonth) (hreach : r.reach ≤ r'.reach)
    (h : r.startsAt now = .ok (some start)) (h' : r'.startsAt now = .ok (some start'))
    (hplain : start'.HasPlainYear) : start.HasPlainYear := by
  have hearlier := Instant.year_le_year (startsAt_le_startsAt hreach h h')
  refine ⟨Int.le_trans hplain.1 hearlier, ?_⟩
  by_contra hlate
  apply hnow
  have hfirst : start'.second / 86400 < 2932897 := Date.year_ofDays_le_iff.mp hplain.2
  have hlast : ¬start.second / 86400 < 2932897 := fun hlt => hlate (Date.year_ofDays_le_iff.mpr hlt)
  have hpast := startsAt_le_now h
  have hnear := (second_of_startsAt h').1
  have hdays := r'.mostDays_le
  rw [Instant.le_def] at hpast
  exact Date.ofDays_january (show 2932897 ≤ now.second / 86400 by omega) (by omega)

end HistoryRange

/-! ### Parts of a list -/

namespace History

/-- The completed sessions, from a start on and of one category, if these are given. -/
def window (start : Option Instant) (c : Option Category) : SessionQuery :=
  { SessionQuery.completed with startedFrom := start, category := c }

def within (start : Option Instant) (s : Session) : Bool :=
  start.all fun t => decide (t ≤ s.startedAt)

/-- The start of a window as the tables take it. -/
def plainly (start : Option Instant) : Option Instant :=
  start.filter fun t => decide t.HasPlainYear

/-- What a store shows of a window. -/
def Shows {σ : Type} [Store σ] (m : σ) (c : Option Category) (now : Instant) (r : HistoryRange)
    (ss : List Session) : Prop :=
  ∃ p, list r c now = .ok p ∧ (p.run.run m).1 = .ok ss

/-- A list of entries that the windows of a store are parts of: each part is shown if all of it is
legible. -/
structure Shelf {σ : Type} [Store σ] [SessionTable σ] (m : σ) (c : Option Category) where
  entries : List (SessionId × Session)
  shown : SessionId × Session → Session
  legible : Session → Prop
  cut : Option Instant → Option Instant
  finds : (window none c).Finds m entries
  kept : ∀ e, (shown e).id = some e.1 ∧ (shown e).completed = e.2.completed ∧
    (shown e).startedAt = e.2.startedAt
  widens : ∀ start s, within start s = true → within (cut start) s = true
  lists : ∀ start ss, (Store.serve (.listSessions (window start c)) m).1 = .ok ss ↔
    (∀ e ∈ entries.filter (within (cut start) ·.2), legible e.2) ∧
      ss = (entries.filter (within (cut start) ·.2)).map shown

/-- A store shows of a narrower window a part of what it shows of a wider one, in the same order. -/
def Nested {σ : Type} [Store σ] (m : σ) (c : Option Category) (now : Instant) : Prop :=
  ∀ (r r' : HistoryRange) ss, r.reach ≤ r'.reach → (∃ start, r.startsAt now = .ok start) →
    Shows m c now r' ss → ∃ ss', Shows m c now r ss' ∧ ss'.Sublist ss

/-- A store shows completed sessions only, of the past all those of the category that it holds, and of
each window all that it shows of the past from the start of the window on. -/
structure Tells {σ : Type} [Store σ] [SessionTable σ] (m : σ) (c : Option Category)
    (now : Instant) : Prop where
  completed : ∀ r ss, Shows m c now r ss → ∀ s ∈ ss, s.completed = true
  whole : ∀ past, Shows m c now .all past → ∀ id s, SessionTable.Holds m id s →
    (window none c).admits s = true → some id ∈ past.map Session.id
  reached : ∀ (r : HistoryRange) start past ss, r.startsAt now = .ok start →
    Shows m c now .all past → Shows m c now r ss → ∀ s ∈ past, within start s = true → s ∈ ss

section Shelf

variable {σ : Type} [Store σ] {m : σ} {c : Option Category} {now : Instant}
  {r r' : HistoryRange} {start start' : Option Instant} {ss : List Session}

theorem completed_of_admits {s : Session} (h : (window start c).admits s = true) :
    s.completed = true := by
  simp only [SessionQuery.admits, window, SessionQuery.completed, Bool.not_true, Bool.false_or,
    Bool.and_eq_true] at h
  exact h.1.1

theorem shows_iff : Shows m c now r ss ↔ ∃ start, r.startsAt now = .ok start ∧
    (Store.serve (.listSessions (window start c)) m).1 = .ok ss := by
  constructor
  · rintro ⟨p, hp, hss⟩
    obtain ⟨q, hq, hp⟩ := Checked.bind_eq_ok.mp hp
    obtain ⟨start, hstart, hq⟩ := Checked.bind_eq_ok.mp hq
    cases hq
    cases hp
    exact ⟨start, hstart, hss⟩
  · rintro ⟨start, hstart, hss⟩
    refine ⟨StoreM.request (.listSessions (window start c)), ?_, hss⟩
    rw [list, query, hstart]
    rfl

theorem Shows.unique {ss' : List Session} (h : Shows m c now r ss) (h' : Shows m c now r ss') :
    ss = ss' := by
  obtain ⟨p, hp, hss⟩ := h
  obtain ⟨p', hp', hss'⟩ := h'
  cases hp.symm.trans hp'
  exact Except.ok.inj (hss.symm.trans hss')

namespace Shelf

variable [SessionTable σ]

theorem shows_iff (sh : Shelf m c) : Shows m c now r ss ↔ ∃ start, r.startsAt now = .ok start ∧
    (∀ e ∈ sh.entries.filter (within (sh.cut start) ·.2), sh.legible e.2) ∧
      ss = (sh.entries.filter (within (sh.cut start) ·.2)).map sh.shown := by
  rw [History.shows_iff]
  exact exists_congr fun start => and_congr_right' (sh.lists start ss)

theorem shows_all_iff (sh : Shelf m c) : Shows m c now .all ss ↔
    (∀ e ∈ sh.entries, sh.legible e.2) ∧ ss = sh.entries.map sh.shown := by
  have hwhole : sh.entries.filter (within (sh.cut none) ·.2) = sh.entries :=
    List.filter_eq_self.mpr fun e _ => sh.widens none e.2 rfl
  rw [History.shows_iff]
  show (∃ start, Except.ok none = Except.ok start ∧ _) ↔ _
  simp only [Except.ok.injEq, exists_eq_left', sh.lists, hwhole]

theorem tells (sh : Shelf m c) : Tells m c now := by
  constructor
  · intro r ss hshows s hs
    obtain ⟨start, -, -, rfl⟩ := sh.shows_iff.mp hshows
    obtain ⟨e, he, rfl⟩ := List.mem_map.mp hs
    rw [(sh.kept e).2.1]
    exact completed_of_admits (sh.finds.admitted e (List.mem_filter.mp he).1)
  · intro past hpast id s hs hadmits
    obtain ⟨-, rfl⟩ := sh.shows_all_iff.mp hpast
    obtain ⟨e, he, rfl⟩ := List.mem_map.mp (sh.finds.complete id s hs hadmits)
    rw [List.map_map]
    exact List.mem_map.mpr ⟨e, he, (sh.kept e).1⟩
  · intro r start past ss hstart hpast hshows s hs hwithin
    obtain ⟨_, -, -, rfl⟩ := sh.shows_iff.mp hpast
    obtain ⟨start', hstart', -, rfl⟩ := sh.shows_iff.mp hshows
    obtain rfl : start' = start := Except.ok.inj (hstart'.symm.trans hstart)
    obtain ⟨e, he, rfl⟩ := List.mem_map.mp hs
    have hwithin : within start' e.2 = true := by
      rw [within, (sh.kept e).2.2] at hwithin
      exact hwithin
    exact List.mem_map_of_mem (List.mem_filter.mpr
      ⟨(List.mem_filter.mp he).1, sh.widens start' e.2 hwithin⟩)

/-- Where a narrower window takes no more than a wider one, it shows no more. -/
theorem nested (sh : Shelf m c)
    (hmono : ∀ (r r' : HistoryRange) start start', r.reach ≤ r'.reach → r.startsAt now = .ok start →
      r'.startsAt now = .ok start' →
        ∀ s, within (sh.cut start) s = true → within (sh.cut start') s = true) :
    Nested m c now := by
  intro r r' ss hreach ⟨start, hstart⟩ hshows
  obtain ⟨start', hstart', hlegible, rfl⟩ := sh.shows_iff.mp hshows
  have hsublist : (sh.entries.filter (within (sh.cut start) ·.2)).Sublist
      (sh.entries.filter (within (sh.cut start') ·.2)) :=
    List.monotone_filter_right _ fun e => hmono r r' start start' hreach hstart hstart' e.2
  refine ⟨_, sh.shows_iff.mpr ⟨start, hstart, fun e he => ?_, rfl⟩, hsublist.map sh.shown⟩
  exact hlegible e (hsublist.subset he)

/-- A window whose start is taken as it is shows the sessions of the past from that start on. -/
theorem shows_filter (sh : Shelf m c) {past : List Session} (hcut : sh.cut start = start)
    (hstart : r.startsAt now = .ok start) (hpast : Shows m c now .all past) :
    Shows m c now r (past.filter (within start)) := by
  obtain ⟨hlegible, rfl⟩ := sh.shows_all_iff.mp hpast
  have hpart : (sh.entries.map sh.shown).filter (within start) =
      (sh.entries.filter (within (sh.cut start) ·.2)).map sh.shown := by
    rw [List.filter_map, hcut]
    refine congrArg _ (List.filter_congr fun e _ => ?_)
    simp only [Function.comp_apply, within, (sh.kept e).2.2]
  rw [hpart]
  exact sh.shows_iff.mpr ⟨start, hstart, fun e he => hlegible e (List.mem_filter.mp he).1, rfl⟩

end Shelf

end Shelf

/-! ### The two stores -/

section Stores

variable {held : List (SessionId × Session)} {start start' : Option Instant} {c : Option Category}
  {now : Instant} {r r' : HistoryRange} {s : Session}

theorem admits_window : (window start c).admits s =
    ((window none c).admits s && within start s) := by
  simp only [SessionQuery.admits, window, SessionQuery.completed, within, Option.all_none,
    Bool.and_true]
  rw [Bool.and_assoc, Bool.and_assoc, Bool.and_comm (start.all _)]

/-- The entries of a window are a part of all entries, in the same order. -/
theorem found_window : (window start c).found held =
    ((window none c).found held).filter (within start ·.2) := by
  rw [SessionQuery.found, SessionQuery.found,
    filter_mergeSort SessionQuery.newestFirst_trans SessionQuery.newestFirst_total,
    List.filter_filter]
  refine congrArg (List.mergeSort · _) (List.filter_congr fun e _ => ?_)
  rw [admits_window, Bool.and_comm]

theorem within_of_wider (hreach : r.reach ≤ r'.reach) (h : r.startsAt now = .ok start)
    (h' : r'.startsAt now = .ok start') (hs : within start s = true) : within start' s = true := by
  cases start' with
  | none => rfl
  | some t' =>
    cases start with
    | none =>
      obtain rfl := HistoryRange.startsAt_eq_none_iff.mp h
      have hall : r' = .all := by
        cases r' with
        | all => rfl
        | _ => exact absurd hreach (by decide)
      rw [hall] at h'
      cases h'
    | some t =>
      have hearlier := HistoryRange.startsAt_le_startsAt hreach h h'
      have ht : t ≤ s.startedAt := of_decide_eq_true hs
      exact decide_eq_true (Instant.le_trans hearlier ht)

def shelfOfMemory {m : Memory} (h : m.Sound) (c : Option Category) : Shelf m c where
  entries := (window none c).found m.sessions
  shown e := e.2.withId e.1
  legible _ := True
  cut := id
  finds := h.finds _
  kept _ := ⟨rfl, rfl, rfl⟩
  widens _ _ hs := hs
  lists start ss := by
    show Except.ok (m.select (window start c)) = Except.ok ss ↔ _
    rw [h.select_eq, show (window start c).limit = none from rfl, upTo, found_window]
    simp only [implies_true, true_and, id_eq, Except.ok.injEq, eq_comm]

theorem within_plainly (hs : within start s = true) : within (plainly start) s = true := by
  cases start with
  | none => rfl
  | some t =>
    rw [plainly, Option.filter_some]
    split
    · exact hs
    · rfl

theorem isAskedFor_plainly {row : SessionRow} (h : row.Dated) :
    SessionRow.isAskedFor (window start c) row =
      SessionRow.isAskedFor (window (plainly start) c) row := by
  obtain ⟨t, ht, hrow⟩ := h
  cases start with
  | none => rfl
  | some u =>
    by_cases hu : u.HasPlainYear
    · rw [plainly, Option.filter_some, if_pos (decide_eq_true hu)]
    · have hbefore : u.storedText ≤ row.startedAt := by
        rw [hrow]
        exact le_of_lt (Instant.storedText_lt_of_signed hu ht)
      rw [plainly, Option.filter_some, if_neg (by simpa using hu)]
      simp only [SessionRow.isAskedFor, window, Option.all_some, Option.all_none, hbefore,
        decide_true]

theorem hasPlainYear_of_plainly {t : Instant} (h : plainly start = some t) : t.HasPlainYear :=
  of_decide_eq_true (Option.filter_eq_some_iff.mp h).2

theorem listSessions_plainly {db : Database} (hdated : db.Dated) :
    db.listSessions (window start c) = db.listSessions (window (plainly start) c) := by
  have hrows : db.sessions.filter (SessionRow.isAskedFor (window start c)) =
      db.sessions.filter (SessionRow.isAskedFor (window (plainly start) c)) :=
    List.filter_congr fun row hrow => isAskedFor_plainly (hdated row hrow)
  rw [Database.listSessions, Database.listSessions, Database.sessionRows, Database.sessionRows,
    hrows]
  rfl

/-- Of two sessions that stand for the same rows, one is readable if the other is. -/
theorem readable_of_contains {db : Database} {id : SessionId} {s t : Session} (h : db.Sound)
    (hs : db.Contains id.value s) (ht : db.Contains id.value t) (hread : s.Readable) :
    t.Readable := by
  have hget := (hs.getSession_eq_ok_iff h).mpr ⟨hread, rfl⟩
  exact ((ht.getSession_eq_ok_iff h).mp hget).1

theorem exists_shelf {db : Database} (h : db.Sound) (hdated : db.Dated) (c : Option Category) :
    ∃ sh : Shelf db c, sh.cut = plainly ∧
      ((∀ e ∈ sh.entries, sh.legible e.2) ↔
        ∀ id s, SessionTable.Holds db id s → (window none c).admits s = true → s.Readable) := by
  obtain ⟨held, hheld, hcontains⟩ := h.exists_entries
  have hfinds := Database.finds_entries (q := window none c) h hdated (fun _ ht => nomatch ht)
    hheld hcontains
  refine ⟨{
    entries := (window none c).found held
    shown := fun e => e.2.regraded.cut.withId e.1
    legible := Session.Readable
    cut := plainly
    finds := hfinds
    kept := fun _ => ⟨rfl, rfl, rfl⟩
    widens := fun _ _ => within_plainly
    lists := fun start ss => ?_ }, rfl, ?_⟩
  · show db.listSessions (window start c) = .ok ss ↔ _
    rw [listSessions_plainly hdated,
      Database.listSessions_entries h hdated (fun _ => hasPlainYear_of_plainly) hheld hcontains,
      ← found_window]
    refine Column.mapM_eq_ok_iff fun e he _ => ?_
    exact (hcontains e (SessionQuery.mem_found.mp he).1).getSession_eq_ok_iff h
  · constructor
    · intro hall id s hs hadmits
      obtain ⟨e, he, rfl⟩ := List.mem_map.mp (hfinds.complete id s hs hadmits)
      exact readable_of_contains h (hcontains e (SessionQuery.mem_found.mp he).1) hs (hall e he)
    · intro hall e he
      exact hall e.1 e.2 (hfinds.holds e he) (hfinds.admitted e he)

/-- Outside of the January of the year 10000 a wider window cuts off no more than a narrower one. -/
theorem within_plainly_of_wider (hnow : ¬now.InFirstSignedMonth) (hreach : r.reach ≤ r'.reach)
    (h : r.startsAt now = .ok start) (h' : r'.startsAt now = .ok start')
    (hs : within (plainly start) s = true) : within (plainly start') s = true := by
  cases hcut : plainly start' with
  | none => rfl
  | some t' =>
    obtain ⟨rfl, hplain⟩ := Option.filter_eq_some_iff.mp hcut
    rw [← hcut]
    apply within_plainly
    apply within_of_wider hreach h h'
    cases start with
    | none => rfl
    | some t =>
      have ht := HistoryRange.hasPlainYear_of_wider hnow hreach h h' (of_decide_eq_true hplain)
      rw [plainly, Option.filter_some, if_pos (decide_eq_true ht)] at hs
      exact hs

end Stores

/-- The windows at an instant start in their order. Whatever was asked of the stores before, both
show completed sessions only, and of each window at least what they show of the past from its start
on; values as they are, and the tables if the year of the start is plain, show nothing else. Values
as they are show every window that has a start, and each one within the wider ones. The tables show
all of the past if they can read all of it, and outside of the first month whose year has a sign
their windows are nested as well. -/
theorem nested_of_dated {rs : List Request} (hrs : ∀ r ∈ rs, r.Dated) (c : Option Category)
    (now : Instant) :
    let m := Store.after rs Memory.empty
    let db := Store.after rs Database.empty
    HistoryRange.Ordered now ∧
    (Nested m c now ∧ Tells m c now ∧
      ∀ (r : HistoryRange) start, r.startsAt now = .ok start →
        ∃ past, Shows m c now .all past ∧ Shows m c now r (past.filter (within start))) ∧
    (¬now.InFirstSignedMonth → Nested db c now) ∧ Tells db c now ∧
    (∀ (r : HistoryRange) start past, r.startsAt now = .ok start →
      (∀ t, start = some t → t.HasPlainYear) → Shows db c now .all past →
        Shows db c now r (past.filter (within start))) ∧
    ((∃ past, Shows db c now .all past) ↔
      ∀ id s, SessionTable.Holds db id s → (window none c).admits s = true → s.Readable) := by
  intro m db
  have hm : SessionTable.Sound m := Store.sound_after_empty rs
  obtain ⟨hdb, hdated⟩ := Database.dated_after hrs
  obtain ⟨sh, hcut, hlegible⟩ := exists_shelf hdb hdated c
  let shelf := shelfOfMemory hm c
  refine ⟨HistoryRange.ordered now, ⟨?_, shelf.tells, ?_⟩, ?_, sh.tells, ?_, ?_⟩
  · exact shelf.nested fun _ _ _ _ hreach h h' _ => within_of_wider hreach h h'
  · intro r start hstart
    have hpast : Shows m c now .all (shelf.entries.map shelf.shown) :=
      shelf.shows_all_iff.mpr ⟨fun _ _ => True.intro, rfl⟩
    exact ⟨_, hpast, shelf.shows_filter rfl hstart hpast⟩
  · intro hnow
    apply sh.nested
    intro r r' start start' hreach h h' s hs
    rw [hcut] at hs ⊢
    exact within_plainly_of_wider hnow hreach h h' hs
  · intro r start past hstart hplain hpast
    have hkept : sh.cut start = start := by
      rw [hcut]
      cases start with
      | none => rfl
      | some t => rw [plainly, Option.filter_some, if_pos (decide_eq_true (hplain t rfl))]
    exact sh.shows_filter hkept hstart hpast
  · rw [← hlegible]
    constructor
    · rintro ⟨past, hpast⟩
      exact (sh.shows_all_iff.mp hpast).1
    · exact fun hall => ⟨_, sh.shows_all_iff.mpr ⟨hall, rfl⟩⟩

/-- At noon on the last day of March 2024 the month goes back to noon on the leap day, the last day
that February has. A session of that noon is shown, one that is not completed is not. -/
theorem nested_of_leap_day :
    let leapDay : Instant := ⟨1709208000, 0, by decide, by decide⟩
    let noon : Instant := ⟨1711886400, 0, by decide, by decide⟩
    let session :=
      { Session.start .mixed 1 leapDay with endedAt := some leapDay, completed := true }
    let rs := [.insertSession session, .insertSession (Session.start .mixed 1 noon)]
    let db := Store.after rs Database.empty
    (∀ r ∈ rs, r.Dated) ∧ ¬noon.InFirstSignedMonth ∧ Nested db none noon ∧
      HistoryRange.pastMonth.startsAt noon = .ok (some leapDay) ∧
      Shows db none noon .pastMonth [session.withId ⟨1⟩] ∧ Shows db none noon .pastWeek [] := by
  intro leapDay noon session rs db
  have hrs : ∀ r ∈ rs, r.Dated := by
    have hleap : leapDay.HasPlainYear := by decide
    have hnoon : noon.HasPlainYear := by decide
    simp only [rs, List.forall_mem_cons]
    exact ⟨hleap, hnoon, fun _ hr => (List.not_mem_nil hr).elim⟩
  have hnow : ¬noon.InFirstSignedMonth := by decide
  obtain ⟨-, -, hnested, -⟩ := nested_of_dated hrs none noon
  have hmonth : HistoryRange.pastMonth.startsAt noon = .ok (some leapDay) := by decide +kernel
  have hweek : HistoryRange.pastWeek.startsAt noon =
      .ok (some ⟨1711281600, 0, by decide, by decide⟩) := by decide +kernel
  refine ⟨hrs, hnow, hnested hnow, hmonth, ?_, ?_⟩
  · exact shows_iff.mpr ⟨_, hmonth, by decide +kernel⟩
  · exact shows_iff.mpr ⟨_, hweek, by decide +kernel⟩

/-- The windows are not nested always. On the second day of the year 10000 today starts in a year
with a sign, so the tables cut nothing off, while the last week starts in a year without one. A
session that cannot be read keeps the tables from showing the windows that it lies in, but not the
narrower ones. And a week after the first instant of the calendar the last month has no start. -/
theorem exceptions_to_nesting :
    let start : Instant := ⟨1700000000, 0, by decide, by decide⟩
    let session := { Session.start .mixed 1 start with endedAt := some start, completed := true }
    let rs := [.insertSession session]
    let db := Store.after rs Database.empty
    let january : Instant := ⟨253402387200, 0, by decide, by decide⟩
    let answer : Answer := ⟨"17 + 25", "42", "41", .skill .twoDigitAddition, true, .zero, start⟩
    let misgraded := { session with answers := [answer], correct := 1 }
    let rs' := [.insertSession misgraded]
    let db' := Store.after rs' Database.empty
    let daysLater : Instant := ⟨1700259200, 0, by decide, by decide⟩
    let early : Instant := ⟨-8334600624000, 0, by decide, by decide⟩
    ((∀ r ∈ rs, r.Dated) ∧ Shows db none january .today [session.withId ⟨1⟩] ∧
      Shows db none january .pastWeek [] ∧ ¬Nested db none january) ∧
    ((∀ r ∈ rs', r.Dated) ∧ Shows db' none daysLater .today [] ∧
      ¬∃ ss, Shows db' none daysLater .pastWeek ss) ∧
    ¬∃ start, HistoryRange.pastMonth.startsAt early = .ok start := by
  intro start session rs db january answer misgraded rs' db' daysLater early
  have hplain : start.HasPlainYear := by decide
  refine ⟨⟨List.forall_mem_singleton.mpr hplain, ?_⟩,
    ⟨List.forall_mem_singleton.mpr hplain, ?_, ?_⟩, ?_⟩
  · have htoday : Shows db none january .today [session.withId ⟨1⟩] :=
      shows_iff.mpr ⟨_, rfl, by decide +kernel⟩
    have hstart : HistoryRange.pastWeek.startsAt january =
        .ok (some ⟨253401782400, 0, by decide, by decide⟩) := by decide +kernel
    have hweek : Shows db none january .pastWeek [] :=
      shows_iff.mpr ⟨_, hstart, by decide +kernel⟩
    refine ⟨htoday, hweek, fun hnested => ?_⟩
    obtain ⟨ss, hss, hsublist⟩ := hnested .today .pastWeek [] (by decide) ⟨_, rfl⟩ hweek
    rw [List.sublist_nil.mp hsublist] at hss
    exact absurd (htoday.unique hss) (List.cons_ne_nil _ _)
  · exact shows_iff.mpr ⟨_, rfl, by decide +kernel⟩
  · rintro ⟨ss, hss⟩
    obtain ⟨week, hweek, hss⟩ := shows_iff.mp hss
    have hstart : HistoryRange.pastWeek.startsAt daysLater =
        .ok (some ⟨1699654400, 0, by decide, by decide⟩) := by decide +kernel
    have hfails : (Store.serve (.listSessions (window (some ⟨1699654400, 0, by decide, by decide⟩)
        none)) db').1 = .error (.serialization (.session (.countMismatch 1 0))) := by decide +kernel
    cases hstart.symm.trans hweek
    cases hfails.symm.trans hss
  · rw [HistoryRange.exists_startsAt_iff]
    decide

end History

end MentalMath
