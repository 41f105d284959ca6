import MentalMath.Proofs.Storage.Memory
import MentalMath.Proofs.Storage.Relational.Submission
import MentalMath.Proofs.Storage.Sequence
import MentalMath.Proofs.Time.Order

/-! The sessions that a store lists. Both stores find all sessions that a query admits and put the
latest start first. The tables compare stored texts, which is the same for plain years; and they list
nothing at all if one of the sessions to list cannot be read. -/

namespace MentalMath

open Column SessionTable

/-- The start of the first session is the later one, or they start together and the number of the
first is the larger one. -/
def Newer (d e : SessionId × Session) : Prop :=
  e.2.startedAt < d.2.startedAt ∨ d.2.startedAt = e.2.startedAt ∧ e.1.value < d.1.value

/-- Sessions under their numbers are all those of a store that a query admits, the latest start
first. -/
structure SessionQuery.Finds {σ : Type} [SessionTable σ] (q : SessionQuery) (m : σ)
    (all : List (SessionId × Session)) : Prop where
  holds : ∀ e ∈ all, Holds m e.1 e.2
  admitted : ∀ e ∈ all, q.admits e.2 = true
  complete : ∀ id s, Holds m id s → q.admits s = true → id ∈ all.map Prod.fst
  newest : all.Pairwise Newer

/-- Sessions are started in years that are written without a sign. -/
def Request.Dated : Request → Prop
  | .insertSession s | .saveSession s => s.startedAt.HasPlainYear
  | _ => True

theorem upTo_map {α β : Type} (f : α → β) (limit : Option Nat) (xs : List α) :
    upTo limit (xs.map f) = (upTo limit xs).map f := by
  cases limit with
  | none => rfl
  | some n => exact List.map_take.symm

theorem mem_of_mem_upTo {α : Type} {limit : Option Nat} {x : α} {xs : List α}
    (h : x ∈ upTo limit xs) : x ∈ xs := by
  cases limit with
  | none => exact h
  | some n => exact List.mem_of_mem_take h

/-! ### Entries in order -/

namespace SessionQuery

variable {q : SessionQuery} {d e : SessionId × Session} {held : List (SessionId × Session)}

/-- Whether an entry may come before another. -/
def newestFirst (d e : SessionId × Session) : Bool :=
  e.2.startedAt < d.2.startedAt || (d.2.startedAt == e.2.startedAt && e.1.value ≤ d.1.value)

/-- The entries that a query admits, the latest start first. -/
def found (q : SessionQuery) (held : List (SessionId × Session)) : List (SessionId × Session) :=
  (held.filter fun e => q.admits e.2).mergeSort newestFirst

theorem newestFirst_iff : newestFirst d e = true ↔
    e.2.startedAt < d.2.startedAt ∨ d.2.startedAt = e.2.startedAt ∧ e.1.value ≤ d.1.value := by
  simp [newestFirst]

theorem newestFirst_trans (d e f : SessionId × Session) (hde : newestFirst d e = true)
    (hef : newestFirst e f = true) : newestFirst d f = true := by
  rw [newestFirst_iff, Instant.lt_def, Instant.ext_iff] at *
  omega

theorem newestFirst_total (d e : SessionId × Session) :
    (newestFirst d e || newestFirst e d) = true := by
  rw [Bool.or_eq_true, newestFirst_iff, newestFirst_iff, Instant.lt_def, Instant.lt_def,
    Instant.ext_iff, Instant.ext_iff]
  omega

theorem newer_of_newestFirst (h : newestFirst d e = true) (hne : d.1 ≠ e.1) : Newer d e := by
  refine (newestFirst_iff.mp h).imp_right (And.imp_right fun hle => ?_)
  refine Nat.lt_of_le_of_ne hle fun heq => hne ?_
  exact congrArg SessionId.mk heq.symm

theorem mem_found : e ∈ q.found held ↔ e ∈ held ∧ q.admits e.2 = true := by
  rw [found, List.mem_mergeSort, List.mem_filter]

/-- Under different numbers no two entries take the same place. -/
theorem pairwise_found (h : (held.map Prod.fst).Nodup) : (q.found held).Pairwise Newer := by
  -- the sort leaves open the order of equal keys, but no two entries have the same number
  have hsorted : (q.found held).Pairwise fun d e => newestFirst d e = true :=
    List.pairwise_mergeSort newestFirst_trans newestFirst_total _
  have hne : (q.found held).Pairwise fun d e => d.1 ≠ e.1 := by
    have hfiltered : (held.filter fun e => q.admits e.2).Pairwise fun d e => d.1 ≠ e.1 :=
      (List.pairwise_map.mp h).filter _
    exact hfiltered.perm (List.mergeSort_perm _ _).symm Ne.symm
  exact (hsorted.and hne).imp fun hde => newer_of_newestFirst hde.1 hde.2

theorem finds_found {σ : Type} [SessionTable σ] {m : σ} (hn : (held.map Prod.fst).Nodup)
    (hholds : ∀ e ∈ held, Holds m e.1 e.2)
    (hcomplete : ∀ id s, Holds m id s → ∃ t, (id, t) ∈ held ∧ q.admits t = q.admits s) :
    q.Finds m (q.found held) := by
  refine ⟨fun e he => hholds e (mem_found.mp he).1, fun e he => (mem_found.mp he).2, ?_,
    pairwise_found hn⟩
  intro id s hs hadmits
  obtain ⟨t, ht, hsame⟩ := hcomplete id s hs
  exact List.mem_map.mpr ⟨(id, t), mem_found.mpr ⟨ht, hsame.trans hadmits⟩, rfl⟩

end SessionQuery

/-! ### Values as they are -/

namespace Memory

variable {m : Memory}

theorem Sound.finds (h : m.Sound) (q : SessionQuery) : q.Finds m (q.found m.sessions) := by
  apply SessionQuery.finds_found h.nodup
  · intro e he
    show lookup? e.1 m.sessions = some (e.2.withId e.1)
    rw [withId_eq_self (h.named e he)]
    exact lookup?_eq_some_of_mem h.nodup he
  · intro id s hs
    exact ⟨s.withId id, mem_of_lookup? hs, rfl⟩

/-- Sessions are sorted by the numbers that they know as by those that they are under. -/
theorem Sound.select_eq (h : m.Sound) (q : SessionQuery) :
    m.select q = (upTo q.limit (q.found m.sessions)).map fun e => e.2.withId e.1 := by
  have horder : ∀ d ∈ m.sessions.filter (fun e => q.admits e.2),
      ∀ e ∈ m.sessions.filter (fun e => q.admits e.2),
        SessionQuery.newestFirst d e = Session.newestFirst d.2 e.2 := by
    intro d hd e he
    rw [SessionQuery.newestFirst, Session.newestFirst, h.named d (List.mem_filter.mp hd).1,
      h.named e (List.mem_filter.mp he).1]
    rfl
  have hsort : (q.found m.sessions).map Prod.snd =
      ((m.sessions.map Prod.snd).filter q.admits).mergeSort Session.newestFirst := by
    rw [SessionQuery.found, List.map_mergeSort horder, List.filter_map]
    rfl
  rw [select, ← hsort, upTo_map]
  refine List.map_congr_left fun e he => ?_
  have hmem := (SessionQuery.mem_found.mp (mem_of_mem_upTo he)).1
  exact (withId_eq_self (h.named e hmem)).symm

end Memory

/-! ### Rows in the order of their texts -/

theorem Instant.storedText_le_iff {s t : Instant} (hs : s.HasPlainYear) (ht : t.HasPlainYear) :
    s.storedText ≤ t.storedText ↔ s ≤ t := by
  rw [← not_lt, storedText_lt_iff ht hs, Instant.lt_def, Instant.le_def]
  omega

theorem Category.slug_beq (c d : Category) : (c.slug == d.slug) = (c == d) := by
  rw [Bool.eq_iff_iff, beq_iff_eq, beq_iff_eq]
  constructor
  · intro h
    have hread := ofText?_slug c
    rw [h, ofText?_slug] at hread
    exact (Option.some.inj hread).symm
  · exact congrArg slug

namespace SessionRow

def ofEntry (e : SessionId × Session) : SessionRow :=
  ofSession e.1.value e.2

def Dated (r : SessionRow) : Prop :=
  ∃ t : Instant, t.HasPlainYear ∧ r.startedAt = t.storedText

theorem dated_ofSession {key : Int} {s : Session} :
    (ofSession key s).Dated ↔ s.startedAt.HasPlainYear := by
  constructor
  · rintro ⟨t, ht, heq⟩
    exact Instant.storedText_inj.mp heq ▸ ht
  · intro h
    exact ⟨s.startedAt, h, rfl⟩

theorem isAskedFor_ofSession {q : SessionQuery} {s : Session} {key : Int}
    (hq : ∀ t, q.startedFrom = some t → t.HasPlainYear) (hs : s.startedAt.HasPlainYear) :
    isAskedFor q (ofSession key s) = q.admits s := by
  have hcompleted : (ofBool s.completed == 1) = s.completed := by
    cases s.completed <;> rfl
  simp only [isAskedFor, ofSession, SessionQuery.admits, hcompleted, Category.slug_beq]
  refine congrArg₂ and (congrArg₂ and rfl ?_) rfl
  cases hstarted : q.startedFrom with
  | none => simp only [Option.all_none]
  | some t =>
    rw [Option.all_some, Option.all_some, Bool.eq_iff_iff]
    have htext := Instant.storedText_le_iff (hq t hstarted) hs
    exact decide_eq_true_iff.trans (htext.trans decide_eq_true_iff.symm)

theorem newestFirst_ofEntry {d e : SessionId × Session} (hd : d.2.startedAt.HasPlainYear)
    (he : e.2.startedAt.HasPlainYear) :
    newestFirst (ofEntry d) (ofEntry e) = SessionQuery.newestFirst d e := by
  have htext : (d.2.startedAt.storedText == e.2.startedAt.storedText) =
      (d.2.startedAt == e.2.startedAt) := by
    rw [Bool.eq_iff_iff, beq_iff_eq, beq_iff_eq]
    exact Instant.storedText_inj
  simp only [newestFirst, ofEntry, ofSession, SessionQuery.newestFirst, htext,
    Instant.storedText_lt_iff he hd, Int.ofNat_le]

end SessionRow

namespace Database

variable {db db' : Database} {key : Int} {s : Session} {q : SessionQuery}

def Dated (db : Database) : Prop :=
  ∀ r ∈ db.sessions, r.Dated

theorem Rewrites.dated (hx : Rewrites db key s db') (h : db.Dated)
    (hs : s.startedAt.HasPlainYear) : db'.Dated := by
  intro r hr
  rw [hx.sessions, replaceRow, List.mem_map] at hr
  obtain ⟨old, hold, rfl⟩ := hr
  split
  · exact SessionRow.dated_ofSession.mpr hs
  · exact h old hold

theorem Contains.hasPlainYear (hc : db.Contains key s) (h : db.Dated) :
    s.startedAt.HasPlainYear :=
  SessionRow.dated_ofSession.mp (h _ (List.mem_of_find?_eq_some hc.row))

theorem Writes.dated {r : Request} {reply : Except StorageError r.Reply}
    (hw : Writes db r reply db') (hdb : db.Sound) (h : db.Dated) (hr : r.Dated) : db'.Dated := by
  cases hw with
  | inserted s _ hx =>
    intro row hrow
    rw [hx.sessions] at hrow
    rcases List.mem_append.mp hrow with hrow | hrow
    · exact h row hrow
    · rw [List.mem_singleton.mp hrow]
      exact SessionRow.dated_ofSession.mpr hr
  | saved id s _ hid hx => exact hx.dated h hr
  | appended id a _ hthere hx =>
    obtain ⟨s, hc⟩ := hdb.exists_contains hthere
    have hplain : (s.appended a).startedAt.HasPlainYear := hc.hasPlainYear h
    exact (hx s hc).2.dated h hplain
  | deleted n _ hs _ =>
    intro row hrow
    rw [hs] at hrow
    cases hrow
  | refused => exact h
  | spared _ _ _ _ hsame =>
    intro row hrow
    exact h row (hsame.1 ▸ hrow)

theorem dated_after {rs : List Request} (hrs : ∀ r ∈ rs, r.Dated) :
    (Store.after rs empty).Sound ∧ (Store.after rs empty).Dated := by
  -- soundness goes along, since an answer is added to the row of some session
  refine Store.after_keeps (P := fun db : Database => db.Sound ∧ db.Dated) ?_ ?_
  · rintro r hr db ⟨hdb, h⟩
    have hw := hdb.writes_serve r
    exact ⟨hw.sound hdb, hw.dated hdb h (hrs r hr)⟩
  · exact ⟨sound_of_nil rfl rfl, fun _ hr => nomatch hr⟩

theorem Sound.exists_entries (h : db.Sound) : ∃ held : List (SessionId × Session),
    db.sessions = held.map SessionRow.ofEntry ∧ ∀ e ∈ held, db.Contains e.1.value e.2 := by
  have hrows : ∀ rows : List SessionRow, (∀ r ∈ rows, r ∈ db.sessions) →
      ∃ held : List (SessionId × Session), rows = held.map SessionRow.ofEntry ∧
        ∀ e ∈ held, db.Contains e.1.value e.2 := by
    intro rows hmem
    induction rows with
    | nil => exact ⟨[], rfl, fun _ he => nomatch he⟩
    | cons r rows ih =>
      obtain ⟨held, rfl, hheld⟩ := ih fun r hr => hmem r (List.mem_cons_of_mem _ hr)
      have hr := hmem r List.mem_cons_self
      obtain ⟨id, hid⟩ := h.exists_id hr
      have hrow : db.sessionRow? id.value = some r := hid ▸ h.sessionRow?_of_mem hr
      obtain ⟨s, hc⟩ := h.exists_contains (by rw [hrow]; rfl)
      refine ⟨(id, s) :: held, ?_, List.forall_mem_cons.mpr ⟨hc, hheld⟩⟩
      rw [List.map_cons, Option.some.inj (hrow.symm.trans hc.row)]
      rfl
  exact hrows db.sessions fun r hr => hr

theorem Sound.nodup_of_entries (h : db.Sound) {held : List (SessionId × Session)}
    (hheld : db.sessions = held.map SessionRow.ofEntry) : (held.map Prod.fst).Nodup := by
  have hids : (held.map Prod.fst).map (fun id : SessionId => (id.value : Int)) =
      db.sessions.map SessionRow.id := by
    rw [hheld, List.map_map, List.map_map]
    rfl
  have hnodup : ((held.map Prod.fst).map fun id : SessionId => (id.value : Int)).Nodup :=
    hids ▸ h.nodup_ids
  exact List.Pairwise.of_map _ (fun a b hne heq => hne (heq ▸ rfl)) hnodup

theorem finds_entries {held : List (SessionId × Session)} (h : db.Sound) (hdated : db.Dated)
    (hq : ∀ t, q.startedFrom = some t → t.HasPlainYear)
    (hheld : db.sessions = held.map SessionRow.ofEntry)
    (hcontains : ∀ e ∈ held, db.Contains e.1.value e.2) : q.Finds db (q.found held) := by
  apply SessionQuery.finds_found (h.nodup_of_entries hheld) hcontains
  intro id s hs
  have hs : db.Contains id.value s := hs
  have hrow := List.mem_of_find?_eq_some hs.row
  rw [hheld, List.mem_map] at hrow
  obtain ⟨e, he, heq⟩ := hrow
  have hid : e.1 = id := congrArg SessionId.mk (Int.ofNat_inj.mp (congrArg SessionRow.id heq))
  have hadmits : q.admits e.2 = q.admits s := by
    rw [← SessionRow.isAskedFor_ofSession hq ((hcontains e he).hasPlainYear hdated),
      ← SessionRow.isAskedFor_ofSession hq (hs.hasPlainYear hdated)]
    exact congrArg _ heq
  exact ⟨e.2, hid ▸ he, hadmits⟩

theorem sessionRows_entries {held : List (SessionId × Session)} (hdated : db.Dated)
    (hq : ∀ t, q.startedFrom = some t → t.HasPlainYear)
    (hheld : db.sessions = held.map SessionRow.ofEntry)
    (hcontains : ∀ e ∈ held, db.Contains e.1.value e.2) :
    db.sessionRows q = (upTo q.limit (q.found held)).map SessionRow.ofEntry := by
  have hplain : ∀ e ∈ held, e.2.startedAt.HasPlainYear := fun e he =>
    (hcontains e he).hasPlainYear hdated
  have hfilter : (held.map SessionRow.ofEntry).filter (SessionRow.isAskedFor q) =
      (held.filter fun e => q.admits e.2).map SessionRow.ofEntry := by
    rw [List.filter_map]
    refine congrArg _ (List.filter_congr fun e he => ?_)
    exact SessionRow.isAskedFor_ofSession hq (hplain e he)
  have horder : ∀ d ∈ held.filter (fun e => q.admits e.2), ∀ e ∈ held.filter (fun e => q.admits e.2),
      SessionQuery.newestFirst d e =
        SessionRow.newestFirst (SessionRow.ofEntry d) (SessionRow.ofEntry e) := by
    intro d hd e he
    have hd := hplain d (List.mem_filter.mp hd).1
    have he := hplain e (List.mem_filter.mp he).1
    exact (SessionRow.newestFirst_ofEntry hd he).symm
  rw [sessionRows, hheld, hfilter, ← List.map_mergeSort horder, upTo_map]
  rfl

/-! ### Reading the rows -/

theorem listSessions_entries {held : List (SessionId × Session)} (h : db.Sound)
    (hdated : db.Dated) (hq : ∀ t, q.startedFrom = some t → t.HasPlainYear)
    (hheld : db.sessions = held.map SessionRow.ofEntry)
    (hcontains : ∀ e ∈ held, db.Contains e.1.value e.2) :
    db.listSessions q = (upTo q.limit (q.found held)).mapM fun e => db.getSession e.1 := by
  rw [listSessions, sessionRows_entries hdated hq hheld hcontains, List.mapM_map]
  refine mapM_congr_left fun e he => ?_
  have hmem := (SessionQuery.mem_found.mp (mem_of_mem_upTo he)).1
  exact ((hcontains e hmem).getSession_eq h).symm

/-- A session whose answers were graded when they were handed in is readable if its right answers can
be counted. -/
theorem Contains.readable_iff {id : SessionId} {known : Option (List Answer)}
    (hc : db.Contains id.value s) (h : db.Sound) (hk : db.Keeps id known) :
    s.Readable ↔ s.correct ≤ maxCount := by
  obtain ⟨t, ht, hvalid, hrow⟩ := hk.contains_of_row hc.row
  have hcorrect : s.correct = t.correct := Int.ofNat_inj.mp (congrArg SessionRow.correct hrow)
  have hread : (∃ u, db.getSession id = .ok u) ↔ s.Readable := by
    simp only [hc.getSession_eq_ok_iff h, exists_and_left, exists_eq, and_true]
  rw [← hread, ht.getSession_eq h, ht.readSession_iff hvalid, hcorrect]

end Database

/-- Whatever was asked of the stores before, both list all sessions that a query admits, the latest
start first, up to its limit. The tables return them as they return each of them alone, and fail if
one of them cannot be read; if all answers were handed in graded, that is one with more right answers
than can be counted. Texts of plain years come in the order of the instants. -/
theorem listSessions_of_dated {rs : List Request} {q : SessionQuery} (hrs : ∀ r ∈ rs, r.Dated)
    (hq : ∀ t, q.startedFrom = some t → t.HasPlainYear) :
    let m := Store.after rs Memory.empty
    let db := Store.after rs Database.empty
    (∃ all, q.Finds m all ∧ (Store.serve (.listSessions q) m).1 =
      .ok ((upTo q.limit all).map fun e => e.2.withId e.1)) ∧
    (∃ all, q.Finds db all ∧
      (Store.serve (.listSessions q) db).1 =
        ((upTo q.limit all).mapM fun e => (Store.serve (.getSession e.1) db).1) ∧
      (∀ ss, (Store.serve (.listSessions q) db).1 = .ok ss ↔
        (∀ e ∈ upTo q.limit all, e.2.Readable) ∧
          ss = (upTo q.limit all).map fun e => e.2.regraded.cut.withId e.1) ∧
      ((∀ r ∈ rs, r.Valid) → ∀ e ∈ all, e.2.Readable ↔ e.2.correct ≤ maxCount)) ∧
    ∀ s t : Instant, s.HasPlainYear → t.HasPlainYear →
      (s.storedText < t.storedText ↔ s < t) ∧ (s.storedText ≤ t.storedText ↔ s ≤ t) := by
  intro m db
  refine ⟨?values, ?tables, fun s t hs ht =>
    ⟨Instant.storedText_lt_iff hs ht, Instant.storedText_le_iff hs ht⟩⟩
  case values =>
    have hm : Sound m := Store.sound_after_empty rs
    exact ⟨_, hm.finds q, congrArg Except.ok (hm.select_eq q)⟩
  case tables =>
    obtain ⟨hdb, hdated⟩ := Database.dated_after hrs
    obtain ⟨held, hheld, hcontains⟩ := hdb.exists_entries
    have hfound : ∀ e ∈ q.found held, db.Contains e.1.value e.2 := fun e he =>
      hcontains e (SessionQuery.mem_found.mp he).1
    have hlist := Database.listSessions_entries hdb hdated hq hheld hcontains
    refine ⟨_, Database.finds_entries hdb hdated hq hheld hcontains, hlist, fun ss => ?_, ?_⟩
    · show db.listSessions q = .ok ss ↔ _
      rw [hlist]
      exact Column.mapM_eq_ok_iff fun e he _ =>
        (hfound e (mem_of_mem_upTo he)).getSession_eq_ok_iff hdb
    · intro hvalid e he
      obtain ⟨known, hk⟩ := (Database.keeps_after hvalid).2 e.1
      exact (hfound e he).readable_iff hdb hk

/-- Of two sessions a microsecond apart the later one is listed by a query that starts between them,
though the text of that start has the most digits. -/
theorem listSessions_of_fraction :
    let whole := Session.start .mixed 1 .epoch
    let late := Session.start .mixed 1 ⟨0, 1000, by decide, by decide⟩
    let between : Instant := ⟨0, 500, by decide, by decide⟩
    let q : SessionQuery := ⟨false, some between, none, some 2⟩
    let rs := [.insertSession late, .insertSession whole]
    let db := Store.after rs Database.empty
    (∀ r ∈ rs, r.Dated) ∧ (∀ t, q.startedFrom = some t → t.HasPlainYear) ∧
      (∃ all, q.Finds db all ∧ ∀ ss, (Store.serve (.listSessions q) db).1 = .ok ss ↔
        (∀ e ∈ upTo (some 2) all, e.2.Readable) ∧
          ss = (upTo (some 2) all).map fun e => e.2.regraded.cut.withId e.1) ∧
      (Store.serve (.listSessions q) db).1 = .ok [late.withId ⟨1⟩] := by
  intro whole late between q rs db
  have hlate : late.startedAt.HasPlainYear := by decide
  have hwhole : Instant.epoch.HasPlainYear := by decide
  have hrs : ∀ r ∈ rs, r.Dated := by
    simp only [rs, List.forall_mem_cons]
    exact ⟨hlate, hwhole, fun _ hr => (List.not_mem_nil hr).elim⟩
  have hq : ∀ t, q.startedFrom = some t → t.HasPlainYear := by
    rintro t ⟨⟩
    decide
  obtain ⟨-, ⟨all, hall, -, hlist, -⟩, -⟩ := listSessions_of_dated hrs hq
  exact ⟨hrs, hq, ⟨all, hall, hlist⟩, by decide +kernel⟩

/-- A wrong answer that was handed in as a right one is graded again when it is read. It is then not
counted, so the tables list no session at all; values as they are are listed all the same. -/
theorem not_listed_of_misgraded :
    let answer : Answer := ⟨"17 + 25", "42", "41", .skill .twoDigitAddition, true, .zero, .epoch⟩
    let session : Session := { Session.start .mixed 1 .epoch with answers := [answer], correct := 1 }
    let q : SessionQuery := ⟨false, none, none, none⟩
    let rs := [.insertSession session]
    (∀ r ∈ rs, r.Dated) ∧ Holds (Store.after rs Database.empty) ⟨1⟩ session ∧
      q.admits session = true ∧
      (Store.serve (.listSessions q) (Store.after rs Database.empty)).1 =
        .error (.serialization (.session (.countMismatch 1 0))) ∧
      (Store.serve (.listSessions q) (Store.after rs Memory.empty)).1 =
        .ok [session.withId ⟨1⟩] := by
  intro answer session q rs
  have hplain : session.startedAt.HasPlainYear := by decide
  refine ⟨List.forall_mem_singleton.mpr hplain, ⟨?row, ?answers⟩, rfl, ?_, ?_⟩
  case row => decide +kernel
  case answers => decide +kernel
  · decide +kernel
  · decide +kernel

end MentalMath
