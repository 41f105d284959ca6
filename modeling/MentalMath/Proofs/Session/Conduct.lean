import MentalMath.Proofs.Session
import MentalMath.Proofs.Time.Stopwatch

/-! What a session does under any calls, however it arose: started, or rebuilt from what was stored,
maybe with too many answers or with an end but not completed. A call changes a session where it is,
one field after the other, and may stop in between; it turns out that all checks come first, so that a
call that is refused has changed nothing. -/

namespace MentalMath

/-! ### Averages -/

/-- What is left of the seconds after their part was taken is divided again, and so are the nanoseconds
past them. Either division loses less than one nanosecond for each part. -/
theorem Span.partNanos_near {n : Int} {k : Nat} (hn : 0 ≤ n) (hk : 0 < k) :
    0 ≤ n - k * partNanos n k ∧ n - k * partNanos n k < 2 * k := by
  have hk' : (0 : Int) < k := by omega
  have hseconds : 0 ≤ n / 1000000000 := by omega
  have hnanos : 0 ≤ n % 1000000000 := by omega
  have hrest : 0 ≤ n / 1000000000 % k * 1000000000 :=
    Int.mul_nonneg (Int.emod_nonneg _ (Int.ne_of_gt hk')) (by decide)
  rw [partNanos, Int.tdiv_eq_ediv_of_nonneg hseconds, Int.tmod_eq_emod_of_nonneg hseconds,
    Int.tdiv_eq_ediv_of_nonneg hnanos, Int.tdiv_eq_ediv_of_nonneg hrest]
  have hs := Int.mul_ediv_add_emod (n / 1000000000) k
  have hf := Int.mul_ediv_add_emod (n % 1000000000) k
  have hr := Int.mul_ediv_add_emod (n / 1000000000 % k * 1000000000) k
  have hf₀ := Int.emod_nonneg (n % 1000000000) (Int.ne_of_gt hk')
  have hf₁ := Int.emod_lt_of_pos (n % 1000000000) hk'
  have hr₀ := Int.emod_nonneg (n / 1000000000 % k * 1000000000) (Int.ne_of_gt hk')
  have hr₁ := Int.emod_lt_of_pos (n / 1000000000 % k * 1000000000) hk'
  have hsplit := Int.mul_ediv_add_emod n 1000000000
  rw [Int.mul_add, Int.mul_add, ← Int.mul_assoc]
  omega

namespace Session

/-! ### Calls -/

inductive Operation where
  | record (a : Answer)
  | finalize (now : Instant) (totalTime : Span)
  | withId (id : SessionId)
  deriving DecidableEq, Repr

/-- A calculation that changes a session where it is. What was changed before an error stays. -/
abbrev InPlace := ExceptT SessionError (StateM Session)

def recordInPlace (a : Answer) : InPlace Unit := do
  if (← get).completed then throw .alreadyCompleted
  if (← get).total ≤ (← get).answered then throw (.tooManyAnswers (← get).total)
  if a.isCorrect then modify fun s => { s with correct := Count.next s.correct }
  modify fun s => { s with answers := s.answers ++ [a] }

def finalizeInPlace (now : Instant) (totalTime : Span) : InPlace Unit := do
  if (← get).completed then throw .alreadyCompleted
  if now < (← get).startedAt then throw .invalidTimeRange
  if maxAnswers < (← get).answers.length then throw (.overflow (← get).answers.length)
  modify fun s => { s with totalTime := totalTime }
  modify fun s => { s with averageTime := average totalTime s.answers.length }
  modify fun s => { s with endedAt := some now }
  modify fun s => { s with completed := true }

def perform : Operation → InPlace Unit
  | .record a => recordInPlace a
  | .finalize now totalTime => finalizeInPlace now totalTime
  | .withId id => modify fun s => s.withId id

/-- What a call replies, and the session after it. -/
def call (s : Session) (op : Operation) : Except SessionError Unit × Session :=
  (perform op).run.run s

/-- The session that a result leaves in the place of another one. -/
def settle (s : Session) : Except SessionError Session → Except SessionError Unit × Session
  | .ok s' => (.ok (), s')
  | .error e => (.error e, s)

section Run

variable {α : Type} (s : Session)

theorem run_get_bind (f : Session → InPlace α) :
    (get >>= f : InPlace α).run.run s = (f s).run.run s := rfl

theorem run_throw_bind {β : Type} (e : SessionError) (f : β → InPlace α) :
    (throw e >>= f : InPlace α).run.run s = (.error e, s) := rfl

end Run

theorem call_record (s : Session) (a : Answer) : s.call (.record a) = s.settle (s.record a) := by
  simp only [call, perform, recordInPlace, run_get_bind]
  by_cases hc : s.completed = true
  · rw [if_pos hc, run_throw_bind, record, if_pos hc, settle]
  rw [if_neg hc, run_get_bind, run_get_bind]
  by_cases hl : s.total ≤ s.answered
  · rw [if_pos hl, run_get_bind, run_throw_bind, record, if_neg hc, if_pos hl, settle]
  -- both changes come after both checks
  rw [if_neg hl, record, if_neg hc, if_neg hl, settle]
  cases a.isCorrect with
  | true => rfl
  | false => rfl

theorem call_finalize (s : Session) (now : Instant) (totalTime : Span) :
    s.call (.finalize now totalTime) = s.settle (s.finalize now totalTime) := by
  simp only [call, perform, finalizeInPlace, run_get_bind]
  by_cases hc : s.completed = true
  · rw [if_pos hc, run_throw_bind, finalize, if_pos hc, settle]
  rw [if_neg hc, run_get_bind]
  by_cases hs : now < s.startedAt
  · rw [if_pos hs, run_throw_bind, finalize, if_neg hc, if_pos hs, settle]
  rw [if_neg hs, run_get_bind]
  by_cases hl : maxAnswers < s.answers.length
  · rw [if_pos hl, run_get_bind, run_throw_bind, finalize, if_neg hc, if_neg hs, if_pos hl, settle]
  rw [if_neg hl, finalize, if_neg hc, if_neg hs, if_neg hl, settle]
  rfl

/-- What a call makes of a session, if it is not refused. -/
def outcome (s : Session) : Operation → Except SessionError Session
  | .record a => s.record a
  | .finalize now totalTime => s.finalize now totalTime
  | .withId id => .ok (s.withId id)

/-- A call either changes the session all at once or leaves it alone. -/
theorem call_eq_settle (s : Session) (op : Operation) : s.call op = s.settle (s.outcome op) := by
  cases op with
  | record a => exact call_record s a
  | finalize now totalTime => exact call_finalize s now totalTime
  | withId id => rfl

theorem call_cases (s : Session) (op : Operation) :
    (∃ e, s.call op = (.error e, s)) ∨
      ∃ s', s.outcome op = .ok s' ∧ s.call op = (.ok (), s') := by
  rw [call_eq_settle]
  cases h : s.outcome op with
  | error e => exact .inl ⟨e, rfl⟩
  | ok s' => exact .inr ⟨s', rfl, rfl⟩

/-- What holds after a call if it holds before and of what the call makes of the session. -/
theorem call_induction {p : Session → Prop} {s : Session} {op : Operation} (hs : p s)
    (hnext : ∀ s', s.outcome op = .ok s' → p s') : p (s.call op).2 := by
  obtain ⟨e, hcall⟩ | ⟨s', hnew, hcall⟩ := call_cases s op
  · rw [hcall]
    exact hs
  · rw [hcall]
    exact hnext s' hnew

def after (s : Session) (ops : List Operation) : Session :=
  ops.foldl (fun s op => (s.call op).2) s

theorem after_cons (s : Session) (op : Operation) (ops : List Operation) :
    s.after (op :: ops) = (s.call op).2.after ops := rfl

theorem after_append (s : Session) (first later : List Operation) :
    s.after (first ++ later) = (s.after first).after later :=
  List.foldl_append

/-! ### What calls preserve -/

/-- How a session arises, with a number of questions that can be counted. Answers that were stored
can be counted too, but there may be more of them than questions. -/
inductive Arises : Session → Prop where
  | started (category : Category) {total : Nat} (now : Instant) (few : total ≤ maxCount) :
    Arises (start category total now)
  | restored {id : SessionId} {category : Category} {total correct : Nat} {answers : List Answer}
    {totalTime averageTime : Span} {startedAt : Instant} {endedAt : Option Instant}
    {completed : Bool} {s : Session} (few : total ≤ maxCount) (countable : answers.length ≤ maxCount)
    (h : restore id category total answers correct totalTime averageTime startedAt endedAt
      completed = .ok s) : Arises s

/-- What holds of a session that arose, and what every call preserves. -/
structure Sound (s : Session) : Prop where
  few : s.total ≤ maxCount
  countable : s.answers.length ≤ maxCount
  counted : s.correct = countCorrect s.answers
  ordered : ∀ ended, s.endedAt = some ended → s.startedAt ≤ ended

variable {s s' : Session} {op : Operation}

theorem Arises.sound (h : s.Arises) : s.Sound := by
  cases h with
  | started category now few => exact ⟨few, Nat.zero_le _, rfl, fun _ he => nomatch he⟩
  | restored few countable h =>
    obtain ⟨hordered, -, hcounted, rfl⟩ := restore_eq_ok_iff.mp h
    exact ⟨few, countable, hcounted.symm,
      fun ended he => Instant.le_of_not_lt (hordered ended he)⟩

theorem Sound.answered_eq (h : s.Sound) : s.answered = s.answers.length :=
  Nat.min_eq_left h.countable

theorem Sound.record {a : Answer} (h : s.Sound) (hr : s.record a = .ok s') : s'.Sound := by
  obtain ⟨-, hroom, rfl⟩ := record_eq_ok_iff.mp hr
  rw [h.answered_eq] at hroom
  have hlength : s.answers.length < maxCount := Nat.lt_of_lt_of_le hroom h.few
  refine ⟨h.few, ?_, ?_, h.ordered⟩
  · rw [List.length_append]
    exact hlength
  · -- the counter saturates only where there is no room for another answer
    have hcorrect : s.correct < maxCount := by
      rw [h.counted]
      exact Nat.lt_of_le_of_lt (countCorrect_le s.answers) hlength
    rw [countCorrect_append, ← h.counted]
    cases ha : a.isCorrect with
    | true => simp [countCorrect, ha, Count.next, Nat.min_eq_left hcorrect]
    | false => simp [countCorrect, ha]

theorem Sound.finalize {now : Instant} {d : Span} (h : s.Sound) (hf : s.finalize now d = .ok s') :
    s'.Sound := by
  obtain ⟨-, hstarted, -, rfl⟩ := finalize_eq_ok_iff.mp hf
  refine ⟨h.few, h.countable, h.counted, ?_⟩
  rintro ended ⟨⟩
  exact Instant.le_of_not_lt hstarted

theorem Sound.outcome (h : s.Sound) (ho : s.outcome op = .ok s') : s'.Sound := by
  cases op with
  | record a => exact h.record ho
  | finalize now totalTime => exact h.finalize ho
  | withId id =>
    obtain rfl := Except.ok.inj ho
    exact ⟨h.few, h.countable, h.counted, h.ordered⟩

theorem Sound.after (h : s.Sound) (ops : List Operation) : (s.after ops).Sound := by
  induction ops generalizing s with
  | nil => exact h
  | cons op ops ih => exact ih (call_induction h fun _ ho => h.outcome ho)

/-! ### Completed sessions -/

/-- Two sessions that differ at most in their numbers. -/
def SameButId (s s' : Session) : Prop :=
  ∃ id, s' = { s with id := id }

theorem SameButId.refl (s : Session) : s.SameButId s :=
  ⟨s.id, rfl⟩

theorem outcome_of_completed (hc : s.completed = true) (ho : s.outcome op = .ok s') :
    s.SameButId s' := by
  cases op with
  | record a =>
    obtain ⟨hopen, -, -⟩ := record_eq_ok_iff.mp ho
    exact absurd hc (by rw [hopen]; decide)
  | finalize now totalTime =>
    obtain ⟨hopen, -, -, -⟩ := finalize_eq_ok_iff.mp ho
    exact absurd hc (by rw [hopen]; decide)
  | withId id => exact ⟨some id, (Except.ok.inj ho).symm⟩

theorem call_of_completed (hc : s.completed = true) (op : Operation) :
    s.SameButId (s.call op).2 :=
  call_induction (SameButId.refl s) fun _ ho => outcome_of_completed hc ho

theorem after_of_completed (hc : s.completed = true) (ops : List Operation) :
    s.SameButId (s.after ops) := by
  induction ops generalizing s with
  | nil => exact SameButId.refl s
  | cons op ops ih =>
    obtain ⟨id, hcall⟩ := call_of_completed hc op
    have hc' : (s.call op).2.completed = true := by
      rw [hcall]
      exact hc
    obtain ⟨id', hafter⟩ := ih hc'
    refine ⟨id', ?_⟩
    rw [after_cons, hafter, hcall]

/-! ### What is seen of a session -/

/-- The counts of a session are those of its answers, and it does not end before its start. -/
structure Tallies (s : Session) : Prop where
  right : s.correct = s.answers.countP fun a => a.isCorrect
  wrong : s.wrong = s.answers.countP fun a => !a.isCorrect
  ordered : ∀ ended, s.endedAt = some ended → s.startedAt ≤ ended

theorem Sound.tallies (h : s.Sound) : s.Tallies := by
  refine ⟨h.counted, ?_, h.ordered⟩
  have hsplit := s.answers.length_eq_countP_add_countP fun a => a.isCorrect
  rw [Session.wrong, h.answered_eq, h.counted, countCorrect, hsplit, Nat.add_sub_cancel_left]
  simp only [Bool.not_eq_true, Bool.decide_eq_false]

/-- What a call does to a session. -/
structure Conducts (s : Session) (op : Operation) (reply : Except SessionError Unit)
    (s' : Session) : Prop where
  /-- A call that is refused changes nothing. -/
  refused : ∀ e, reply = .error e → s' = s
  /-- An answer is the last one of the session, which has a question for each. -/
  recorded : ∀ a, op = .record a → reply = .ok () →
    s'.answers = s.answers ++ [a] ∧ s'.answers.length ≤ s'.total ∧ s'.total = s.total
  /-- What is lost in the average is less than two nanoseconds for each answer. -/
  averaged : ∀ now d, op = .finalize now d → reply = .ok () →
    s'.totalTime = d ∧ (0 < s'.answers.length → 0 ≤ d.nanos →
      0 ≤ s'.totalTime.nanos - s'.answers.length * s'.averageTime.nanos ∧
        s'.totalTime.nanos - s'.answers.length * s'.averageTime.nanos < 2 * s'.answers.length)
  /-- A completed session keeps everything but its number. -/
  completed : s.completed = true → s.SameButId s'

theorem Sound.recorded {a : Answer} (h : s.Sound) (hr : s.record a = .ok s') :
    s'.answers = s.answers ++ [a] ∧ s'.answers.length ≤ s'.total ∧ s'.total = s.total := by
  obtain ⟨-, hroom, rfl⟩ := record_eq_ok_iff.mp hr
  rw [h.answered_eq] at hroom
  refine ⟨rfl, ?_, rfl⟩
  rw [List.length_append]
  exact hroom

theorem averaged_of_finalize {now : Instant} {d : Span} (hf : s.finalize now d = .ok s') :
    s'.totalTime = d ∧ (0 < s'.answers.length → 0 ≤ d.nanos →
      0 ≤ s'.totalTime.nanos - s'.answers.length * s'.averageTime.nanos ∧
        s'.totalTime.nanos - s'.answers.length * s'.averageTime.nanos < 2 * s'.answers.length) := by
  obtain ⟨-, -, -, rfl⟩ := finalize_eq_ok_iff.mp hf
  refine ⟨rfl, fun hanswers hd => ?_⟩
  have haverage : average d s.answers.length = d.divide s.answers.length hanswers :=
    dif_pos hanswers
  rw [haverage]
  exact Span.partNanos_near hd hanswers

theorem Sound.conducts (h : s.Sound) (op : Operation) :
    s.Conducts op (s.call op).1 (s.call op).2 := by
  have hcompleted := fun hc => call_of_completed (s := s) hc op
  obtain ⟨e, hcall⟩ | ⟨s', ho, hcall⟩ := call_cases s op
  · rw [hcall] at hcompleted ⊢
    refine ⟨fun _ _ => rfl, ?_, ?_, hcompleted⟩
    · intro a _ hok
      cases hok
    · intro now d _ hok
      cases hok
  · rw [hcall] at hcompleted ⊢
    refine ⟨?_, ?_, ?_, hcompleted⟩
    · intro e he
      cases he
    · rintro a rfl -
      exact h.recorded ho
    · rintro now d rfl -
      exact averaged_of_finalize ho

/-- However a session arose and whatever was called on it, its counts are those of its answers, and it
does not end before its start. The next call changes nothing if it is refused, takes an answer only to
a question, and averages with a loss below two nanoseconds for each answer. Of a completed session no
calls change anything but its number. -/
theorem conduct (h : s.Arises) (ops : List Operation) :
    (s.after ops).Tallies ∧
      (∀ op, (s.after ops).Conducts op ((s.after ops).call op).1 ((s.after ops).call op).2) ∧
      ((s.after ops).completed = true →
        ∀ later, (s.after ops).SameButId (s.after (ops ++ later))) := by
  have hsound := h.sound.after ops
  refine ⟨hsound.tallies, hsound.conducts, fun hc later => ?_⟩
  rw [after_append]
  exact after_of_completed hc later

/-- A stored session may have an end and more answers than questions, and not be completed. It takes
no answer then, but it can be completed: ten nanoseconds for three answers are three each, and one
more. -/
theorem conduct_of_overfull :
    let answer (text : String) : Answer :=
      .restore "27 + 56" "83" text .mixed .zero .epoch
    let answers := [answer "83", answer "38", answer "83"]
    let s : Session := ⟨some ⟨7⟩, .mixed, 1, answers, 2, .zero, .zero, .epoch, some .epoch, false⟩
    let ended : Session := { s with
      totalTime := ⟨10, by decide⟩, averageTime := ⟨3, by decide⟩, completed := true }
    s.Arises ∧ s.call (.record (answer "83")) = (.error (.tooManyAnswers 1), s) ∧
      s.after [.record (answer "83"), .finalize .epoch ⟨10, by decide⟩] = ended ∧
      ended.Tallies ∧ ended.wrong = 1 ∧
      ∀ later, ended.SameButId (ended.after later) := by
  intro answer answers s ended
  have hrestore : restore ⟨7⟩ .mixed 1 answers 2 .zero .zero .epoch (some .epoch) false = .ok s :=
    rfl
  have harises : s.Arises := .restored (by decide) (by decide) hrestore
  have hended : s.after [.record (answer "83"), .finalize .epoch ⟨10, by decide⟩] = ended := by
    decide
  obtain ⟨htallies, -, hfinal⟩ :=
    conduct harises [.record (answer "83"), .finalize .epoch ⟨10, by decide⟩]
  rw [hended] at htallies hfinal
  refine ⟨harises, rfl, hended, htallies, by decide, fun later => ?_⟩
  have hlater := hfinal rfl later
  rwa [after_append, hended] at hlater

end Session

end MentalMath
