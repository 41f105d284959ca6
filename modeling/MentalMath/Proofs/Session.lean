import MentalMath.Session

/-! What a session is made of. The answers of a coherent session are graded, its number of right
answers is that of its answers, it has no more answers than questions, and it does not end before its
start. Sessions are coherent from their start on, whatever they are asked to do. -/

namespace MentalMath

namespace Session

variable {s s' : Session}

/-- A session takes an answer exactly if it is not completed and has room. -/
theorem record_eq_ok_iff {a : Answer} :
    s.record a = .ok s' ↔ s.completed = false ∧ s.answered < s.total ∧
      s' = { s with
        answers := s.answers ++ [a]
        correct := if a.isCorrect then Count.next s.correct else s.correct } := by
  by_cases hc : s.completed = true
  · simp [record, hc]
  rw [Bool.not_eq_true] at hc
  by_cases hl : s.total ≤ s.answered
  · simp [record, hc, hl, Nat.not_lt.mpr hl]
  have hr : s.record a = .ok { s with
      answers := s.answers ++ [a]
      correct := if a.isCorrect then Count.next s.correct else s.correct } := by
    simp [record, hc, hl]
  rw [hr]
  constructor
  · intro h
    exact ⟨hc, Nat.lt_of_not_le hl, (Except.ok.inj h).symm⟩
  · rintro ⟨-, -, h⟩
    rw [h]

/-- A session is completed exactly if it is not completed yet, does not end before its start and
holds no more answers than an average can be taken over. -/
theorem finalize_eq_ok_iff {now : Instant} {d : Span} :
    s.finalize now d = .ok s' ↔ s.completed = false ∧ ¬now < s.startedAt ∧
      s.answers.length ≤ maxAnswers ∧
      s' = { s with
        totalTime := d
        averageTime := average d s.answers.length
        endedAt := some now
        completed := true } := by
  by_cases hc : s.completed = true
  · simp [finalize, hc]
  rw [Bool.not_eq_true] at hc
  by_cases ht : now < s.startedAt
  · simp [finalize, hc, ht]
  by_cases hl : maxAnswers < s.answers.length
  · simp [finalize, hc, ht, hl, Nat.not_le.mpr hl]
  have hf : s.finalize now d = .ok { s with
      totalTime := d
      averageTime := average d s.answers.length
      endedAt := some now
      completed := true } := by
    simp [finalize, hc, ht, hl]
  rw [hf]
  constructor
  · intro h
    exact ⟨hc, ht, Nat.le_of_not_lt hl, (Except.ok.inj h).symm⟩
  · rintro ⟨-, -, -, h⟩
    rw [h]

theorem id_of_record {a : Answer} (h : s.record a = .ok s') : s'.id = s.id := by
  obtain ⟨-, -, rfl⟩ := record_eq_ok_iff.mp h
  rfl

theorem completed_of_record {a : Answer} (h : s.record a = .ok s') : s'.completed = s.completed := by
  obtain ⟨-, -, rfl⟩ := record_eq_ok_iff.mp h
  rfl

theorem id_of_finalize {now : Instant} {d : Span} (h : s.finalize now d = .ok s') : s'.id = s.id := by
  obtain ⟨-, -, -, rfl⟩ := finalize_eq_ok_iff.mp h
  rfl

/-- A session is rebuilt exactly if it does not end before its start and its number of right answers
is that of its answers. -/
theorem restore_eq_ok_iff {id : SessionId} {category : Category} {total correct : Nat}
    {answers : List Answer} {totalTime averageTime : Span} {startedAt : Instant}
    {endedAt : Option Instant} {completed : Bool} :
    restore id category total answers correct totalTime averageTime startedAt endedAt completed =
      .ok s ↔ (∀ ended, endedAt = some ended → ¬ended < startedAt) ∧
        countCorrect answers ≤ maxCount ∧ countCorrect answers = correct ∧
        s = ⟨some id, category, total, answers, correct, totalTime, averageTime, startedAt, endedAt,
          completed⟩ := by
  have hany : endedAt.any (· < startedAt) = false ↔
      ∀ ended, endedAt = some ended → ¬ended < startedAt := by
    cases endedAt <;> simp
  rw [← hany, restore]
  cases endedAt.any (· < startedAt) with
  | true => simp
  | false =>
    by_cases hlarge : maxCount < countCorrect answers
    · simp [hlarge, Nat.not_le.mpr hlarge]
    by_cases hcount : countCorrect answers = correct
    · subst hcount
      simp [hlarge, Nat.le_of_not_lt hlarge, eq_comm]
    · simp [hlarge, hcount]

/-- Answers that can be counted are refused only for a number of right answers that is not theirs. -/
theorem restore_of_ordered {id : SessionId} {category : Category} {total correct : Nat}
    {answers : List Answer} {totalTime averageTime : Span} {startedAt : Instant}
    {endedAt : Option Instant} {completed : Bool}
    (hordered : ∀ ended, endedAt = some ended → ¬ended < startedAt)
    (hcount : countCorrect answers ≤ maxCount) :
    restore id category total answers correct totalTime averageTime startedAt endedAt completed =
      if countCorrect answers = correct then .ok ⟨some id, category, total, answers, correct,
        totalTime, averageTime, startedAt, endedAt, completed⟩
      else .error (.countMismatch correct (countCorrect answers)) := by
  have hany : endedAt.any (· < startedAt) = false := by
    cases endedAt with
    | none => rfl
    | some ended => exact decide_eq_false (hordered ended rfl)
  rw [restore, hany, if_neg Bool.false_ne_true, if_neg (Nat.not_lt.mpr hcount), ite_not]

/-- What holds of every session, also of one with more answers than questions. -/
structure Valid (s : Session) : Prop where
  few : s.total ≤ maxCount
  counted : s.correct = countCorrect s.answers
  graded : ∀ a ∈ s.answers, a.IsGraded
  ordered : ∀ ended, s.endedAt = some ended → ¬ended < s.startedAt

/-- What holds of the sessions of practice runs. -/
structure Coherent (s : Session) : Prop where
  few : s.total ≤ maxCount
  room : s.answers.length ≤ s.total
  counted : s.correct = countCorrect s.answers
  graded : ∀ a ∈ s.answers, a.IsGraded
  ordered : ∀ ended, s.endedAt = some ended → ¬ended < s.startedAt

theorem Coherent.valid (h : s.Coherent) : s.Valid :=
  ⟨h.few, h.counted, h.graded, h.ordered⟩

theorem coherent_start {total : Nat} (h : total ≤ maxCount) (c : Category) (now : Instant) :
    (start c total now).Coherent :=
  ⟨h, Nat.zero_le _, rfl, fun _ ha => (List.not_mem_nil ha).elim, fun _ he => nomatch he⟩

theorem Coherent.withId (h : s.Coherent) (id : SessionId) : (s.withId id).Coherent :=
  ⟨h.few, h.room, h.counted, h.graded, h.ordered⟩

/-- A coherent session has no more answers than questions, let alone right ones. -/
theorem Coherent.correct_le_total (h : s.Coherent) : s.correct ≤ s.total := by
  rw [h.counted]
  exact Nat.le_trans (Session.countCorrect_le s.answers) h.room

theorem Coherent.correct_le (h : s.Coherent) : s.correct ≤ maxCount :=
  Nat.le_trans h.correct_le_total h.few

theorem Coherent.record {a : Answer} (h : s.Coherent) (ha : a.IsGraded)
    (hr : s.record a = .ok s') : s'.Coherent := by
  obtain ⟨-, hanswered, rfl⟩ := record_eq_ok_iff.mp hr
  have hroom := h.room
  have hfew := h.few
  have hle := Session.countCorrect_le s.answers
  simp only [answered] at hanswered
  refine ⟨h.few, ?_, ?_, fun b hb => ?_, h.ordered⟩
  · show (s.answers ++ [a]).length ≤ s.total
    rw [List.length_append, List.length_singleton]
    omega
  · rw [countCorrect_append, ← h.counted]
    cases hc : a.isCorrect with
    | false => simp [countCorrect, hc]
    | true =>
      have hcounted := h.counted
      simp only [if_true, Count.next, countCorrect, List.countP_singleton, hc]
      omega
  · cases List.mem_append.mp hb with
    | inl hb => exact h.graded b hb
    | inr hb => exact List.mem_singleton.mp hb ▸ ha

theorem Coherent.finalize {now : Instant} {d : Span} (h : s.Coherent)
    (hf : s.finalize now d = .ok s') : s'.Coherent := by
  obtain ⟨-, hnow, -, rfl⟩ := finalize_eq_ok_iff.mp hf
  refine ⟨h.few, h.room, h.counted, h.graded, fun ended he => ?_⟩
  cases he
  exact hnow

end Session

end MentalMath
