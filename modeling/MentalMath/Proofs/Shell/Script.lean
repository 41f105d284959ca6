import MentalMath.Proofs.Session
import MentalMath.Shell.Desk

/-! What a script of lines and ticks comes to, told without the run that reads it: the texts that it
hands in as answers, and the session that records them. -/

namespace MentalMath

/-- An answer apart from the time spent on it. -/
def Answer.untimed (a : Answer) : Answer :=
  { a with timeSpent := .zero }

namespace Shell

/-! ### The texts of a script -/

def Event.time : Event → Instant
  | .tick now => now
  | .line _ now => now

/-- The texts that a script hands in as answers, with their times. Its lines are read without the
blanks around them, up to the first that leaves the run; what is typed while the run is paused is
dropped. -/
def heard (paused : Bool) : List Event → List (String × Instant)
  | [] => []
  | .tick _ :: events => heard paused events
  | .line line now :: events =>
    let text := Text.trim line
    if text ∈ ["q", "quit"] then []
    else if text ∈ ["p", "pause"] then heard (!paused) events
    else if paused ∨ text ∈ ["", "t", "time"] then heard paused events
    else (text, now) :: heard paused events

theorem heard_line (paused : Bool) (line : String) (now : Instant) (events : List Event) :
    heard paused (.line line now :: events) = match Typed.ofLine line with
      | .leave => []
      | .pause => heard (!paused) events
      | .blank | .time => heard paused events
      | .answer text =>
        if paused then heard paused events else (text, now) :: heard paused events := by
  generalize h : Typed.ofLine line = typed
  unfold Typed.ofLine at h
  split at h
  all_goals
    subst h
    simp_all [heard]

/-- Texts graded against problems in their order, as far as there are both. -/
def graded (problems : List Problem) (texts : List (String × Instant)) : List Answer :=
  List.zipWith (fun p (text, now) => Answer.grade p (p.resolve text) .zero now) problems texts

theorem graded_concat {problems : List Problem} {texts : List (String × Instant)} {p : Problem}
    (h : problems[texts.length]? = some p) (text : String) (now : Instant) :
    graded problems (texts ++ [(text, now)]) =
      graded problems texts ++ [Answer.grade p (p.resolve text) .zero now] := by
  induction texts generalizing problems with
  | nil =>
    cases problems with
    | nil => cases h
    | cons q problems =>
      cases h
      simp [graded]
  | cons t texts ih =>
    cases problems with
    | nil => cases h
    | cons q problems => exact congrArg (_ :: ·) (ih h)

/-- Texts that come after as many as there are problems are not graded. -/
theorem graded_append {problems : List Problem} {texts : List (String × Instant)}
    (h : problems.length ≤ texts.length) (more : List (String × Instant)) :
    graded problems (texts ++ more) = graded problems texts := by
  induction texts generalizing problems with
  | nil =>
    obtain rfl := List.length_eq_zero_iff.mp (Nat.le_zero.mp h)
    rfl
  | cons t texts ih =>
    cases problems with
    | nil => rfl
    | cons q problems => exact congrArg (_ :: ·) (ih (Nat.le_of_succ_le_succ h))

/-! ### The session of a script -/

/-- What a run practices. -/
structure Exercise where
  category : Category
  problems : List Problem
  start : Instant

/-- A session of an exercise in which some texts were handed in. -/
structure Exercise.Recorded (x : Exercise) (texts : List (String × Instant)) (s : Session) : Prop where
  category : s.category = x.category
  total : s.total = x.problems.length
  startedAt : s.startedAt = x.start
  answers : s.answers.map Answer.untimed = graded x.problems texts
  completed : s.completed = true ↔ x.problems.length ≤ texts.length

namespace Exercise

variable {x : Exercise} {texts : List (String × Instant)} {p : Problem} {text : String} {now : Instant}
  {spent total : Span} {s s' final : Session}

theorem Recorded.map_untimed_record (h : x.Recorded texts s)
    (hx : x.problems[texts.length]? = some p)
    (hr : s.record (Answer.grade p (p.resolve text) spent now) = .ok s') :
    s'.answers.map Answer.untimed = graded x.problems (texts ++ [(text, now)]) := by
  obtain ⟨-, -, rfl⟩ := Session.record_eq_ok_iff.mp hr
  rw [List.map_append, h.answers, graded_concat hx]
  rfl

theorem Recorded.record (h : x.Recorded texts s) (hx : x.problems[texts.length]? = some p)
    (hl : texts.length + 1 < x.problems.length)
    (hr : s.record (Answer.grade p (p.resolve text) spent now) = .ok s') :
    x.Recorded (texts ++ [(text, now)]) s' := by
  have hanswers := h.map_untimed_record hx hr
  obtain ⟨hopen, -, rfl⟩ := Session.record_eq_ok_iff.mp hr
  refine ⟨h.category, h.total, h.startedAt, hanswers, ?_⟩
  rw [hopen, List.length_append, List.length_singleton]
  exact ⟨fun hc => (nomatch hc), fun hle => absurd hl (Nat.not_lt.mpr hle)⟩

/-- The last answer completes the session, and what comes after it is not handed in. -/
theorem Recorded.finalize (h : x.Recorded texts s) (hx : x.problems[texts.length]? = some p)
    (hl : ¬texts.length + 1 < x.problems.length)
    (hr : s.record (Answer.grade p (p.resolve text) spent now) = .ok s')
    (hf : s'.finalize now total = .ok final) (more : List (String × Instant)) :
    x.Recorded (texts ++ (text, now) :: more) final := by
  have hanswers := h.map_untimed_record hx hr
  obtain ⟨-, -, rfl⟩ := Session.record_eq_ok_iff.mp hr
  obtain ⟨-, -, -, rfl⟩ := Session.finalize_eq_ok_iff.mp hf
  have hfull : x.problems.length ≤ (texts ++ [(text, now)]).length := by
    rw [List.length_append, List.length_singleton]
    omega
  rw [List.append_cons]
  refine ⟨h.category, h.total, h.startedAt, ?_, ?_⟩
  · rw [graded_append hfull]
    exact hanswers
  · exact ⟨fun _ => Nat.le_trans hfull (List.prefix_append _ more).length_le, fun _ => rfl⟩

end Exercise

end Shell

end MentalMath
