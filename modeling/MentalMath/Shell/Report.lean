import MentalMath.Decimal.Binary
import MentalMath.Practice.Tracker
import MentalMath.Service.History
import MentalMath.Service.Notebook
import MentalMath.Service.Settings
import MentalMath.Shell.Table
import MentalMath.Time.Span
import MentalMath.Time.Stamp.Writer

/-! What the commands print, line by line. -/

namespace MentalMath.Shell

/-- Lines as a text, each with its end. -/
def textOf (lines : List String) : String :=
  String.join (lines.map (· ++ "\n"))

namespace Report

def categories : List String :=
  Table.lines {
    header := ["Slug", "Name", "Example", "Questions", "Target time"]
    rows := Category.all.map fun c =>
      [c.slug, c.title, c.sample, toString c.fullSet, c.targetTime.summaryText] }

def welcome (c : Category) : List String :=
  [c.title ++ ": " ++ c.hint,
    "Type an answer and press Enter. `p` pauses or resumes, `t` shows the time, `q` quits."]

/-- The options of a problem with their numbers. -/
def optionsLine (options : List String) : String :=
  "    " ++ "   ".intercalate (options.zipIdx.map fun (option, i) =>
    toString (i + 1) ++ ") " ++ option)

def problem (t : Tracker) : List String :=
  match t.currentProblem? with
  | none => []
  | some p =>
    let progress := t.progress
    let place := "[" ++ toString (progress.answered + 1) ++ "/" ++ toString progress.total ++ "] "
    ["", place ++ p.expression ++ " = ?"] ++ (p.options.map optionsLine).toList

/-- That a run is paused. -/
def paused : List String :=
  ["Paused. Type `p` to resume."]

def times (e : ElapsedTimes) : List String :=
  ["session " ++ e.session.clockText ++ "  question " ++ e.question.clockText]

/-- That a run takes longer than the target time. -/
def overtime (target : Span) : List String :=
  ["(past the " ++ target.summaryText ++ " target for this category)"]

def grade (a : Answer) : List String :=
  if a.isCorrect then ["✓ (" ++ a.timeSpent.summaryText ++ ")"]
  else ["✗ " ++ a.expression ++ " = " ++ a.correctAnswer]

def missed (answers : List Answer) : List String :=
  if answers.isEmpty then []
  else "Missed:" :: answers.map fun a =>
    "  " ++ a.expression ++ " = " ++ a.correctAnswer ++ " (you: " ++ a.userAnswer ++ ")"

def summary (s : Session) : List String :=
  ["", "Done: " ++ toString s.correct ++ "/" ++ toString s.total ++ " correct ("
      ++ Decimal.percentText s.rate ++ ")",
    "Total " ++ s.totalTime.summaryText ++ "  average " ++ s.averageTime.summaryText,
    s.tier.message] ++ missed s.missed

/-- That a run was left. -/
def abandoned : List String :=
  ["Session abandoned."]

def counts (c : MistakeCounts) : List String :=
  [toString c.all ++ " entries: " ++ toString c.notMastered ++ " not mastered, "
    ++ toString c.mastered ++ " mastered"]

/-- A row for a mistake. -/
def mistakeRow (m : Mistake) : List String :=
  [(m.id.map fun i => toString i.value).getD "", m.expression, m.correctAnswer, m.userAnswer,
    toString m.count, m.lastAt.minuteText, if m.mastered then "yes" else ""]

def mistakes (ms : List Mistake) : List String :=
  Table.lines {
    header := ["Id", "Problem", "Answer", "Last wrong", "Misses", "Last seen", "Mastered"]
    rows := ms.map mistakeRow }

/-- A list of mistakes, which is left out if there are none. -/
def mistakeList (ms : List Mistake) : List String :=
  if ms.isEmpty then [] else mistakes ms

/-- The mistakes of a category. -/
def mistakeGroup (g : MistakeGroup) : List String :=
  ["", g.category.title ++ " (" ++ toString g.mistakes.length ++ ")"] ++ mistakes g.mistakes

/-- That a mistake was marked. -/
def mastered (m : Mistake) : List String :=
  ["Marked " ++ m.expression ++ " as mastered."]

def retried (r : RetryResult) : List String :=
  if r.isCorrect then ["Correct!"] else ["Not quite. The answer is " ++ r.correctAnswer ++ "."]

/-- How many mistakes were taken out. -/
def removed (n : Nat) : List String :=
  ["Removed " ++ toString n ++ " entries."]

/-- That there are no sessions to show. -/
def noSessions (r : HistoryRange) : List String :=
  ["No completed sessions (" ++ r.slug ++ ")."]

def totals (s : HistoryStats) : List String :=
  (toString s.sessions ++ " sessions, " ++ toString s.questions ++ " questions, average "
      ++ Decimal.percentText s.averageRate ++ " correct, " ++ s.totalTime.summaryText ++ " total")
    :: s.categories.map fun (c, n) => "  " ++ Text.paddedRight 20 c.title ++ " " ++ toString n

/-- A row for a session. -/
def sessionRow (s : Session) : List String :=
  [s.startedAt.minuteText, s.category.title, toString s.correct ++ "/" ++ toString s.total,
    Decimal.percentText s.rate, s.totalTime.summaryText, s.averageTime.summaryText]

def sessions (ss : List Session) : List String :=
  Table.lines {
    header := ["Started", "Category", "Score", "Rate", "Time", "Avg"]
    rows := ss.map sessionRow }

def onOff (b : Bool) : String :=
  if b then "on" else "off"

def preferences (p : Preferences) : List String :=
  ["questions per session  " ++ toString p.questions,
    "sound                  " ++ onOff p.sound,
    "haptic feedback        " ++ onOff p.haptics,
    "auto submit            " ++ onOff p.autoSubmit]

/-- The question before all data is put back to the start. -/
def resetQuestion : String :=
  "This deletes all sessions and mistakes. Type `yes` to continue: "

/-- That nothing was removed. -/
def cancelled : List String :=
  ["Cancelled."]

def reset (r : ResetSummary) : List String :=
  ["Removed " ++ toString r.sessions ++ " sessions and " ++ toString r.mistakes
    ++ " mistakes; preferences restored to defaults."]

end Report

end MentalMath.Shell
