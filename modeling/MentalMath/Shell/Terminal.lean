import MentalMath.Service.History
import MentalMath.Service.Notebook
import MentalMath.Service.Settings
import MentalMath.Shell.Desk
import MentalMath.Shell.Usage.Reader

/-! The commands at the terminal. A command begins with a reply; while it waits, each event brings
another one; at the end of the input a waiting command says its last lines. -/

namespace MentalMath.Shell

/-- What a command waits for. -/
inductive Waiting where
  | practice (d : Desk)
  | retry (id : MistakeId)
  | reset
  deriving DecidableEq, Repr

/-- The reply to what a store answers. -/
def Reply.ofStore {α ω : Type} (m : StoreM α) (f : α → Reply ω) : Program (Reply ω) := do
  match ← m.run with
  | .error e => return .failed (.storage e)
  | .ok a => return f a

/-- The reply to what a store answers, where the question to the store may have no result. -/
def Reply.ofChecked {α ω : Type} (m : Checked (StoreM α)) (f : α → Program (Reply ω)) :
    Program (Reply ω) :=
  match m with
  | .error e => return .broken e
  | .ok m => do
    match ← m.run with
    | .error e => return .failed (.storage e)
    | .ok a => f a

namespace Command

/-- Practices a category. Without a number of problems it is that of the preferences. -/
def runPractice (c : Category) (count : Option Nat) (g : Generator) (now : Instant) :
    Program (Reply Waiting) := do
  let count : Except StorageError Nat ← match count with
    | some n => pure (.ok n)
    | none => (Preferences.questions <$> Settings.load now).run
  match count with
  | .error e => return .failed (.storage e)
  | .ok n => return (← Desk.start g c n now).map .practice

/-- Lists mistakes. -/
def showEntries (f : MistakeFilter) : Bool → Program (Reply Waiting)
  | true => Reply.ofStore (Notebook.grouped f) fun gs => .done (gs.flatMap Report.mistakeGroup)
  | false => Reply.ofStore (Notebook.list f) fun ms => .done (Report.mistakeList ms)

/-- Lists mistakes after how many there are. -/
def showMistakes (f : MistakeFilter) (grouped : Bool) : Program (Reply Waiting) := do
  match ← Notebook.counts.run with
  | .error e => return .failed (.storage e)
  | .ok counts => return (← showEntries f grouped).after (Report.counts counts)

def checkAttempt (id : MistakeId) (attempt : String) : Program (Reply Waiting) :=
  Reply.ofStore (Notebook.retry id attempt) fun r => .done (Report.retried r)

def showHistory (r : HistoryRange) (c : Option Category) (now : Instant) :
    Program (Reply Waiting) :=
  Reply.ofChecked (History.list r c now) fun sessions =>
    if sessions.isEmpty then return .done (Report.noSessions r)
    else Reply.ofChecked (History.stats r c now) fun
      | .error f => return .broken f
      | .ok stats => return .done (Report.totals stats ++ Report.sessions sessions)

/-- Shows the preferences after a change. -/
def showSettings (u : PreferencesUpdate) (now : Instant) : Program (Reply Waiting) :=
  if u.isEmpty then Reply.ofStore (Settings.load now) fun p => .done (Report.preferences p)
  else do
    match ← (Settings.update u now).run with
    | .error e => return .failed (.settings e)
    | .ok p => return .done (Report.preferences p)

def resetAll (now : Instant) : Program (Reply Waiting) :=
  Reply.ofStore (Settings.resetAll now) fun r => .done (Report.reset r)

def usesDatabase : Command → Bool
  | .categories => false
  | _ => true

/-- Begins a command. -/
def start (g : Generator) (now : Instant) : Command → Program (Reply Waiting)
  | .categories => return .done Report.categories
  | .practice c count => runPractice c count g now
  | .mistakes f grouped => showMistakes f grouped
  | .master id => Reply.ofStore (Notebook.master id) fun m => .done (Report.mastered m)
  | .retry id (some attempt) => checkAttempt id attempt
  | .retry id none =>
    Reply.ofStore (Notebook.get id) fun m => ⟨m.expression ++ " = ", "", .waits (.retry id)⟩
  | .clear f => Reply.ofStore (Notebook.clear f) fun n => .done (Report.removed n)
  | .history r c => showHistory r c now
  | .settings u => showSettings u now
  | .reset true => resetAll now
  | .reset false => return ⟨Report.resetQuestion, "", .waits .reset⟩

end Command

namespace Waiting

/-- What comes of an event. -/
def react : Waiting → Event → Program (Reply Waiting)
  | .practice d, e => do return (← d.react e).map .practice
  | .retry id, .line line _ => Command.checkAttempt id (Text.trim line)
  | .reset, .line line now =>
    if Text.trim line = "yes" then Command.resetAll now else return .done Report.cancelled
  | w, .tick _ => return .waiting [] w

/-- What is said at the end of the input. -/
def farewell : Waiting → List String
  | .practice _ => Report.abandoned
  | .retry _ => []
  | .reset => Report.cancelled

end Waiting

/-- What a whole call of the program prints, and its exit code. -/
structure Outcome where
  code : Nat
  out : String
  err : String
  deriving DecidableEq, Repr

namespace Outcome

/-- An outcome after what a reply says. -/
def after {ω : Type} (r : Reply ω) (o : Outcome) : Outcome :=
  ⟨o.code, r.out ++ o.out, r.err ++ o.err⟩

/-- The outcome of a call that ends with a reply. -/
def ofCode {ω : Type} (r : Reply ω) (code : Nat) : Outcome :=
  ⟨code, r.out, r.err⟩

end Outcome

/-- Goes on from a reply with the events that are left. -/
def follow (r : Reply Waiting) : List Event → Program Outcome
  | [] =>
    match r.next with
    | .exit code => return .ofCode r code
    | .waits w => return Outcome.after r ⟨0, textOf w.farewell, ""⟩
  | e :: events =>
    match r.next with
    | .exit code => return .ofCode r code
    | .waits w => do return (← follow (← w.react e) events).after r

/-- Begins the command of a call. -/
def Invocation.start (i : Invocation) (g : Generator) (now : Instant) : Program (Reply Waiting) :=
  if i.command.usesDatabase && lacksPath i.address then return .failed (.pathless i.address)
  else i.command.start g now

/-- Carries a call out over the events of its terminal. -/
def Invocation.run (i : Invocation) (g : Generator) (now : Instant) (events : List Event) :
    Program Outcome := do
  follow (← i.start g now) events

end MentalMath.Shell
