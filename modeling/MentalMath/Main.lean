import Std.Time.DateTime.Timestamp
import MentalMath.Shell.Usage.Help
import MentalMath.Storage.Relational.Archive
import MentalMath.Time.Ticker

/-! The program at a terminal: it reads the arguments, hands lines and ticks of the clock to the
command, prints what the command says, and keeps the database in its file. -/

namespace MentalMath.Main

open Shell

def now : IO Instant := do
  let nanos := (← Std.Time.Timestamp.now).toNanosecondsSinceUnixEpoch.val
  return (Instant.ofNanos? nanos).getD Instant.epoch

/-- A seed that nobody chose. -/
def freshSeed : IO UInt64 := do
  return (← IO.getRandomBytes 8).foldl (fun n b => n * 256 + b.toUInt64) 0

/-- The database of a call: that of the file at its address, or an empty one. -/
def load (call : Invocation) : IO (Option Database) := do
  match if call.command.usesDatabase then filePath? call.address else none with
  | none => return some Database.empty
  | some path =>
    try return Archive.read? (← IO.FS.readFile path)
    catch
      | .noFileOrDirectory .. => return some Database.empty
      | e => throw e

/-- Keeps a database in the file of an address, if it was changed. -/
def save (address : String) (before after : Database) : IO Unit :=
  match filePath? address with
  | some path => do
    if before ≠ after then
      IO.FS.createDirAll (parentPath path)
      IO.FS.writeFile path (Archive.write after)
  | none => return ()

def print (out err : String) : IO Unit := do
  (← IO.getStdout).putStr out
  (← IO.getStdout).flush
  (← IO.getStderr).putStr err

def nextLine : IO (Task (Except IO.Error String)) := do
  IO.asTask (← IO.getStdin).getLine

/-- Runs a step of a command on the database and prints what it says. -/
def step (address : String) (db : Database) (program : Program (Reply Waiting)) :
    IO (Next Waiting × Database) := do
  let (reply, after) := program.run db
  save address db after
  print reply.out reply.err
  return (reply.next, after)

/-- Hands events to a command until it is over. The answer is the exit code. -/
partial def attend (address : String) (db : Database) (line : Task (Except IO.Error String)) :
    Next Waiting → IO UInt32
  | .exit code => return code.toUInt32
  | .waits w => do
    if ← IO.hasFinished line then
      let text ← IO.ofExcept line.get
      if text.isEmpty then
        print (textOf w.farewell) ""
        return 0
      let (next, db) ← step address db (w.react (.line text (← now)))
      match next with
      | .exit code => return code.toUInt32
      | next => attend address db (← nextLine) next
    else
      IO.sleep Ticker.displayPeriod.toUInt32
      let (next, db) ← step address db (w.react (.tick (← now)))
      attend address db line next

def perform (call : Invocation) : IO UInt32 := do
  match ← load call with
  | none =>
    print "" ("Error: failed to open database " ++ call.address ++ "\n")
    return 1
  | some db =>
    let seed ← match call.seed with
      | some n => pure n.toUInt64
      | none => freshSeed
    let (next, db) ← step call.address db (call.start (.seeded seed) (← now))
    match next with
    | .exit code => return code.toUInt32
    | next => attend call.address db (← nextLine) next

/-- Carries out the call that the arguments make, or says why they make none. -/
def start (arguments : List String) : IO UInt32 := do
  let directory := (← IO.currentDir).toString
  let environment : Environment :=
    ⟨directory, ← IO.getEnv "QUICKCAL_DB_URL", ← IO.getEnv "QUICKCAL_SEED"⟩
  match Invocation.ofArguments environment arguments with
  | .error halt =>
    let outcome := halt.outcome
    print outcome.out outcome.err
    return outcome.code.toUInt32
  | .ok call => perform call

end MentalMath.Main

def main (arguments : List String) : IO UInt32 :=
  MentalMath.Main.start arguments
