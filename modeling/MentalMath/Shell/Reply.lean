import MentalMath.Fault
import MentalMath.Service.Settings
import MentalMath.Practice.Run
import MentalMath.Shell.Location
import MentalMath.Shell.Report

/-! The exchange between a command and the terminal: what comes in, what a command says to it, and
how a command goes on. -/

namespace MentalMath.Shell

/-- What the terminal brings while a command waits. -/
inductive Event where
  | tick (now : Instant)
  | line (text : String) (now : Instant)
  deriving DecidableEq, Repr

/-- How a command goes on, where `ω` tells what it waits for. -/
inductive Next (ω : Type) where
  | exit (code : Nat)
  | waits (state : ω)
  deriving DecidableEq, Repr

/-- What a command says, and how it goes on. -/
structure Reply (ω : Type) where
  out : String
  err : String
  next : Next ω
  deriving DecidableEq, Repr

/-- Why a command fails. -/
inductive CommandError where
  | pathless (address : String)
  | storage (e : StorageError)
  | settings (e : SettingsError)
  | run (e : RunError)
  deriving DecidableEq, Repr

def CommandError.message : CommandError → String
  | .pathless address => emptyPathMessage address
  | .storage e => e.message
  | .settings e => e.message
  | .run e => e.message

namespace Next

def map {α β : Type} (f : α → β) : Next α → Next β
  | .exit code => .exit code
  | .waits a => .waits (f a)

end Next

namespace Reply

variable {ω : Type}

/-- Prints lines, and the command is over. -/
def done (lines : List String) : Reply ω :=
  ⟨textOf lines, "", .exit 0⟩

/-- Prints lines, and the command waits. -/
def waiting (lines : List String) (state : ω) : Reply ω :=
  ⟨textOf lines, "", .waits state⟩

def failed (e : CommandError) : Reply ω :=
  ⟨"", "Error: " ++ e.message ++ "\n", .exit 1⟩

def broken (f : Fault) : Reply ω :=
  ⟨"", f.message ++ "\n", .exit 101⟩

/-- Prints lines before a reply. -/
def after (lines : List String) (r : Reply ω) : Reply ω :=
  { r with out := textOf lines ++ r.out }

/-- The same reply with another description of the wait. -/
def map {β : Type} (f : ω → β) (r : Reply ω) : Reply β :=
  ⟨r.out, r.err, r.next.map f⟩

end Reply

end MentalMath.Shell
