import MentalMath.Shell.Location
import MentalMath.Shell.Usage.Command
import MentalMath.Text.Cut

/-! Reading the arguments of the program from left to right. A value is looked at only when the next
parameter begins or the level ends, so an unknown name is reported before a bad value that stands
just before it. The levels end from the inside out: what is wrong below is reported first. -/

namespace MentalMath.Shell

open Text

/-- What surrounds the program: where it runs, and the variables that stand in for parameters. -/
structure Environment where
  directory : String
  location : Option String
  seed : Option String
  deriving DecidableEq, Repr

def Environment.isEmpty (env : Environment) : Bool :=
  env.location.isNone && env.seed.isNone

/-- Why reading ends without a command. -/
inductive Halt where
  | refused (e : UsageError)
  | nothing
  | help (l : Level)
  | version
  deriving DecidableEq, Repr

instance : MonadLift (Except UsageError) (Except Halt) :=
  ⟨Except.mapError .refused⟩

/-- What an argument looks like. -/
inductive Word where
  /-- Two dashes: all arguments after them are values. -/
  | dashes
  /-- A name after two dashes, and what follows the first equals sign. -/
  | name (name : String) (value : Option String)
  /-- A letter after one dash, and what follows it, apart from an equals sign. -/
  | letter (letter : Char) (value : Option String)
  | plain
  deriving DecidableEq, Repr

def Word.ofText (s : String) : Word :=
  match s.toList with
  | ['-', '-'] => .dashes
  | '-' :: '-' :: cs =>
    let (before, rest) := cut '=' cs
    .name (String.ofList before) (rest.map String.ofList)
  | ['-', c] => .letter c none
  | '-' :: c :: '=' :: cs => .letter c (some (String.ofList cs))
  | '-' :: c :: cs => .letter c (some (String.ofList cs))
  | _ => .plain

/-- What was read at a level. -/
structure Scan where
  /-- The settings, the last one first. -/
  given : List Setting
  /-- The parameter that was read last, and its value if it has come. -/
  pending : Option (Parameter × Option String)
  /-- The places that are still to be filled. -/
  places : List Parameter
  /-- Whether two dashes were read. -/
  dashes : Bool

namespace Scan

def start (l : Level) : Scan :=
  ⟨[], none, l.places, false⟩

def has (s : Scan) (p : Parameter) : Bool :=
  s.given.any fun g => g.parameter == p

/-- Whether an option waits for its value. -/
def awaitsValue (s : Scan) : Bool :=
  match s.pending with
  | some (_, none) => true
  | _ => false

def set (s : Scan) (p : Parameter) (raw : String) : Except UsageError Scan :=
  if s.has p then .error (.repeated p)
  else do return { s with given := ⟨p, ← p.read raw⟩ :: s.given, pending := none }

/-- Looks at the value that was read last. -/
def settle (s : Scan) : Except UsageError Scan :=
  match s.pending with
  | none => .ok s
  | some (p, none) => .error (.missingValue p)
  | some (p, some raw) => s.set p raw

/-- Reads an option or a flag. -/
def option (s : Scan) (l : Level) (p : Parameter) (value : Option String) : Except Halt Scan :=
  match p.form, value with
  | .flag _ _, some v => throw (.refused (.strayValue p v))
  | .flag _ _, none => do
    let s ← s.settle
    match p with
    | .help => throw (.help l)
    | .version => throw .version
    | p => s.set p ""
  | _, none => do return { ← s.settle with pending := some (p, none) }
  | _, some v => do (← s.settle).set p v

/-- The error of a value that has no place. -/
def surplus (s : Scan) (l : Level) (word : String) : UsageError :=
  if l.names.isEmpty || (s.dashes && (l.below? word).isSome) then .unknownArgument word
  else .unknownCommand word

def value (s : Scan) (l : Level) (word : String) : Except UsageError Scan :=
  match s.places with
  | p :: places => do return { ← s.settle with pending := some (p, some word), places := places }
  | [] => .error (s.surplus l word)

/-- Reads an argument that is the value of the option before it, or has a place. -/
def plain (s : Scan) (l : Level) (word : String) : Except UsageError Scan :=
  match s.pending with
  | some (p, none) => .ok { s with pending := some (p, some word) }
  | _ => s.value l word

/-- Reads an argument that is no name of a command. -/
def next (s : Scan) (l : Level) (word : String) : Except Halt Scan :=
  if s.dashes then s.value l word
  else
    match Word.ofText word with
    | .dashes => .ok { s with dashes := true }
    | .name name value =>
      match l.named? name with
      | some p => s.option l p value
      | none => throw (.refused (.unknownArgument ("--" ++ name)))
    | .letter c value =>
      match l.lettered? c with
      | some .help => s.option l .help none
      | some .version => s.option l .version none
      | some p => s.option l p value
      | none => throw (.refused (.unknownArgument (String.ofList ['-', c])))
    | .plain => s.plain l word

/-- The level below, if an argument is its name. -/
def below? (s : Scan) (l : Level) (word : String) : Option Level :=
  if s.dashes || s.awaitsValue then none else l.below? word

/-- Ends a level. The variable for the seed has to be a number unless the level has a seed. -/
def close (s : Scan) (env : Environment) : Except UsageError (List Setting) := do
  let s ← s.settle
  if let (false, some raw) := (s.has .seed, env.seed) then
    let _ ← Parameter.seed.read raw
  return s.given

end Scan

/-- The level that help is asked for by the names after `help`. -/
def helpTopic : Level → List String → Except UsageError Level
  | l, [] => .ok l
  | l, name :: rest =>
    match l.below? name with
    | some below => helpTopic below rest
    | none => .error (.unknownCommand name)

/-- Reads the arguments from a level on. The settings of the levels below come first. -/
def readLevel (env : Environment) :
    Level → Scan → List String → Except Halt (Command × List Setting)
  | l, s, [] => do
    let given ← s.close env
    if l == .top && given.isEmpty && env.isEmpty then throw .nothing
    return (← l.command given, given)
  | l, s, word :: rest =>
    match s.below? l word with
    | some .help => do throw (.help (← helpTopic l rest))
    | some below => do
      let (command, inner) ← readLevel env below (Scan.start below) rest
      return (command, inner ++ (← s.close env))
    | none => do readLevel env l (← s.next l word) rest

/-- A call of the program. -/
structure Invocation where
  address : String
  seed : Option Nat
  command : Command
  deriving DecidableEq, Repr

/-- The seed of a variable, if it is set to a number. -/
def Environment.seedNumber? (env : Environment) : Option Nat :=
  env.seed.bind fun raw => (readNat maxUnsigned64 raw).toOption

/-- The call that some arguments make. An argument wins over a variable. -/
def Invocation.ofArguments (env : Environment) (arguments : List String) :
    Except Halt Invocation := do
  let (command, given) ← readLevel env .top (Scan.start .top) arguments
  let location := ((setting? .database given).or env.location).getD defaultLocation
  return {
    address := normalizeLocation env.directory location
    seed := (setting? .seed given).or env.seedNumber?
    command := command }

end MentalMath.Shell
