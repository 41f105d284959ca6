import MentalMath.Text.Cut

/-! Where the database of a session of work is: the location that a user gives is brought into the
form of a connection address, in which a path starts at the root. -/

namespace MentalMath.Shell

open Text

/-- The address of a database that lives only as long as the program. -/
def memoryAddress : String := "sqlite::memory:"

def defaultLocation : String := "sqlite://quickcal.sqlite3"

/-- The path of a location without the scheme of an address. -/
def pathOf (location : List Char) : List Char :=
  match after? "sqlite://".toList location with
  | some path => path
  | none => (after? "sqlite:".toList location).getD location

/-- A path from the root, where `directory` is what other paths start at. -/
def absolutePath (directory : List Char) : List Char → List Char
  | '/' :: rest => '/' :: rest
  | path => (if directory.getLast? = some '/' then directory else directory ++ ['/']) ++ path

/-- The characters of the address of a location without blanks around it. -/
def addressOf (directory location : List Char) : List Char :=
  if location = ":memory:".toList ∨ location = "memory".toList
      ∨ location = memoryAddress.toList then
    memoryAddress.toList
  else
    let (place, query) := cut '?' location
    if (after? "sqlite:file:".toList place).isSome then location
    else
      "sqlite://".toList ++ absolutePath directory (pathOf place)
        ++ '?' :: query.getD "mode=rwc".toList

/-- The address of a location. A path without a query is opened for reading and writing and made if
it is missing. -/
def normalizeLocation (directory raw : String) : String :=
  String.ofList (addressOf directory.toList (trimRight (trimLeft raw.toList)))

def emptyPathMessage (address : String) : String :=
  "invalid --db value: " ++ address

/-- The path of an address, unless the database is in memory. -/
def filePath? (address : String) : Option String :=
  (after? "sqlite://".toList address.toList).map fun rest => String.ofList (cut '?' rest).1

/-- The directory that a path is in. -/
def parentPath (path : String) : String :=
  String.ofList (path.toList.reverse.dropWhile (· != '/')).reverse

/-- Whether an address of a file names no file. -/
def lacksPath (address : String) : Bool :=
  filePath? address == some ""

end MentalMath.Shell
