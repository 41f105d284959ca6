import MentalMath.Decimal.Shortest
import MentalMath.Text.Quoted
import MentalMath.Time.Stamp.Reader

/-! Documents: trees of plain data in which problems, categories and numbers of stored things are
written for other programs. Reading a document stops at the first place that is not as expected and
says what stands there. -/

namespace MentalMath

/-- A tree of plain data. The fields of a record are in the order of their names, each name once. -/
inductive Document where
  | null
  | bool (b : Bool)
  /-- A whole number of 64 bits, with or without a sign. -/
  | integer (n : Int)
  | float (x : Float)
  | text (s : String)
  | list (items : List Document)
  | record (fields : List (String × Document))

instance : Inhabited Document := ⟨.null⟩

/-- What messages call the kind of a document, with its value if that is short. -/
def Document.describe : Document → String
  | .null => "null"
  | .bool b => "boolean `" ++ toString b ++ "`"
  | .integer n => "integer `" ++ toString n ++ "`"
  | .float x => "floating point `" ++ Decimal.shortestText x ++ "`"
  | .text s => "string " ++ Text.quote s
  | .list _ => "sequence"
  | .record _ => "map"

inductive DocumentError where
  /-- A part is of another kind than expected. -/
  | wrongKind (found : Document) (expected : String)
  /-- A part is of the expected kind but not one of its values. -/
  | wrongValue (found : Document) (expected : String)
  /-- A name is none of the known ones. -/
  | unknownName (name : String) (known : List String)
  | missingField (name : String)
  | wrongLength (length : Nat) (expected : String)
  | stamp (e : Stamp.StampError)

def DocumentError.message : DocumentError → String
  | .wrongKind found expected =>
    "invalid type: " ++ found.describe ++ ", expected " ++ expected
  | .wrongValue found expected =>
    "invalid value: " ++ found.describe ++ ", expected " ++ expected
  | .unknownName name known =>
    "unknown variant `" ++ name ++ "`, expected one of "
      ++ ", ".intercalate (known.map fun n => "`" ++ n ++ "`")
  | .missingField name => "missing field `" ++ name ++ "`"
  | .wrongLength n expected => "invalid length " ++ toString n ++ ", expected " ++ expected
  | .stamp e => e.message

namespace Document

def toText : Document → Except DocumentError String
  | .text s => .ok s
  | d => .error (.wrongKind d "a string")

def toTexts : Document → Except DocumentError (List String)
  | .list items => items.mapM toText
  | d => .error (.wrongKind d "a sequence")

/-- Reads nothing, or else something. -/
def toOption {α : Type} (read : Document → Except DocumentError α) :
    Document → Except DocumentError (Option α)
  | .null => .ok none
  | d => (read d).map some

def toTime : Document → Except DocumentError CivilTime
  | .text s =>
    match Stamp.readDocument s with
    | .ok t => .ok t
    | .error e => .error (.stamp e)
  | d => .error (.wrongKind d "an RFC 3339 formatted date and time string")

/-- Reads a whole number that is not negative. -/
def toNatural : Document → Except DocumentError Nat
  | .integer n => if 0 ≤ n then .ok n.toNat else .error (.wrongValue (.integer n) "u64")
  | d => .error (.wrongKind d "u64")

end Document

end MentalMath
