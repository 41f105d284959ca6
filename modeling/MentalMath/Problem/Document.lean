import MentalMath.Document
import MentalMath.Identifier
import MentalMath.Problem
import MentalMath.Time.Stamp.Writer

/-! How categories, problems and numbers of stored things are written in documents. A category is
its slug, or a record of nothing under that slug; a problem is a record of its fields, or a list of
them in their order. -/

namespace MentalMath

namespace Category

/-- The category of a slug, letter for letter. -/
def ofDocumentName (name : String) : Except DocumentError Category :=
  match ofSlug? name with
  | some c => .ok c
  | none => .error (.unknownName name (all.map slug))

def ofDocument : Document → Except DocumentError Category
  | .text name => ofDocumentName name
  | .record [(name, value)] => do
    let c ← ofDocumentName name
    match value with
    | .null => return c
    | value => throw (.wrongKind value "unit")
  | .record fields => .error (.wrongValue (.record fields) "map with a single key")
  | d => .error (.wrongKind d "string or map")

def toDocument (c : Category) : Document :=
  .text c.slug

theorem ofDocument_toDocument (c : Category) : ofDocument c.toDocument = .ok c := by
  simp [toDocument, ofDocument, ofDocumentName, ofSlug?_slug]

end Category

def SessionId.ofDocument (d : Document) : Except DocumentError SessionId :=
  d.toNatural.map SessionId.mk

def MistakeId.ofDocument (d : Document) : Except DocumentError MistakeId :=
  d.toNatural.map MistakeId.mk

def SessionId.toDocument (i : SessionId) : Document :=
  .integer i.value

def MistakeId.toDocument (i : MistakeId) : Document :=
  .integer i.value

/-- A problem as documents have it: its time is written out, since it may be a leap second. -/
structure WrittenProblem where
  category : Category
  expression : String
  answer : String
  options : Option (List String)
  createdAt : CivilTime
  deriving DecidableEq, Repr

namespace WrittenProblem

/-- The fields of a problem that were read so far. -/
structure Draft where
  category : Option Category
  expression : Option String
  answer : Option String
  options : Option (List String)
  createdAt : Option CivilTime

def Draft.empty : Draft := ⟨none, none, none, none, none⟩

/-- The draft with one more field. Fields of other names are passed over. -/
def Draft.read (d : Draft) (field : String × Document) : Except DocumentError Draft :=
  match field with
  | ("category", v) => do return { d with category := some (← Category.ofDocument v) }
  | ("expression", v) => do return { d with expression := some (← v.toText) }
  | ("correct_answer", v) => do return { d with answer := some (← v.toText) }
  | ("options", v) => do return { d with options := ← v.toOption Document.toTexts }
  | ("created_at", v) => do return { d with createdAt := some (← v.toTime) }
  | _ => .ok d

def required {α : Type} (name : String) : Option α → Except DocumentError α
  | some v => .ok v
  | none => .error (.missingField name)

/-- The problem of a draft. Only the options may be missing. -/
def Draft.finish (d : Draft) : Except DocumentError WrittenProblem := do
  let category ← required "category" d.category
  let expression ← required "expression" d.expression
  let answer ← required "correct_answer" d.answer
  let createdAt ← required "created_at" d.createdAt
  return ⟨category, expression, answer, d.options, createdAt⟩

/-- What stands where a problem is expected. -/
def expected : String := "struct Problem"

def entry {α : Type} (items : List Document) (i : Nat)
    (read : Document → Except DocumentError α) : Except DocumentError α :=
  match items[i]? with
  | some d => read d
  | none => .error (.wrongLength i (expected ++ " with 5 elements"))

def ofDocument : Document → Except DocumentError WrittenProblem
  | .record fields => do (← fields.foldlM Draft.read Draft.empty).finish
  | .list items => do
    let category ← entry items 0 Category.ofDocument
    let expression ← entry items 1 Document.toText
    let answer ← entry items 2 Document.toText
    let options ← entry items 3 (Document.toOption Document.toTexts)
    let createdAt ← entry items 4 Document.toTime
    if 5 < items.length then throw (.wrongLength items.length "fewer elements in array")
    return ⟨category, expression, answer, options, createdAt⟩
  | d => .error (.wrongKind d expected)

def toDocument (p : WrittenProblem) : Document :=
  .record [
    ("category", p.category.toDocument),
    ("correct_answer", .text p.answer),
    ("created_at", .text p.createdAt.documentText),
    ("expression", .text p.expression),
    ("options",
      match p.options with
      | some texts => .list (texts.map .text)
      | none => .null)]

end WrittenProblem

end MentalMath
