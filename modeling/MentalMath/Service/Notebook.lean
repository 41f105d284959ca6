import MentalMath.Storage.Program

/-! The notebook of mistakes: what it shows, new attempts, and what is taken out of it. -/

namespace MentalMath

/-- The mistakes of one category. -/
structure MistakeGroup where
  category : Category
  mistakes : List Mistake
  deriving DecidableEq, Repr

structure MistakeCounts where
  all : Nat
  notMastered : Nat
  mastered : Nat
  deriving DecidableEq, Repr

/-- What comes of a new attempt. -/
structure RetryResult where
  isCorrect : Bool
  correctAnswer : String
  deriving DecidableEq, Repr

namespace Notebook

def list (f : MistakeFilter) : StoreM (List Mistake) :=
  StoreM.request (.listMistakes f)

def get (id : MistakeId) : StoreM Mistake :=
  StoreM.request (.getMistake id)

/-- Some mistakes by category, in the order of the categories. -/
def group (mistakes : List Mistake) : List MistakeGroup :=
  Category.all.filterMap fun c =>
    let own := mistakes.filter fun m => m.category == c
    if own.isEmpty then none else some ⟨c, own⟩

/-- The mistakes that a filter shows, by category. -/
def grouped (f : MistakeFilter) : StoreM (List MistakeGroup) := do
  return group (← list f)

def counts : StoreM MistakeCounts := do
  let mistakes ← list .all
  let mastered := mistakes.countP Mistake.mastered
  return ⟨mistakes.length, mistakes.length - mastered, mastered⟩

def master (id : MistakeId) : StoreM Mistake := do
  let m ← get id
  if m.mastered then return m
  else
    let _ ← StoreM.request (.putMistake m.master)
    return m.master

/-- Checks a new attempt at a mistake. -/
def retry (id : MistakeId) (input : String) : StoreM RetryResult := do
  let m ← get id
  return ⟨m.retry input, m.correctAnswer⟩

/-- Takes out the mistakes that a filter shows. The answer is how many there were. -/
def clear (f : MistakeFilter) : StoreM Nat :=
  StoreM.request (.deleteMistakes f)

end Notebook

end MentalMath
