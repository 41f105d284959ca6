import MentalMath.Problem.Choices

/-! Sources of the problems of a practice run: random ones from a source of words, or a list of
given ones that starts over at its end. -/

namespace MentalMath

open MentalMath.Random

namespace Skill

def draw (now : Instant) (s : Skill) : Draw Problem :=
  match s with
  | .twoDigitAddition => do
    let a ← Draw.between 10 99
    let b ← Draw.between 10 99
    Problem.addition s a b now
  | .twoDigitSubtraction => do
    let a ← Draw.between 10 99
    let b ← Draw.between 10 a
    return Problem.subtraction s a b now
  | .threeDigitAddition => do
    let a ← Draw.between 100 999
    let b ← Draw.between 100 999
    Problem.addition s a b now
  | .threeDigitSubtraction => do
    let a ← Draw.between 100 999
    let b ← Draw.between 100 a
    return Problem.subtraction s a b now
  | .twoDigitMultiplication => do
    let a ← Draw.between 10 99
    let b ← Draw.between 2 9
    Problem.multiplication a b now
  | .divisionLeadingDigit => do
    let divisor ← Draw.between 10 99
    let seed ← Draw.between 1 9
    let remainder ← Draw.below divisor
    return Problem.division s (← Problem.dividend divisor seed remainder) divisor now
  | .divisionTwoDigits => do
    let divisor ← Draw.between 100 999
    let seed ← Draw.between 10 99
    let remainder ← Draw.below divisor
    return Problem.division s (← Problem.dividend divisor seed remainder) divisor now
  | .fourDigitDivision => do
    let dividend ← Draw.between 1000 9999
    let divisor ← Draw.between 1000 9999
    let isEasy ← Draw.chance Problem.easyThreshold
    Problem.choice dividend divisor (if isEasy then .easy else .hard) now

end Skill

namespace Category

/-- A random problem of a category; mixed practice draws the skill first. -/
def draw (now : Instant) : Category → Draw Problem
  | .mixed => do (← Draw.choose Skill.all .twoDigitAddition).draw now
  | .skill s => s.draw now

def drawMany (now : Instant) (c : Category) : Nat → Draw (List Problem)
  | 0 => return []
  | n + 1 => do
    let p ← c.draw now
    return p :: (← drawMany now c n)

end Category

/-- A problem that is given but for its time and, maybe, its category. -/
structure ProblemTemplate where
  expression : String
  answer : String
  /-- What the problem is about, if not what the run is about. -/
  category : Option Category
  options : Option (List String)
  deriving DecidableEq, Repr

def ProblemTemplate.problem (t : ProblemTemplate) (run : Category) (now : Instant) : Problem :=
  ⟨t.category.getD run, t.expression, t.answer, t.options, now⟩

inductive Generator where
  | random (source : WordSource)
  /-- Given problems, over and over. -/
  | listed (templates : List ProblemTemplate)

namespace Generator

def seeded (seed : UInt64) : Generator :=
  .random (WordSource.seeded seed)

/-- Problems of a category, and the generator after them. An empty list yields none. -/
def generate (g : Generator) (c : Category) (count : Nat) (now : Instant) :
    Checked (List Problem × Generator) :=
  match g with
  | .random source => do
    let (problems, source) ← c.drawMany now count source
    return (problems, .random source)
  | .listed [] => .ok ([], g)
  | .listed (t :: ts) =>
    .ok ((List.range count).map fun i =>
      (((t :: ts)[i % (ts.length + 1)]?).getD t).problem c now, g)

end Generator

end MentalMath
