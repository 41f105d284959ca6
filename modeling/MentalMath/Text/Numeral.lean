/-! Decimal numerals: reading whole numbers that must fit a range, and writing them in a width. -/

namespace MentalMath.Text

/-- Why a text is not a whole number of the expected range. -/
inductive NumeralError where
  | empty
  | invalidDigit
  | tooLarge
  | tooSmall
  deriving DecidableEq, Repr

def NumeralError.message : NumeralError → String
  | .empty => "cannot parse integer from empty string"
  | .invalidDigit => "invalid digit found in string"
  | .tooLarge => "number too large to fit in target type"
  | .tooSmall => "number too small to fit in target type"

def digit? (c : Char) : Option Nat :=
  if '0' ≤ c ∧ c ≤ '9' then some (c.toNat - '0'.toNat) else none

/-- Reads digits from left to right after the number `n`; the first fault wins, which is either a
character that is not a digit or the digit that takes the number above `limit`. -/
def readDigits (limit : Nat) (n : Nat) (tooFar : NumeralError) :
    List Char → Except NumeralError Nat
  | [] => .ok n
  | c :: cs =>
    match digit? c with
    | none => .error .invalidDigit
    | some d =>
      if n * 10 + d ≤ limit then readDigits limit (n * 10 + d) tooFar cs else .error tooFar

/-- Reads a whole number from 0 to `limit`. A plus sign may come first. -/
def readNat (limit : Nat) (s : String) : Except NumeralError Nat :=
  match s.toList with
  | [] => .error .empty
  | ['+'] => .error .invalidDigit
  | '+' :: cs => readDigits limit 0 .tooLarge cs
  | cs => readDigits limit 0 .tooLarge cs

/-- Reads a whole number from `-limit - 1` to `limit`. A sign may come first. -/
def readInt (limit : Nat) (s : String) : Except NumeralError Int :=
  match s.toList with
  | [] => .error .empty
  | ['+'] => .error .invalidDigit
  | ['-'] => .error .invalidDigit
  | '+' :: cs => (readDigits limit 0 .tooLarge cs).map fun n => (n : Int)
  | '-' :: cs => (readDigits (limit + 1) 0 .tooSmall cs).map fun n => -(n : Int)
  | cs => (readDigits limit 0 .tooLarge cs).map fun n => (n : Int)

def maxUnsigned64 : Nat := 18446744073709551615

def maxSigned64 : Nat := 9223372036854775807

/-- The digits of a number, with zeros before them up to a width. -/
def zeroPadded (width n : Nat) : String :=
  let digits := Nat.toDigits 10 n
  String.ofList (List.replicate (width - digits.length) '0' ++ digits)

/-- A text with spaces after it up to a width in characters. -/
def paddedRight (width : Nat) (s : String) : String :=
  s ++ String.ofList (List.replicate (width - s.length) ' ')

end MentalMath.Text
