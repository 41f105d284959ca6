import MentalMath.Problem.Arithmetic
import MentalMath.Random.Draw

/-! Quotients with options to pick from. Amounts are in hundredths. The easy options are one near
the answer, one well above it and one well below it, or above it if the answer is too small; the
hard options are all within three hundredths of it. -/

namespace MentalMath.Problem

open MentalMath.Random

/-- How far the wrong options are from the answer. -/
inductive Difficulty where
  /-- One is near, two are far. -/
  | easy
  /-- All are near. -/
  | hard
  deriving DecidableEq, Repr

/-- The quotient in hundredths, where a half goes up and a divisor of zero counts as one. -/
def quotientCents (dividend divisor : Nat) : Checked Nat := do
  let divisor := max divisor 1
  let numerator ← Count.add (← Count.mul 200 dividend) divisor
  return numerator / (← Count.mul 2 divisor)

def centsText (cents : Nat) : String :=
  toString (cents / 100) ++ "." ++ Text.zeroPadded 2 (cents % 100)

/-- The chance of an easy problem, of 2^64. -/
def easyThreshold : Nat := 3689348814741910528

def easyProbability : Float := 0.2

/-- The chance of one half, of 2^64. -/
def halfThreshold : Nat := 9223372036854775808

/-- How often a value is drawn again from a keystream before the draw is given up. -/
def patience : Nat := 65536

/-- Draws until the value is not taken, at most as often as the last argument says. -/
def redraw (taken : List Nat) (draw : Draw Nat) : Nat → Draw Nat
  | 0 => throw .redrawsExhausted
  | fuel + 1 => do
    let value ← draw
    if value ∈ taken then redraw taken draw fuel else return value

/-- Draws until the value is not taken. The words at hand bound the number of draws that a scripted
source can serve, since every draw takes one of them. -/
def fresh (taken : List Nat) (draw : Draw Nat) : Draw Nat := do
  redraw taken draw ((← get).pending.length + patience)

/-- A wrong option at most five hundredths away. -/
def nearDecoy (cents : Nat) : Draw Nat := do
  let offset ← Draw.between 1 5
  if (← Draw.chance halfThreshold) || cents ≤ offset then Count.add cents offset
  else return cents - offset

/-- A wrong option well above the answer. -/
def highDecoy (cents : Nat) : Draw Nat := do
  Count.add cents (← Draw.between 50 150)

/-- A wrong option well below the answer, or well above it if the answer is too small. -/
def lowDecoy (cents : Nat) : Draw Nat := do
  let offset ← Draw.between 50 150
  if offset < cents then return cents - offset
  else Count.add (← Count.add cents offset) 100

def easyOptions (cents : Nat) : Draw (List Nat) := do
  let near ← fresh [cents] (nearDecoy cents)
  let high ← fresh [cents, near] (highDecoy cents)
  let low ← fresh [cents, near, high] (lowDecoy cents)
  return [cents, near, high, low]

/-- The distances of hard wrong options that are tried first. -/
def preferredOffsets : List Int := [-3, -1, 2]

/-- The other distances of hard wrong options. -/
def fallbackOffsets : List Int := [-2, 1, 3]

/-- The options with one more at a distance from the answer, unless there are four or the amount is
not positive or is there already. -/
def addDecoy (cents : Nat) (options : List Nat) (offset : Int) : List Nat :=
  let decoy := (cents : Int) + offset
  if options.length = 4 then options
  else if 0 < decoy ∧ decoy ≤ maxCount ∧ decoy.toNat ∉ options then options ++ [decoy.toNat]
  else options

def hardOptions (cents : Nat) : Draw (List Nat) := do
  let fallback ← Draw.shuffle fallbackOffsets
  return (preferredOffsets ++ fallback).foldl (addDecoy cents) [cents]

def rawOptions (cents : Nat) : Difficulty → Draw (List Nat)
  | .easy => easyOptions cents
  | .hard => hardOptions cents

/-- The quotient of two numbers in hundredths, to be picked from four options. -/
def choice (dividend divisor : Nat) (difficulty : Difficulty) (now : Instant) : Draw Problem := do
  let cents ← quotientCents dividend divisor
  let options ← Draw.shuffle (← rawOptions cents difficulty)
  return ⟨Skill.fourDigitDivision, operationText dividend "÷" divisor, centsText cents,
    some (options.map centsText), now⟩

end MentalMath.Problem
