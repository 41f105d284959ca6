/-! Floating-point numbers taken apart into a whole number and a power of two, and rounded to whole
numbers. -/

namespace MentalMath.Decimal

/-- What the bits of a floating-point number say. -/
inductive Parts where
  | nan
  | infinite (negative : Bool)
  /-- The number `mantissa * 2 ^ exponent`, or its opposite. -/
  | finite (negative : Bool) (mantissa : Nat) (exponent : Int)
  deriving DecidableEq, Repr

/-- The bit before those that a floating-point number stores of its mantissa. -/
def leadingBit : Nat := 4503599627370496

def decode (bits : UInt64) : Parts :=
  let n := bits.toNat
  let negative := n >>> 63 = 1
  let exponent : Nat := n >>> 52 % 2048
  let fraction := n % leadingBit
  if exponent = 2047 then
    if fraction = 0 then .infinite negative else .nan
  else if exponent = 0 then .finite negative fraction (-1074)
  else .finite negative (leadingBit + fraction) ((exponent : Int) - 1075)

/-- The whole number nearest to the quotient `n / d`, the even one of two that are as near. -/
def roundDiv (n d : Nat) : Nat :=
  let q := n / d
  let r := n % d
  if d < 2 * r ∨ (2 * r = d ∧ q % 2 = 1) then q + 1 else q

/-- The whole number nearest to `mantissa * 2 ^ exponent`. -/
def roundBinary (mantissa : Nat) (exponent : Int) : Nat :=
  if 0 ≤ exponent then mantissa <<< exponent.toNat
  else roundDiv mantissa (1 <<< (-exponent).toNat)

/-- A floating-point number in whole units. -/
def wholeText (x : Float) : String :=
  match decode x.toBits with
  | .nan => "NaN"
  | .infinite negative => if negative then "-inf" else "inf"
  | .finite negative m e => (if negative then "-" else "") ++ toString (roundBinary m e)

/-- A share as a whole number of hundredths. -/
def percentText (rate : Float) : String :=
  wholeText (rate * 100) ++ "%"

theorem roundDiv_near (n : Nat) {d : Nat} (hd : 0 < d) :
    2 * n ≤ 2 * (roundDiv n d * d) + d ∧ 2 * (roundDiv n d * d) ≤ 2 * n + d := by
  have hsplit := Nat.div_add_mod n d
  have hr := Nat.mod_lt n hd
  rw [Nat.mul_comm] at hsplit
  simp only [roundDiv]
  split
  · rw [Nat.add_mul, Nat.one_mul]
    omega
  · omega

end MentalMath.Decimal
