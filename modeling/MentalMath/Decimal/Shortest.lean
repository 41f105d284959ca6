import MentalMath.Decimal.Binary

/-! The shortest decimal text of a floating-point number: the fewest digits that read back as the
same number, and of those the nearest. Numbers from 10^-5 up to 10^16 are written out, others have
an exponent. -/

namespace MentalMath.Decimal

/-- The number `digits * 10 ^ exponent`. -/
structure Digits where
  digits : Nat
  exponent : Int
  deriving DecidableEq, Repr

/-- The numerator and the denominator of a power. -/
def powerRatio (base : Nat) (exponent : Int) : Nat × Nat :=
  if 0 ≤ exponent then (Nat.pow base exponent.toNat, 1)
  else (1, Nat.pow base (-exponent).toNat)

/-- Four times a mantissa with the half-way points to its neighbours: the numbers from the first to
the last read back as the one in the middle, the ends included if the flag is set. -/
structure Window where
  low : Nat
  mid : Nat
  high : Nat
  /-- Whether the half-way points read back as the number. -/
  closed : Bool

/-- The window of a mantissa and an exponent. The lower neighbour of a power of two is half as far
away as the upper one. -/
def Window.of (m : Nat) (e : Int) : Window :=
  ⟨if m = leadingBit ∧ -1074 < e then 4 * m - 1 else 4 * m - 2, 4 * m, 4 * m + 2, m % 2 = 0⟩

/-- Whether `c * 10 ^ k` lies in a window whose numbers count units of `2 ^ e`. -/
def Window.holds (w : Window) (e : Int) (c : Nat) (k : Int) : Bool :=
  let (tn, td) := powerRatio 10 k
  let (bn, bd) := powerRatio 2 e
  let x := c * tn * bd
  let unit := bn * td
  if w.closed then w.low * unit ≤ x && x ≤ w.high * unit
  else w.low * unit < x && x < w.high * unit

/-- The nearer neighbour of the number on the grid of `10 ^ k` that lies in the window. -/
def Window.onGrid (w : Window) (e : Int) (k : Int) : Option Nat :=
  let (tn, td) := powerRatio 10 k
  let (bn, bd) := powerRatio 2 e
  let n := w.mid * bn * td
  let d := tn * bd
  let below := n / d
  let near := roundDiv n d
  let far := if near = below then below + 1 else below
  if w.holds e near k then some near else if w.holds e far k then some far else none

/-- The least `p` from `start` on with `m * 2 ^ e < 10 ^ p`, looked for `fuel` times. -/
def decimalSize (m : Nat) (e : Int) : Nat → Int → Int
  | 0, p => p
  | fuel + 1, p =>
    let (tn, td) := powerRatio 10 p
    let (bn, bd) := powerRatio 2 e
    if m * bn * td < tn * bd then p else decimalSize m e fuel (p + 1)

/-- The digits of the first grid that has a point in the window. -/
def searchGrids (w : Window) (e : Int) (size : Int) : Nat → Nat → Digits
  | 0, count => ⟨(w.onGrid e (size - count)).getD 0, size - count⟩
  | fuel + 1, count =>
    match w.onGrid e (size - count) with
    | some c => ⟨c, size - count⟩
    | none => searchGrids w e size fuel (count + 1)

/-- The same number with no zero at the end of its digits. -/
def Digits.strip : Nat → Digits → Digits
  | 0, d => d
  | fuel + 1, d =>
    if d.digits % 10 = 0 ∧ d.digits ≠ 0 then Digits.strip fuel ⟨d.digits / 10, d.exponent + 1⟩
    else d

/-- The shortest digits of a positive number `m * 2 ^ e`. -/
def shortest (m : Nat) (e : Int) : Digits :=
  let size := decimalSize m e 700 (-330)
  (searchGrids (Window.of m e) (e - 2) size 17 1).strip 400

/-- Writes digits with a point, or with an exponent and its sign if they are too far from it. -/
def Digits.text (d : Digits) : String :=
  let ds := Nat.toDigits 10 d.digits
  let point := ds.length + d.exponent
  if 0 ≤ d.exponent ∧ point ≤ 16 then
    String.ofList (ds ++ List.replicate d.exponent.toNat '0') ++ ".0"
  else if 0 < point ∧ point ≤ 16 then
    String.ofList (ds.take point.toNat) ++ "." ++ String.ofList (ds.drop point.toNat)
  else if -5 < point ∧ point ≤ 0 then
    "0." ++ String.ofList (List.replicate (-point).toNat '0' ++ ds)
  else
    let rest := String.ofList (ds.drop 1)
    String.ofList (ds.take 1) ++ (if rest.isEmpty then "" else "." ++ rest)
      ++ (if 0 < point then "e+" else "e") ++ toString (point - 1)

def shortestText (x : Float) : String :=
  match decode x.toBits with
  | .nan => "NaN"
  | .infinite negative => if negative then "-inf" else "inf"
  | .finite negative m e =>
    let sign := if negative then "-" else ""
    if m = 0 then sign ++ "0.0" else sign ++ (shortest m e).text

end MentalMath.Decimal
