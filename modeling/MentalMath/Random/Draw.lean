import MentalMath.Fault
import MentalMath.Random.Keystream

/-! Random draws. A source hands out words of 32 bits, first those at hand and then, if it has a
keystream, block after block; without a keystream it can run dry. All draws are made of words. -/

namespace MentalMath.Random

/-- A source of random words. -/
structure WordSource where
  pending : List UInt32
  more : Option Keystream
  deriving Repr

namespace WordSource

/-- The source that hands out the given words and no more. -/
def scripted (words : List UInt32) : WordSource :=
  ⟨words, none⟩

def seeded (seed : UInt64) : WordSource :=
  ⟨[], some (Keystream.ofSeed seed)⟩

def next (s : WordSource) : Checked (UInt32 × WordSource) :=
  match s.pending with
  | w :: rest => .ok (w, { s with pending := rest })
  | [] =>
    match s.more with
    | none => .error .wordsExhausted
    | some k =>
      match k.next with
      | (w :: rest, k') => .ok (w, ⟨rest, some k'⟩)
      | ([], _) => .error .wordsExhausted

end WordSource

/-- A calculation that draws words from a source. -/
abbrev Draw := StateT WordSource Checked

namespace Draw

def wordCount : Nat := 4294967296

def word : Draw Nat := do
  let (w, s) ← (← get).next
  set s
  return w.toNat

/-- A number of 64 bits from two words, the low one first. -/
def word64 : Draw Nat := do
  let low ← word
  let high ← word
  return low + high * wordCount

/-- A number below `n`, where `n` is positive and at most `wordCount`. The high half of a word times
`n` is the number; when the low half is so large that the next digits of the word could carry into
the high half, a second word gives them. -/
def below (n : Nat) : Draw Nat := do
  let w ← word
  let high := w * n / wordCount
  let low := w * n % wordCount
  if wordCount - n < low then
    let w' ← word
    if wordCount ≤ low + w' * n / wordCount then return high + 1 else return high
  else return high

/-- A number from `lo` to `hi`. -/
def between (lo hi : Nat) : Draw Nat := do
  return lo + (← below (hi - lo + 1))

/-- An event whose chance is `threshold` in 2^64. -/
def chance (threshold : Nat) : Draw Bool := do
  return decide ((← word64) < threshold)

/-- An entry of a list that is not empty, or else the default. -/
def choose {α : Type} (xs : List α) (default : α) : Draw α := do
  return xs[← below xs.length]?.getD default

/-- Puts `x` at place `j` of a list and what stood there at its end; `x` goes to the end itself if
there is no such place. -/
def place {α : Type} (xs : List α) (x : α) (j : Nat) : List α :=
  match xs[j]? with
  | some y => xs.set j x ++ [y]
  | none => xs ++ [x]

/-- Places the entries of a list one after the other; the places are the digits of `code`, where the
digit for the `k`-th entry is below `k`. -/
def arrange {α : Type} (code : Nat) (done : List α) : List α → List α
  | [] => done
  | x :: xs =>
    let k := done.length + 1
    arrange (code / k) (place done x (code % k)) xs

/-- The number of orders of twelve things, the range of the code of a shuffle. -/
def orders : Nat := 479001600

/-- A list of two to twelve entries in a random order. One number decides all places. -/
def shuffle {α : Type} (xs : List α) : Draw (List α) := do
  return arrange (← below orders) [] xs

theorem set_perm {α : Type} (x : α) :
    ∀ (xs : List α) (j : Nat) (h : j < xs.length), (xs[j] :: xs.set j x).Perm (x :: xs)
  | _ :: _, 0, _ => List.Perm.swap _ _ _
  | z :: zs, j + 1, h =>
    (List.Perm.swap z _ _).trans
      (((set_perm x zs j (by simpa using h)).cons z).trans (List.Perm.swap x z zs))

theorem place_perm {α : Type} (xs : List α) (x : α) (j : Nat) :
    (place xs x j).Perm (x :: xs) := by
  simp only [place]
  split
  · next y h =>
    obtain ⟨hj, rfl⟩ := List.getElem?_eq_some_iff.mp h
    exact (List.perm_append_singleton _ _).trans (set_perm x xs j hj)
  · exact List.perm_append_singleton x xs

theorem arrange_perm {α : Type} (code : Nat) (done xs : List α) :
    (arrange code done xs).Perm (done ++ xs) := by
  induction xs generalizing code done with
  | nil => simp [arrange]
  | cons x xs ih =>
    simp only [arrange]
    refine (ih _ _).trans ?_
    refine ((place_perm done x _).append_right xs).trans ?_
    exact List.Perm.symm List.perm_middle

end Draw

end MentalMath.Random
