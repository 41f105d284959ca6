/-! Streams of random words. A seed of 64 bits grows into a key of eight words; the key and the
number of a block give sixteen words by six double rounds of ChaCha. -/

namespace MentalMath.Random

/-- Rotates the bits of a word to the left by `k` places, where `k` is from 1 to 31. -/
def rotateLeft (x k : UInt32) : UInt32 :=
  (x <<< k) ||| (x >>> (32 - k))

def rotateRight (x k : UInt32) : UInt32 :=
  (x >>> (k % 32)) ||| (x <<< ((32 - k) % 32))

/-- The next state of the generator that makes keys from seeds. -/
def seedStep (state : UInt64) : UInt64 :=
  state * 6364136223846793005 + 11634580027462260723

def seedWord (state : UInt64) : UInt32 :=
  rotateRight ((((state >>> 18) ^^^ state) >>> 27).toUInt32) ((state >>> 59).toUInt32)

def seedWords : Nat → UInt64 → List UInt32
  | 0, _ => []
  | n + 1, state => seedWord (seedStep state) :: seedWords n (seedStep state)

/-- A key and the number of the next block. -/
structure Keystream where
  key : Vector UInt32 8
  counter : UInt64
  deriving DecidableEq, Repr

/-- The sixteen words that a block is made in. -/
abbrev Block := Vector UInt32 16

/-- One quarter round on four words of a block. -/
def quarterRound (v : Block) (a b c d : Fin 16) : Block :=
  let xa := v[a] + v[b]
  let xd := rotateLeft (v[d] ^^^ xa) 16
  let xc := v[c] + xd
  let xb := rotateLeft (v[b] ^^^ xc) 12
  let xa := xa + xb
  let xd := rotateLeft (xd ^^^ xa) 8
  let xc := xc + xd
  let xb := rotateLeft (xb ^^^ xc) 7
  (((v.set a xa).set b xb).set c xc).set d xd

/-- A round on the columns and a round on the diagonals of a block. -/
def doubleRound (v : Block) : Block :=
  let v := quarterRound v 0 4 8 12
  let v := quarterRound v 1 5 9 13
  let v := quarterRound v 2 6 10 14
  let v := quarterRound v 3 7 11 15
  let v := quarterRound v 0 5 10 15
  let v := quarterRound v 1 6 11 12
  let v := quarterRound v 2 7 8 13
  quarterRound v 3 4 9 14

def rounds : Nat → Block → Block
  | 0, v => v
  | n + 1, v => rounds n (doubleRound v)

namespace Keystream

def ofSeed (seed : UInt64) : Keystream :=
  let words := seedWords 8 seed
  ⟨Vector.ofFn fun i => words[i.val]?.getD 0, 0⟩

/-- The block before the rounds: four constants, the key, the number of the block and two zeros. -/
def initial (k : Keystream) : Block :=
  let n := k.counter
  #v[0x61707865, 0x3320646e, 0x79622d32, 0x6b206574, k.key[0], k.key[1], k.key[2], k.key[3],
    k.key[4], k.key[5], k.key[6], k.key[7], n.toUInt32, (n >>> 32).toUInt32, 0, 0]

/-- The words of the next block, and the stream after it. -/
def next (k : Keystream) : List UInt32 × Keystream :=
  let start := k.initial
  ((start.zipWith (· + ·) (rounds 6 start)).toList, { k with counter := k.counter + 1 })

end Keystream

end MentalMath.Random
