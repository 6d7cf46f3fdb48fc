import Narrative.Random

/-!
Random words from a seed: the keystream of the ChaCha cipher with twelve rounds, under a key that
a linear congruential generator draws from the seed.
-/

set_option autoImplicit false

namespace Narrative.Keystream

def rotateLeft (word count : UInt32) : UInt32 := (word <<< count) ||| (word >>> (32 - count))

def rotateRight (word count : UInt32) : UInt32 :=
  (word >>> count) ||| (word <<< ((32 - count) % 32))

/-- The sixteen words that the rounds work on. -/
abbrev Block := Vector UInt32 16

/-- One quarter of a round, on the words at four places. -/
def quarterRound (block : Block) (a b c d : Fin 16) : Block :=
  let wa := block[a] + block[b]
  let wd := rotateLeft (block[d] ^^^ wa) 16
  let wc := block[c] + wd
  let wb := rotateLeft (block[b] ^^^ wc) 12
  let wa := wa + wb
  let wd := rotateLeft (wd ^^^ wa) 8
  let wc := wc + wd
  let wb := rotateLeft (wb ^^^ wc) 7
  (((block.set a wa).set b wb).set c wc).set d wd

/-- Two rounds, one on the columns and one on the diagonals. -/
def doubleRound (block : Block) : Block :=
  let block := quarterRound block 0 4 8 12
  let block := quarterRound block 1 5 9 13
  let block := quarterRound block 2 6 10 14
  let block := quarterRound block 3 7 11 15
  let block := quarterRound block 0 5 10 15
  let block := quarterRound block 1 6 11 12
  let block := quarterRound block 2 7 8 13
  quarterRound block 3 4 9 14

/-- Two rounds, so many times. -/
def rounds : Nat → Block → Block
  | 0, block => block
  | count + 1, block => rounds count (doubleRound block)

/-- The block before any round: constants, key, the number of the block, and a nonce of zero. -/
def initial (key : Vector UInt32 8) (number : UInt64) : Block :=
  #v[0x61707865, 0x3320646e, 0x79622d32, 0x6b206574, key[0], key[1], key[2], key[3],
    key[4], key[5], key[6], key[7], number.toUInt32, (number >>> 32).toUInt32, 0, 0]

def block (key : Vector UInt32 8) (number : UInt64) : Block :=
  let start := initial key number
  Vector.zipWith (· + ·) (rounds 6 start) start

def word (key : Vector UInt32 8) (place : Nat) : UInt32 :=
  (block key (UInt64.ofNat (place / 16))).get ⟨place % 16, Nat.mod_lt _ (by decide)⟩

/-- One step of the generator of keys. -/
def step (state : UInt64) : UInt64 := state * 6364136223846793005 + 11634580027462260723

/-- The word that a state of the generator of keys gives. -/
def output (state : UInt64) : UInt32 :=
  rotateRight ((((state >>> 18) ^^^ state) >>> 27).toUInt32) ((state >>> 59).toUInt32)

def stateAfter (seed : UInt64) : Nat → UInt64
  | 0 => seed
  | count + 1 => step (stateAfter seed count)

def keyOf (seed : UInt64) : Vector UInt32 8 :=
  Vector.ofFn (fun place => output (stateAfter seed (place + 1)))

def source (seed : UInt64) : RandomSource :=
  let key := keyOf seed
  .ofWords (word key)

end Narrative.Keystream
