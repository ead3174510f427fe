/-!
# A stream of random words

The stream of a key is the output of the ChaCha cipher with twelve rounds, block by block. The
word at a position depends on nothing but key and position, so a generator is a position in its
stream.
-/

namespace Dispatch.Random

/-- The sixteen words the cipher works on. -/
abbrev Block := Vector UInt32 16

/-- Eight words of key. -/
abbrev Key := Vector UInt32 8

namespace Block

def rotate (x k : UInt32) : UInt32 := (x <<< k) ||| (x >>> (32 - k))

/-- Adds, mixes and rotates four words. -/
def quarterRound (s : Block) (a b c d : Fin 16) : Block :=
  let s := s.set a (s[a] + s[b])
  let s := s.set d (rotate (s[d] ^^^ s[a]) 16)
  let s := s.set c (s[c] + s[d])
  let s := s.set b (rotate (s[b] ^^^ s[c]) 12)
  let s := s.set a (s[a] + s[b])
  let s := s.set d (rotate (s[d] ^^^ s[a]) 8)
  let s := s.set c (s[c] + s[d])
  s.set b (rotate (s[b] ^^^ s[c]) 7)

/-- Two rounds: down the columns, then along the diagonals. -/
def doubleRound (s : Block) : Block :=
  let s := quarterRound s 0 4 8 12
  let s := quarterRound s 1 5 9 13
  let s := quarterRound s 2 6 10 14
  let s := quarterRound s 3 7 11 15
  let s := quarterRound s 0 5 10 15
  let s := quarterRound s 1 6 11 12
  let s := quarterRound s 2 7 8 13
  quarterRound s 3 4 9 14

/-- The state before the rounds: constants, key, block number, zeros. -/
def initial (key : Key) (number : Nat) : Block :=
  #v[0x61707865, 0x3320646e, 0x79622d32, 0x6b206574,
    key[0], key[1], key[2], key[3], key[4], key[5], key[6], key[7],
    number.toUInt32, (number / UInt32.size).toUInt32, 0, 0]

/-- The block of the stream with the given number. -/
def output (key : Key) (number : Nat) : Block :=
  let start := initial key number
  Vector.zipWith (· + ·) (Nat.repeat doubleRound 6 start) start

end Block

/-- One step of the generator that stretches a seed to a key. -/
def advanceSeed (s : UInt64) : UInt64 := s * 6364136223846793005 + 11634580027462260723

/-- The word of key that a state of that generator stands for. -/
def keyWord (s : UInt64) : UInt32 :=
  let x := (((s >>> 18) ^^^ s) >>> 27).toUInt32
  let k := (s >>> 59).toUInt32
  if k = 0 then x else (x >>> k) ||| (x <<< (32 - k))

/-- Stretches a seed to a key. -/
def keyOfSeed (seed : UInt64) : Key :=
  Vector.ofFn fun i => keyWord (Nat.repeat advanceSeed (i + 1) seed)

/-- The word of the stream at a position. -/
def word (key : Key) (position : Nat) : UInt32 :=
  (Block.output key (position / 16)).get ⟨position % 16, Nat.mod_lt _ (by decide)⟩

/-- The two words from a position on as one number, the low one first. -/
def doubleWord (key : Key) (position : Nat) : Nat :=
  (word key position).toNat + UInt32.size * (word key (position + 1)).toNat

end Dispatch.Random
