import Dispatch.Random.ChaCha
import Dispatch.Scalar.Double
/-!
# Draws

What scenarios and agents draw at random, from any source of randomness: a coordinate, a position
in a list, an intensity, the outcome of a toss. `Source.draws` draws from the stream of a seed.
-/

namespace Dispatch

/-- A source of random draws with states `γ`. Ranges include their lower bound and, but for
rounding, not the upper one. -/
structure Draws (α γ : Type) where
  /-- The state a seed starts from. -/
  ofSeed : UInt64 → γ
  coordinate : (low high : Int32) → γ → Int32 × γ
  index : (count : Nat) → γ → Nat × γ
  /-- Nothing if the range is too wide to draw from. -/
  intensity : (low high : α) → γ → Option (α × γ)

namespace Random

/-- A position in the stream of a key. -/
structure Source where
  key : Key
  position : Nat

namespace Source

def ofSeed (seed : UInt64) : Source := ⟨keyOfSeed seed, 0⟩

def nextWord (s : Source) : Nat × Source :=
  ((word s.key s.position).toNat, { s with position := s.position + 1 })

def nextDoubleWord (s : Source) : Nat × Source :=
  (doubleWord s.key s.position, { s with position := s.position + 2 })

/-- A number below `range`, for a range below `2 ^ 32`: the high half of a word times the range. A
low half close to overflowing is settled by a second word. -/
def below (range : Nat) (s : Source) : Nat × Source :=
  let (v, s) := s.nextWord
  let high := v * range / UInt32.size
  let low := v * range % UInt32.size
  if UInt32.size - range < low then
    let (v, s) := s.nextWord
    (if UInt32.size ≤ low + v * range / UInt32.size then high + 1 else high, s)
  else (high, s)

/-- A coordinate from `low` to below `high`. -/
def coordinate (low high : Int32) (s : Source) : Int32 × Source :=
  let (offset, s) := s.below (high - low).toUInt32.toNat
  (low + offset.toInt32, s)

/-- A double from zero to below one, with 52 random bits. -/
def unit (s : Source) : Float × Source :=
  let (v, s) := s.nextDoubleWord
  let fraction : Nat := v / 4096
  (Float.ofBits (0x3FF0000000000000 + fraction.toUInt64) - 1.0, s)

/-- A double from `low` up to `high`, which only rounding reaches. -/
def intensity (low high : Float) (s : Source) : Option (Float × Source) :=
  let width := high - low
  if width.isFinite then
    let (x, s) := s.unit
    some (x * width + low, s)
  else none

/-- The draws of the stream. -/
def draws : Draws Float Source := ⟨ofSeed, coordinate, below, intensity⟩

end Source

/-- The `n`-th toss of a coin that shows heads with the given probability. A certain coin needs no
draw; any other compares two words of the stream with the probability. -/
def toss (seed : UInt64) (probability : Float) (n : Nat) : Bool :=
  if probability == 1.0 then true
  else
    let threshold := (probability * 18446744073709551616.0).toUInt64.toNat
    decide (doubleWord (keyOfSeed seed) (2 * n) < threshold)

end Random

end Dispatch
