/-!
# The numbers of the engine

Utilities, messages and intensities live in one type of scalars. Two types are scalars: the
binary doubles of `Dispatch.Scalar.Double`, which the program runs on, and the rationals of
`Dispatch.Scalar.Exact`, in which sums and comparisons are exact. Every algorithm of the library
is written over an arbitrary scalar, so what it computes exactly and what it computes in doubles
is one definition.
-/

namespace Dispatch

/-- A number type the engine can compute in. -/
class Scalar (α : Type) extends Add α, Sub α, Mul α, Div α, Neg α, LT α, LE α where
  decLt : DecidableLT α
  decLe : DecidableLE α
  /-- The scalar nearest to a natural number. -/
  ofNat : Nat → α
  /-- The scalar nearest to `digits / 10 ^ places`. -/
  ofDecimal : (digits places : Nat) → α
  /-- The value a sum starts from. -/
  sumUnit : α
  abs : α → α
  /-- The larger of two values; a value that is not a number loses to any other. -/
  max : α → α → α
  /-- A total order that agrees with `≤` wherever values differ, for sorting. -/
  totalLE : α → α → Bool
  /-- Neither infinite nor undefined. -/
  isFinite : α → Bool
  /-- Strictly above minus infinity, the score of staying unassigned. -/
  aboveBottom : α → Bool
  /-- The least natural number at or above the value, held between zero and `2 ^ 64 - 1`. -/
  ceilNat : α → Nat

attribute [reducible, instance] Scalar.decLt Scalar.decLe

namespace Scalar
variable {α : Type} [Scalar α]

def zero : α := ofNat 0

def one : α := ofNat 1

/-- Two messages closer than this count as equal. -/
def epsilon : α := ofDecimal 1 5

/-- Finite and not negative. -/
abbrev IsAmount (x : α) : Prop := isFinite x = true ∧ ¬ x < zero

/-- Adds in list order. -/
def sum (xs : List α) : α := xs.foldl (· + ·) sumUnit

end Scalar

/-! ## Counts -/

/-- The largest count the engine can hold. -/
def maxCount : Nat := UInt64.size - 1

/-- The sum of a list of counts. -/
def total : List Nat → Nat
  | [] => 0
  | n :: rest => n + total rest

end Dispatch
