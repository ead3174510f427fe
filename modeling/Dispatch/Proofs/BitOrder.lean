import Mathlib
import Dispatch.Proofs.ScalarOrder
/-!
# Doubles sort as they compare

For sorting, a double stands where its bits put it (`Double.rank`), so that nothing has to be said
about values that do not compare. Comparison looks at what the bits stand for: the sign, then the
exponent, then the mantissa (`Double.place`). Between numbers the two agree: the bits below the sign
are the exponent and, under it, the mantissa without its leading bit (`rankOf_unpack`), so a lower
number has a lower rank (`rank_lt_of_lt`).
-/

namespace Dispatch.Double
open Float.Model

/-! ## The fields of the bits -/

theorem toNat_unpackMantissa (b : BitVec 64) :
    (@UnpackedFloat.unpackMantissa .binary64 b).toNat = b.toNat % fractions := by
  simp [UnpackedFloat.unpackMantissa, fractions]

theorem toNat_unpackExponent (b : BitVec 64) :
    (@UnpackedFloat.unpackExponent .binary64 b).toNat = b.toNat / fractions % 2048 := by
  simp [UnpackedFloat.unpackExponent, fractions, Nat.shiftRight_eq_div_pow]

theorem toNat_unpackSign (b : BitVec 64) :
    (@UnpackedFloat.unpackSign .binary64 b).toNat = b.toNat / signWeight := by
  have hlt : b.toNat < 18446744073709551616 := b.isLt
  simp only [UnpackedFloat.unpackSign, signWeight, BitVec.toNat_cast, BitVec.extractLsb_toNat,
    Nat.shiftRight_eq_div_pow]
  omega

theorem ofBitVec_unpackSign (b : BitVec 64) :
    UnpackedFloat.Sign.ofBitVec (@UnpackedFloat.unpackSign .binary64 b) =
      if b.toNat < signWeight then .positive else .negative := by
  have hzero : @UnpackedFloat.unpackSign .binary64 b = 0#1 ↔ b.toNat < signWeight := by
    rw [← BitVec.toNat_inj, toNat_unpackSign]
    simp [signWeight, Nat.div_eq_zero_iff]
  unfold UnpackedFloat.Sign.ofBitVec
  simp only [hzero]

/-- Below the sign stand the exponent and, under it, the fraction. -/
theorem mod_signWeight (n : ℕ) :
    n % signWeight = n / fractions % 2048 * fractions + n % fractions := by
  unfold signWeight fractions
  omega

/-! ## Ranks of unpacked doubles -/

/-- The rank of the bits below a sign. -/
def signed : UnpackedFloat.Sign → ℕ → ℤ
  | .positive, n => n
  | .negative, n => -n - 1

/-- Where an unpacked double stands in the order by bits. -/
def rankOf : UnpackedFloat → ℤ
  | .zero s => signed s 0
  | .finite s m e _ => signed s ((e + 1074).toNat * fractions + m)
  | .infinity s => signed s (2047 * fractions)
  | .notANumber => 0

/-- The mantissa has its leading bit, unless the exponent is the least one. -/
def Canonical : UnpackedFloat → Prop
  | .finite _ m e _ => -1074 ≤ e ∧ e ≤ 971 ∧ m < 2 * fractions ∧ (e = -1074 ∨ fractions ≤ m)
  | _ => True

theorem rank_eq_signed (x : Float) :
    rank x = signed (if x.toBits.toNat < signWeight then .positive else .negative)
      (x.toBits.toNat % signWeight) := by
  have hlt : x.toBits.toNat < 18446744073709551616 := x.toBits.toBitVec.isLt
  unfold rank
  dsimp only
  split
  · rename_i hpositive
    simp only [signed, Nat.mod_eq_of_lt hpositive]
  · simp only [signed, signWeight] at *
    omega

/-- An unpacked double stands where its bits do. -/
theorem rankOf_unpack {b : BitVec 64} (h : (UnpackedFloat.unpack .binary64 b).isNaN = false) :
    rankOf (UnpackedFloat.unpack .binary64 b) =
        signed (if b.toNat < signWeight then .positive else .negative) (b.toNat % signWeight) ∧
      Canonical (UnpackedFloat.unpack .binary64 b) := by
  have hfraction : (@UnpackedFloat.unpackMantissa .binary64 b).toNat < fractions := BitVec.isLt _
  have hexponent : (@UnpackedFloat.unpackExponent .binary64 b).toNat < 2048 := BitVec.isLt _
  have hbias : ((Format.binary64.exponentBias : ℕ) + (52 : ℕ) : ℤ) = 1075 := rfl
  rw [← ofBitVec_unpackSign, mod_signWeight, ← toNat_unpackExponent, ← toNat_unpackMantissa]
  unfold UnpackedFloat.unpack at h ⊢
  dsimp only at h ⊢
  split_ifs at h ⊢ with hones hnone hzero hnone
  · rw [hones, hnone]
    exact ⟨rfl, trivial⟩
  · cases h
  · rw [hzero, hnone]
    exact ⟨rfl, trivial⟩
  · simp only [rankOf, Canonical, hbias, hzero]
    exact ⟨rfl, by decide, by decide, by omega, .inl rfl⟩
  · have hones : (@UnpackedFloat.unpackExponent .binary64 b).toNat ≠ 2047 := fun heq =>
      hones (BitVec.eq_of_toNat_eq heq)
    have hzero : (@UnpackedFloat.unpackExponent .binary64 b).toNat ≠ 0 := fun heq =>
      hzero (BitVec.eq_of_toNat_eq heq)
    have hleading : (1#1 ++ @UnpackedFloat.unpackMantissa .binary64 b).toNat =
        fractions + (@UnpackedFloat.unpackMantissa .binary64 b).toNat := by
      rw [BitVec.toNat_append, ← Nat.shiftLeft_add_eq_or_of_lt (BitVec.isLt _)]
      rfl
    simp only [rankOf, Canonical, hbias, hleading]
    refine ⟨congrArg (signed _) ?_, by omega, by omega, by omega, .inr (by omega)⟩
    unfold fractions
    omega

theorem rank_eq_rankOf {x : Float} (h : x.toModel.unpack.isNaN = false) :
    rank x = rankOf x.toModel.unpack :=
  (rank_eq_signed x).trans (rankOf_unpack h).1.symm

/-! ## Comparing ranks -/

theorem rankOf_lt {x y : UnpackedFloat} (hx : Canonical x) (hy : Canonical y)
    (hnumber : x.isNaN = false) (hnumber' : y.isNaN = false) (h : place x < place y) :
    rankOf x < rankOf y := by
  rcases x with (_ | _) | _ | (_ | _) | ⟨_ | _, m, e, _⟩ <;>
    rcases y with (_ | _) | _ | (_ | _) | ⟨_ | _, n, f, _⟩ <;>
    simp_all [rankOf, signed, place, Canonical, fractions, Prod.Lex.toLex_lt_toLex,
      UnpackedFloat.isNaN]
  -- between finite values of one sign, a higher exponent outweighs any mantissa, since the higher
  -- one has its leading bit
  all_goals omega

/-- A lower number comes first in the order by bits. -/
theorem rank_lt_of_lt {x y : Float} (h : x < y) : rank x < rank y := by
  obtain ⟨hx, hy⟩ := isNaN_of_lt (lt_iff.1 h)
  have hplace := (lt_iff_place hx hy).1 (lt_iff.1 h)
  rw [rank_eq_rankOf hx, rank_eq_rankOf hy]
  exact rankOf_lt (rankOf_unpack hx).2 (rankOf_unpack hy).2 hx hy hplace

end Dispatch.Double
