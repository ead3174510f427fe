import Mathlib
import Dispatch.Proofs.BitOrder
/-!
# How large doubles get

A double is undefined only if infinities meet, or one meets a zero. To rule this out for what the
engine multiplies, `Within` bounds the exponents of doubles. Rounding, packing and counting keep
them far below the largest one, so every count of agents is a finite double (`isFinite_ofNat`), and
what finite doubles come to when multiplied and added is a number (`isNumber_mul_add`). So doubles
obey the laws of `ScoringScalar`, by which every target has a score that can be compared.
-/

namespace Dispatch.Double
open Float.Model

/-! ## Exponents -/

/-- Zero, or finite with an exponent up to the given one. -/
def Within (limit : ℤ) : UnpackedFloat → Prop
  | .zero _ => True
  | .finite _ _ e _ => e ≤ limit
  | .infinity _ | .notANumber => False

theorem Within.isFinite {limit : ℤ} {x : UnpackedFloat} (h : Within limit x) :
    x.isFinite = true := by
  cases x with
  | zero | finite => rfl
  | infinity | notANumber => exact h.elim

/-! ## Rounding -/

theorem binary64_targetExponent (m : ℕ) (e : ℤ) :
    Format.binary64.targetExponent (totalExponent m e) = max (m.log2 + 1 + e - 53) (-1074) := rfl

theorem shift_mantissa_le (em : UnpackedFloat.ExtendedMantissa) (n : ℕ) :
    (em >>> n).mantissa ≤ em.mantissa := by
  induction n with
  | zero => exact le_rfl
  | succ n ih => exact (Nat.div_le_self (em >>> n).mantissa 2).trans ih

theorem roundedMantissa_le (em : UnpackedFloat.ExtendedMantissa) :
    em.roundedMantissa ≤ em.mantissa + 1 := by
  rcases em with ⟨m, _ | _, _ | _⟩ <;>
    simp [UnpackedFloat.ExtendedMantissa.roundedMantissa, UnpackedFloat.ExtendedMantissa.accuracy,
      UnpackedFloat.Accuracy.roundToNearestEven]
  omega

/-- Rounding a product of two mantissas raises the exponent by no more than its length. -/
theorem within_roundWithAccuracy {limit : ℤ} (hlimit : -1074 ≤ limit) (s : UnpackedFloat.Sign)
    {m : ℕ} (hm : m < 2 ^ 106) {e : ℤ} (he : e ≤ limit) :
    Within (limit + 107) (UnpackedFloat.roundWithAccuracy .binary64 s m e .exact) := by
  have hlog : ∀ {n : ℕ} {d : ℕ}, n < 2 ^ (d + 1) → n.log2 ≤ d := by
    intro n d hn
    rcases eq_or_ne n 0 with rfl | hne
    · simp
    · exact Nat.lt_succ_iff.1 ((Nat.log2_lt hne).2 hn)
  have hfirst := roundedMantissa_le
    (UnpackedFloat.shiftToTargetExponent .binary64 m e .exact).1
  have hshift : (UnpackedFloat.shiftToTargetExponent .binary64 m e .exact).1.mantissa ≤ m :=
    shift_mantissa_le _ _
  have hexp : (UnpackedFloat.shiftToTargetExponent .binary64 m e .exact).2 ≤ limit + 53 := by
    have := hlog (d := 105) hm
    simp only [UnpackedFloat.shiftToTargetExponent, UnpackedFloat.shiftToExponent,
      binary64_targetExponent]
    omega
  unfold UnpackedFloat.roundWithAccuracy
  generalize UnpackedFloat.shiftToTargetExponent .binary64 m e .exact = first at *
  obtain ⟨em, f⟩ := first
  have hrounded := hlog (n := em.roundedMantissa) (d := 106) (by dsimp only at *; omega)
  have hexp' : (UnpackedFloat.shiftToTargetExponent .binary64 em.roundedMantissa f .exact).2 ≤
      limit + 107 := by
    simp only [UnpackedFloat.shiftToTargetExponent, UnpackedFloat.shiftToExponent,
      binary64_targetExponent]
    dsimp only at *
    omega
  dsimp only
  split
  · trivial
  · exact hexp'

theorem within_round_zero {m : ℕ} (hm : m < 2 ^ 53) (s : UnpackedFloat.Sign) :
    Within 107 (UnpackedFloat.round .binary64 s m 0) := by
  unfold UnpackedFloat.round UnpackedFloat.decreaseExponent
  simp only [binary64_targetExponent]
  generalize hshift : (0 - max ((m.log2 : ℤ) + 1 + 0 - 53) (-1074)).toNat = shift
  have hle : shift ≤ 52 := by omega
  have hmantissa : m <<< shift < 2 ^ 106 := by
    calc m <<< shift = m * 2 ^ shift := Nat.shiftLeft_eq m shift
      _ ≤ m * 2 ^ 52 := Nat.mul_le_mul_left m (Nat.pow_le_pow_right (by decide) hle)
      _ < 2 ^ 106 := by omega
  have hexp : 0 - (shift : ℤ) ≤ 0 := by omega
  exact within_roundWithAccuracy (by decide) s hmantissa hexp

theorem within_ofNat {k : ℕ} (hk : k < 2 ^ 53) :
    Within 107 (UnpackedFloat.ofNat .binary64 k) := by
  unfold UnpackedFloat.ofNat UnpackedFloat.ofInt UnpackedFloat.normalize
  split
  · exact within_round_zero (by omega) _
  · trivial
  · exact within_round_zero (by omega) _

/-! ## Packing -/

/-- Packing keeps a finite value finite, unless its exponent is above all exponents of doubles. -/
theorem within_unpack_pack {limit : ℤ} (hlow : -1074 ≤ limit) (hhigh : limit ≤ 971)
    {x : UnpackedFloat} (h : Within limit x) : Within limit (Float.Model.pack x).unpack := by
  show Within limit (UnpackedFloat.unpack .binary64 (UnpackedFloat.pack .binary64 x))
  cases x with
  | infinity | notANumber => exact h.elim
  | zero s =>
    have hunpack : UnpackedFloat.unpack .binary64 (UnpackedFloat.pack .binary64 (.zero s)) =
        .zero s := UnpackedFloat.unpack_packedZero
    rw [hunpack]
    trivial
  | finite s m e hm =>
    have he : e ≤ limit := h
    have hcomponents : ∀ (exponent : BitVec 11) (fraction : BitVec 52),
        exponent ≠ -1#11 → (exponent.toNat : ℤ) ≤ limit + 1075 →
        Within limit (UnpackedFloat.unpack .binary64
          (UnpackedFloat.packComponents .binary64 s exponent fraction)) := by
      intro exponent fraction hne hle
      unfold UnpackedFloat.unpack
      simp only [UnpackedFloat.unpackMantissa_packComponents,
        UnpackedFloat.unpackExponent_packComponents]
      rw [if_neg hne]
      split_ifs with hzero
      · trivial
      · show (exponent.toNat : ℤ) - 1075 + 1 ≤ limit
        have hzero : exponent = 0#11 := hzero
        subst hzero
        simp
        omega
      · show (exponent.toNat : ℤ) - 1075 ≤ limit
        omega
    unfold UnpackedFloat.pack
    dsimp only
    generalize hbiased : (e + Format.binary64.exponentBias +
      Format.binary64.mantissaBitsWithoutImplicit).toNat = biased
    have hbiased : biased = (e + 1023 + 52).toNat := hbiased.symm
    have hfits : ¬ 2 ^ Format.binary64.exponentBits ≤ biased + 1 := by
      show ¬ 2048 ≤ biased + 1
      omega
    rw [if_neg hfits]
    split_ifs
    · refine hcomponents (BitVec.ofNat 11 biased) _ ?_ ?_
      · intro heq
        have hnat := congrArg BitVec.toNat heq
        simp at hnat
        omega
      · rw [BitVec.toNat_ofNat]
        omega
    · refine hcomponents (0#11) _ (by decide) ?_
      simp
      omega

/-- The mantissa of a double has 53 bits, and its exponent is at most 971. -/
theorem unpack_bounds {bits : BitVec Format.binary64.numBits} {s : UnpackedFloat.Sign} {m : ℕ}
    {e : ℤ} {hm : 0 < m} (h : UnpackedFloat.unpack .binary64 bits = .finite s m e hm) :
    m < 2 ^ 53 ∧ e ≤ 971 := by
  have hcanonical := (rankOf_unpack (b := bits) (by rw [h]; rfl)).2
  rw [h] at hcanonical
  obtain ⟨-, he, hmantissa, -⟩ := hcanonical
  exact ⟨hmantissa, he⟩

theorem within_unpack {x : Float} (h : x.isFinite = true) : Within 971 x.toModel.unpack := by
  have h : x.toModel.unpack.isFinite = true := h
  cases hx : x.toModel.unpack with
  | infinity | notANumber => rw [hx] at h; cases h
  | zero => trivial
  | finite s m e hm => exact (unpack_bounds hx).2

/-! ## Counts -/

theorem isFinite_neg {x : Float} (h : x.isFinite = true) : (-x).isFinite = true := by
  have hneg : Within 971 x.toModel.unpack.neg := by
    have h := within_unpack h
    revert h
    cases x.toModel.unpack <;> exact id
  exact (within_unpack_pack (by decide) le_rfl hneg).isFinite

/-- Every count of agents is a finite double. -/
theorem isFinite_ofNat {k : ℕ} (hk : k < 2 ^ 53) : (Float.ofNat k).isFinite = true := by
  have heq : Float.ofNat k = k.toUInt64.toFloat * .ofBits 0x3FF0000000000000 := by
    show Float.ofScientific k false 0 = _
    unfold Float.ofScientific
    rw [dif_pos ⟨hk, by decide⟩]
    rfl
  have hcount : Within 107 k.toUInt64.toFloat.toModel.unpack := by
    have hnat : k.toUInt64.toNat = k := by
      simp
      omega
    show Within 107 (Float.Model.pack (UnpackedFloat.ofNat .binary64 k.toUInt64.toNat)).unpack
    rw [hnat]
    exact within_unpack_pack (by decide) (by decide) (within_ofNat hk)
  have hone : (Float.ofBits 0x3FF0000000000000).toModel.unpack =
      .finite .positive (2 ^ 52) (-52) (by decide) := rfl
  have hproduct : Within 162 (.mul .binary64 k.toUInt64.toFloat.toModel.unpack
      (Float.ofBits 0x3FF0000000000000).toModel.unpack) := by
    rw [hone]
    cases hx : k.toUInt64.toFloat.toModel.unpack with
    | infinity | notANumber => rw [hx] at hcount; exact hcount.elim
    | zero => trivial
    | finite s m e hm =>
      obtain ⟨hmantissa, -⟩ := unpack_bounds hx
      rw [hx] at hcount
      have he : e ≤ 107 := hcount
      have hexp : e + -52 ≤ 55 := by omega
      exact within_roundWithAccuracy (by decide) _ (by omega) hexp
  rw [heq]
  exact (within_unpack_pack (by decide) (by decide) hproduct).isFinite

/-! ## Products and sums -/

theorem isNaN_mul {x y : UnpackedFloat} (hx : x.isFinite = true) (hy : y.isFinite = true) :
    (UnpackedFloat.mul .binary64 x y).isNaN = false := by
  cases x with
  | infinity | notANumber => cases hx
  | zero s =>
    cases y with
    | infinity | notANumber => cases hy
    | zero | finite => rfl
  | finite =>
    cases y with
    | infinity | notANumber => cases hy
    | zero => rfl
    | finite =>
      unfold UnpackedFloat.mul UnpackedFloat.roundWithAccuracy
      dsimp only
      split <;> rfl

/-- An infinite value stays as it is, also on the right. -/
theorem isNaN_isFinite_add {x y : UnpackedFloat} (hx : x.isFinite = true)
    (hy : y.isNaN = false) : (UnpackedFloat.add .binary64 x y).isNaN = false := by
  cases y with
  | notANumber => cases hy
  | infinity s =>
    cases x with
    | infinity | notANumber => cases hx
    | zero | finite => rfl
  | zero | finite => exact isNaN_add hx rfl

/-- A finite value and the product of two others may overflow, but they add up to a number. -/
theorem isNumber_mul_add {x y z : Float} (hx : x.isFinite = true) (hy : y.isFinite = true)
    (hz : z.isFinite = true) : Scalar.IsNumber (x + y * z) := by
  have hmul : (y * z).toModel.unpack.isNaN = false := isNaN_unpack_pack (isNaN_mul hy hz)
  exact isNumber_of_isNaN (isNaN_unpack_pack (isNaN_isFinite_add hx hmul))

end Dispatch.Double

namespace Dispatch

/-! ## Scores of targets -/

/-- Scores are numbers, and what is not above having no target is below all that is. -/
class ScoringScalar (α : Type) [Scalar α] : Prop extends OrderedScalar α where
  isNumber_score : ∀ {utility penalty : α} {k : ℕ}, Scalar.isFinite utility = true →
    Scalar.isFinite penalty = true → k ≤ UInt32.size →
    Scalar.IsNumber (utility + -penalty * Scalar.ofNat k)
  lt_of_aboveBottom : ∀ {x y : α}, Scalar.IsNumber x → Scalar.aboveBottom x = false →
    Scalar.aboveBottom y = true → x < y

instance : ScoringScalar Rat where
  isNumber_score {utility penalty k} _ _ _ := le_refl (α := ℚ) (utility + -penalty * (k : ℚ))
  lt_of_aboveBottom _ hx _ := nomatch hx

instance : ScoringScalar Float where
  isNumber_score hutility hpenalty hk :=
    Double.isNumber_mul_add hutility (Double.isFinite_neg hpenalty)
      (Double.isFinite_ofNat (lt_of_le_of_lt hk (by decide)))
  lt_of_aboveBottom hx hbelow habove :=
    (OrderedScalar.lt_or_lt hx (of_decide_eq_true habove)).resolve_left
      (of_decide_eq_false hbelow)

end Dispatch
