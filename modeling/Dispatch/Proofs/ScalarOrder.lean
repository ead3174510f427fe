import Mathlib
import Dispatch.Matrix
import Dispatch.Scalar.Double
import Dispatch.Scalar.Exact
/-!
# The order of the scalars

Rationals and doubles compare by the same laws, as long as no double is undefined. The laws are
the fields of `OrderedScalar`, and both kinds of scalars are shown to obey them, so what is proven
from them holds of the program and of exact arithmetic alike. By those of `SummingScalar`, what an
assignment is worth is a number (`UtilityMatrix.isNumber_totalUtility`); by those of
`SortingScalar`, values have only one order to be sorted in.
-/

namespace Dispatch

/-- Compares with itself: anything but the undefined double. -/
def Scalar.IsNumber {α : Type} [Scalar α] (x : α) : Prop := x ≤ x

/-- Comparison is a strict order, which is total up to ties among numbers. Finite values and their
sums are numbers. -/
class OrderedScalar (α : Type) [Scalar α] : Prop where
  lt_irrefl : ∀ x : α, ¬ x < x
  lt_trans : ∀ {x y z : α}, x < y → y < z → x < z
  lt_or_lt : ∀ {x y z : α}, Scalar.IsNumber y → x < z → x < y ∨ y < z
  le_iff_not_lt : ∀ {x y : α}, Scalar.IsNumber x → Scalar.IsNumber y → (x ≤ y ↔ ¬ y < x)
  max_eq : ∀ {x y : α}, Scalar.IsNumber x → Scalar.IsNumber y →
    Scalar.max x y = if x < y then y else x
  isNumber_of_isFinite : ∀ {x : α}, Scalar.isFinite x = true → Scalar.IsNumber x
  isNumber_add : ∀ {x y : α}, Scalar.isFinite x = true → Scalar.isFinite y = true →
    Scalar.IsNumber (x + y)
  isFinite_zero : Scalar.isFinite (Scalar.zero : α) = true
  aboveBottom_of_lt : ∀ {x y : α}, Scalar.aboveBottom x = true → x < y →
    Scalar.aboveBottom y = true

instance : OrderedScalar Rat where
  lt_irrefl := fun x : ℚ => lt_irrefl x
  lt_trans := @lt_trans ℚ _
  lt_or_lt {x y _} _ h := (lt_or_ge (α := ℚ) x y).imp_right fun hyx => lt_of_le_of_lt hyx h
  le_iff_not_lt _ _ := (not_lt (α := ℚ)).symm
  max_eq {x y} _ _ := max_def_lt (α := ℚ) x y
  isNumber_of_isFinite {x} _ := le_refl (α := ℚ) x
  isNumber_add {x y} _ _ := le_refl (α := ℚ) (x + y)
  isFinite_zero := rfl
  aboveBottom_of_lt _ _ := rfl

theorem OrderedScalar.le_of_lt {α : Type} [Scalar α] [OrderedScalar α] {x y : α}
    (hx : Scalar.IsNumber x) (hy : Scalar.IsNumber y) (h : x < y) : x ≤ y :=
  (le_iff_not_lt hx hy).2 fun hyx => lt_irrefl x (lt_trans h hyx)

/-- A sum of finite values is a number, even if it is beyond all of them. -/
class SummingScalar (α : Type) [Scalar α] : Prop extends OrderedScalar α where
  isNumber_sumUnit : Scalar.IsNumber (Scalar.sumUnit : α)
  isNumber_add_isFinite : ∀ {x y : α}, Scalar.IsNumber x → Scalar.isFinite y = true →
    Scalar.IsNumber (x + y)

instance : SummingScalar Rat where
  isNumber_sumUnit := le_refl (α := ℚ) 0
  isNumber_add_isFinite {x y} _ _ := le_refl (α := ℚ) (x + y)

/-- How far apart two finite values are is a number, and so is the distance that is tolerated. -/
class MeasuringScalar (α : Type) [Scalar α] : Prop extends OrderedScalar α where
  isNumber_epsilon : Scalar.IsNumber (Scalar.epsilon : α)
  isNumber_abs_sub : ∀ {x y : α}, Scalar.isFinite x = true → Scalar.isFinite y = true →
    Scalar.IsNumber (Scalar.abs (x - y))

instance : MeasuringScalar Rat where
  isNumber_epsilon := le_refl (α := ℚ) _
  isNumber_abs_sub {x y} _ _ := le_refl (α := ℚ) (Scalar.abs (x - y))

/-- The order for sorting is total, and no two values share a place in it. -/
class SortingScalar (α : Type) [Scalar α] : Prop where
  totalLE_total : ∀ x y : α, Scalar.totalLE x y = true ∨ Scalar.totalLE y x = true
  totalLE_trans : ∀ {x y z : α}, Scalar.totalLE x y = true → Scalar.totalLE y z = true →
    Scalar.totalLE x z = true
  totalLE_antisymm : ∀ {x y : α}, Scalar.totalLE x y = true → Scalar.totalLE y x = true → x = y

instance : SortingScalar Rat where
  totalLE_total x y := (le_total (α := ℚ) x y).imp decide_eq_true decide_eq_true
  totalLE_trans hxy hyz :=
    decide_eq_true (le_trans (α := ℚ) (of_decide_eq_true hxy) (of_decide_eq_true hyz))
  totalLE_antisymm hxy hyx :=
    le_antisymm (α := ℚ) (of_decide_eq_true hxy) (of_decide_eq_true hyx)

/-! ## Comparing doubles -/

namespace Double
open Float.Model

/-- Where a number stands among the numbers; both zeros stand at the same place. -/
def place : UnpackedFloat → ℤ ×ₗ ℤ ×ₗ ℤ
  | .infinity .negative => toLex (-2, toLex (0, 0))
  | .finite .negative m e _ => toLex (-1, toLex (-e, -m))
  | .zero _ | .notANumber => toLex (0, toLex (0, 0))
  | .finite .positive m e _ => toLex (1, toLex (e, m))
  | .infinity .positive => toLex (2, toLex (0, 0))

theorem lt_iff_place {x y : UnpackedFloat} (hx : x.isNaN = false) (hy : y.isNaN = false) :
    x.lt y = true ↔ place x < place y := by
  rcases x with (_ | _) | _ | _ | ⟨_ | _, m, e, _⟩ <;>
    rcases y with (_ | _) | _ | _ | ⟨_ | _, n, f, _⟩ <;>
    simp_all [UnpackedFloat.lt, UnpackedFloat.compare, UnpackedFloat.isNaN, place,
      Prod.Lex.toLex_lt_toLex, Ordering.then_eq_lt, Ordering.then_eq_gt, compare_gt_iff_gt,
      compare_lt_iff_lt]
  all_goals decide

/-- Comparing exponents, then mantissas, the other way round. -/
theorem swap_compare (e f : ℤ) (m n : ℕ) :
    (compare f e).then (compare n m) = ((compare e f).then (compare m n)).swap := by
  rw [Ordering.swap_then, Int.compare_swap, Nat.compare_swap]

theorem unpacked_le_iff {x y : UnpackedFloat} (hx : x.isNaN = false) (hy : y.isNaN = false) :
    x.le y = true ↔ y.lt x = false := by
  rcases x with (_ | _) | _ | _ | ⟨_ | _, m, e, _⟩ <;>
    rcases y with (_ | _) | _ | _ | ⟨_ | _, n, f, _⟩ <;>
    simp_all [UnpackedFloat.le, UnpackedFloat.lt, UnpackedFloat.compare, UnpackedFloat.isNaN]
  all_goals try decide
  · rw [swap_compare e f m n, Ordering.swap_eq_gt]
    exact Ordering.isGE_iff_ne_lt
  · rw [swap_compare e f m n, Ordering.swap_eq_lt]
    exact Ordering.isLE_iff_ne_gt

theorem isNaN_of_lt {x y : UnpackedFloat} (h : x.lt y = true) :
    x.isNaN = false ∧ y.isNaN = false := by
  rcases x with (_ | _) | _ | _ | _ <;> rcases y with (_ | _) | _ | _ | _ <;>
    simp_all [UnpackedFloat.lt, UnpackedFloat.compare, UnpackedFloat.isNaN]

theorem isNaN_of_le_self {x : UnpackedFloat} (h : x.le x = true) : x.isNaN = false := by
  rcases x with (_ | _) | _ | _ | _ <;>
    simp_all [UnpackedFloat.le, UnpackedFloat.compare, UnpackedFloat.isNaN]

/-! ## Sums of doubles -/

theorem isNaN_packComponents (s : UnpackedFloat.Sign) {e : BitVec 11} {f : BitVec 52}
    (h : e = -1#11 → f = 0#52) :
    (UnpackedFloat.unpack .binary64 (UnpackedFloat.packComponents .binary64 s e f)).isNaN =
      false := by
  unfold UnpackedFloat.unpack
  simp only [UnpackedFloat.unpackMantissa_packComponents,
    UnpackedFloat.unpackExponent_packComponents]
  split_ifs <;> simp_all [UnpackedFloat.isNaN]

theorem isNaN_unpack_pack {x : UnpackedFloat} (h : x.isNaN = false) :
    (Float.Model.pack x).unpack.isNaN = false := by
  show (UnpackedFloat.unpack .binary64 (UnpackedFloat.pack .binary64 x)).isNaN = false
  fun_cases UnpackedFloat.pack with
  | case1 => cases h
  | case2 s => exact isNaN_packComponents s fun _ => rfl
  | case3 s => exact isNaN_packComponents s fun _ => rfl
  | case4 s => exact isNaN_packComponents s fun _ => rfl
  | case5 s m e _ _ biased hfits =>
    -- the exponent of a value that does not overflow is below the one of the undefined values
    apply isNaN_packComponents s
    intro he
    have hmod := congrArg BitVec.toNat he
    simp only [BitVec.toNat_ofNat] at hmod
    change biased % 2048 = 2047 at hmod
    change ¬ 2048 ≤ biased + 1 at hfits
    omega
  | case6 s => exact isNaN_packComponents s fun he => absurd he (by decide)

theorem isNaN_normalize (n e : ℤ) (zeroSign : UnpackedFloat.Sign) :
    (UnpackedFloat.normalize .binary64 n e zeroSign).isNaN = false := by
  unfold UnpackedFloat.normalize UnpackedFloat.round UnpackedFloat.roundWithAccuracy
  split
  · dsimp only
    split <;> rfl
  · rfl
  · dsimp only
    split <;> rfl

theorem isNaN_add {x y : UnpackedFloat} (hx : x.isFinite = true) (hy : y.isFinite = true) :
    (UnpackedFloat.add .binary64 x y).isNaN = false := by
  cases x with
  | infinity | notANumber => cases hx
  | zero s =>
    cases y with
    | infinity | notANumber => cases hy
    | zero t => cases s <;> cases t <;> rfl
    | finite => rfl
  | finite =>
    cases y with
    | infinity | notANumber => cases hy
    | zero => rfl
    | finite => exact isNaN_normalize ..

/-- An infinite value stays as it is. -/
theorem isNaN_add_isFinite {x y : UnpackedFloat} (hx : x.isNaN = false) (hy : y.isFinite = true) :
    (UnpackedFloat.add .binary64 x y).isNaN = false := by
  cases x with
  | notANumber => cases hx
  | infinity s =>
    cases y with
    | infinity | notANumber => cases hy
    | zero t => rfl
    | finite => rfl
  | zero | finite => exact isNaN_add rfl hy

theorem isNaN_sub {x y : UnpackedFloat} (hx : x.isFinite = true) (hy : y.isFinite = true) :
    (UnpackedFloat.sub .binary64 x y).isNaN = false := by
  cases x with
  | infinity | notANumber => cases hx
  | zero s =>
    cases y with
    | infinity | notANumber => cases hy
    | zero t => cases s <;> cases t <;> rfl
    | finite => rfl
  | finite =>
    cases y with
    | infinity | notANumber => cases hy
    | zero => rfl
    | finite => exact isNaN_normalize ..

theorem isNaN_abs {x : UnpackedFloat} (hx : x.isNaN = false) : x.abs.isNaN = false := by
  cases x with
  | notANumber => cases hx
  | infinity | zero | finite => rfl

/-! ## The laws for doubles -/

theorem lt_iff {x y : Float} : x < y ↔ x.toModel.unpack.lt y.toModel.unpack = true :=
  decide_eq_true_iff

theorem le_iff {x y : Float} : x ≤ y ↔ x.toModel.unpack.le y.toModel.unpack = true :=
  decide_eq_true_iff

theorem isNaN_of_isNumber {x : Float} (h : Scalar.IsNumber x) : x.toModel.unpack.isNaN = false :=
  isNaN_of_le_self (le_iff.1 h)

theorem isNumber_of_isNaN {x : Float} (h : x.toModel.unpack.isNaN = false) : Scalar.IsNumber x := by
  refine le_iff.2 ((unpacked_le_iff h h).2 ?_)
  rw [Bool.eq_false_iff, Ne, lt_iff_place h h]
  exact lt_irrefl _

theorem lt_trans {x y z : Float} (hxy : x < y) (hyz : y < z) : x < z := by
  have hxy := lt_iff.1 hxy
  have hyz := lt_iff.1 hyz
  obtain ⟨hx, hy⟩ := isNaN_of_lt hxy
  obtain ⟨-, hz⟩ := isNaN_of_lt hyz
  exact lt_iff.2 ((lt_iff_place hx hz).2
    (((lt_iff_place hx hy).1 hxy).trans ((lt_iff_place hy hz).1 hyz)))

end Double

open Double in
instance : OrderedScalar Float where
  lt_irrefl x h := by
    have h := lt_iff.1 h
    obtain ⟨hx, -⟩ := isNaN_of_lt h
    exact lt_irrefl _ ((lt_iff_place hx hx).1 h)
  lt_trans hxy hyz := Double.lt_trans hxy hyz
  lt_or_lt {x y z} hy hxz := by
    have hxz := lt_iff.1 hxz
    obtain ⟨hx, hz⟩ := isNaN_of_lt hxz
    have hy := isNaN_of_isNumber hy
    have hlt := (lt_iff_place hx hz).1 hxz
    rcases lt_or_ge (place x.toModel.unpack) (place y.toModel.unpack) with h | h
    · exact .inl (lt_iff.2 ((lt_iff_place hx hy).2 h))
    · exact .inr (lt_iff.2 ((lt_iff_place hy hz).2 (lt_of_le_of_lt h hlt)))
  le_iff_not_lt {x y} hx hy := by
    have h := unpacked_le_iff (isNaN_of_isNumber hx) (isNaN_of_isNumber hy)
    rw [← Bool.not_eq_true] at h
    exact le_iff.trans (h.trans (not_congr lt_iff.symm))
  max_eq {x y} hx hy := by
    have hx : x.isNaN = false := isNaN_of_isNumber hx
    have hy : y.isNaN = false := isNaN_of_isNumber hy
    show (if x.isNaN then y else if y.isNaN then x else if x < y then y else x) = _
    rw [hx, hy]
    rfl
  isNumber_of_isFinite {x} h := by
    refine isNumber_of_isNaN ?_
    have h : x.toModel.unpack.isFinite = true := h
    cases hu : x.toModel.unpack <;> simp_all [Float.Model.UnpackedFloat.isFinite,
      Float.Model.UnpackedFloat.isNaN]
  isNumber_add {x y} hx hy := isNumber_of_isNaN (isNaN_unpack_pack (isNaN_add hx hy))
  isFinite_zero := by
    show Float.isFinite (Float.ofNat 0) = true
    decide
  aboveBottom_of_lt hx hxy := decide_eq_true (Double.lt_trans (of_decide_eq_true hx) hxy)

open Double in
instance : SummingScalar Float where
  isNumber_sumUnit := by
    show (-0.0 : Float) ≤ -0.0
    decide
  isNumber_add_isFinite hx hy :=
    isNumber_of_isNaN (isNaN_unpack_pack (isNaN_add_isFinite (isNaN_of_isNumber hx) hy))

open Double in
instance : MeasuringScalar Float where
  isNumber_epsilon := by
    show (Scalar.epsilon : Float) ≤ Scalar.epsilon
    decide +kernel
  isNumber_abs_sub hx hy :=
    isNumber_of_isNaN (isNaN_unpack_pack (isNaN_abs (isNaN_unpack_pack (isNaN_sub hx hy))))

/-! ## Sorting doubles -/

namespace Double

/-- Values of the same bits are the same. -/
theorem toBits_inj {x y : Float} (h : x.toBits = y.toBits) : x = y := by
  obtain ⟨⟨bits, _⟩⟩ := x
  obtain ⟨⟨bits', _⟩⟩ := y
  cases show bits = bits' from h
  rfl

theorem rank_inj {x y : Float} (h : rank x = rank y) : x = y := by
  refine toBits_inj (UInt64.toNat_inj.1 ?_)
  unfold rank signWeight at h
  dsimp only at h
  split_ifs at h <;> omega

end Double

instance : SortingScalar Float where
  totalLE_total x y :=
    (le_total (Double.rank x) (Double.rank y)).imp decide_eq_true decide_eq_true
  totalLE_trans hxy hyz := decide_eq_true ((of_decide_eq_true hxy).trans (of_decide_eq_true hyz))
  totalLE_antisymm hxy hyx :=
    Double.rank_inj (le_antisymm (of_decide_eq_true hxy) (of_decide_eq_true hyx))

/-! ## Utilities -/

section Utilities
variable {α : Type} [Scalar α]

theorem UtilityMatrix.isFinite_utility [OrderedScalar α] (m : UtilityMatrix α) (a t : EntityId) :
    Scalar.isFinite (m.utility a t) = true := by
  unfold utility
  split
  · rename_i i j _ _
    cases hv : m.values[i * m.targets.length + j]? with
    | none => exact OrderedScalar.isFinite_zero
    | some v => exact m.values_finite v (Array.mem_of_getElem? hv)
  · exact OrderedScalar.isFinite_zero

theorem Scalar.isNumber_sum [SummingScalar α] {xs : List α}
    (h : ∀ x ∈ xs, Scalar.isFinite x = true) : Scalar.IsNumber (Scalar.sum xs) := by
  suffices hfrom : ∀ start : α, Scalar.IsNumber start →
      Scalar.IsNumber (xs.foldl (· + ·) start) from
    hfrom _ SummingScalar.isNumber_sumUnit
  induction xs with
  | nil => exact fun start hstart => hstart
  | cons x rest ih =>
    intro start hstart
    obtain ⟨hx, hrest⟩ := List.forall_mem_cons.1 h
    exact ih hrest _ (SummingScalar.isNumber_add_isFinite hstart hx)

theorem UtilityMatrix.isNumber_totalUtility [SummingScalar α] (m : UtilityMatrix α)
    (x : Assignment) : Scalar.IsNumber (m.totalUtility x) := by
  refine Scalar.isNumber_sum fun v hv => ?_
  obtain ⟨p, -, rfl⟩ := List.mem_map.1 hv
  exact m.isFinite_utility p.1 p.2

end Utilities

end Dispatch
