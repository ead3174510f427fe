import Mathlib
import Dispatch.Proofs.Gains
/-!
# The signs of zeros

Doubles have two zeros, which compare equal. Which of them a maximum or a difference comes to can
depend on the order of its arguments. `Scalar.Alike` takes them for one value, and the laws of
`SignlessScalar` say that no sum, product or comparison tells alike values apart. Only sorting
does, and it never separates what is alike by more than a place.
-/

namespace Dispatch

namespace Scalar
variable {α : Type} [Scalar α]

/-- The value, without the sign if it is a zero. -/
def unsigned (x : α) : α := if x ≤ zero ∧ zero ≤ x then zero else x

/-- The same value, but for the sign of a zero. -/
def Alike (x y : α) : Prop := unsigned x = unsigned y

end Scalar

open Scalar

/-- Nothing that is computed or compared shows the sign of a zero. -/
class SignlessScalar (α : Type) [Scalar α] : Prop
    extends OrderedScalar α, SortingScalar α where
  add_alike : ∀ {x x' y y' : α}, Alike x x' → Alike y y' → Alike (x + y) (x' + y')
  sub_alike : ∀ {x x' y y' : α}, Alike x x' → Alike y y' → Alike (x - y) (x' - y')
  mul_alike : ∀ {x x' y y' : α}, Alike x x' → Alike y y' → Alike (x * y) (x' * y')
  max_alike : ∀ {x x' y y' : α}, Alike x x' → Alike y y' →
    Alike (Scalar.max x y) (Scalar.max x' y')
  abs_alike : ∀ {x x' : α}, Alike x x' → Alike (Scalar.abs x) (Scalar.abs x')
  lt_iff_of_alike : ∀ {x x' y y' : α}, Alike x x' → Alike y y' → (x < y ↔ x' < y')
  isFinite_eq_of_alike : ∀ {x x' : α}, Alike x x' → isFinite x = isFinite x'
  /-- Numbers of which neither is below the other are alike. -/
  alike_of_not_lt : ∀ {x y : α}, IsNumber x → IsNumber y → ¬ x < y → ¬ y < x → Alike x y
  /-- Values that are sorted stay so without their signs. -/
  totalLE_unsigned : ∀ {x y : α}, totalLE x y = true → totalLE (unsigned x) (unsigned y) = true

/-! ## Rationals -/

theorem Scalar.unsigned_rat (x : Rat) : unsigned x = x := by
  unfold unsigned
  split
  · rename_i h
    exact le_antisymm (α := ℚ) h.2 h.1
  · rfl

theorem Scalar.alike_rat {x y : Rat} : Alike x y ↔ x = y := by
  rw [Alike, unsigned_rat, unsigned_rat]

instance : SignlessScalar Rat where
  add_alike hx hy := by
    rw [alike_rat] at hx hy ⊢
    rw [hx, hy]
  sub_alike hx hy := by
    rw [alike_rat] at hx hy ⊢
    rw [hx, hy]
  mul_alike hx hy := by
    rw [alike_rat] at hx hy ⊢
    rw [hx, hy]
  max_alike hx hy := by
    rw [alike_rat] at hx hy ⊢
    rw [hx, hy]
  abs_alike hx := by
    rw [alike_rat] at hx ⊢
    rw [hx]
  lt_iff_of_alike hx hy := by
    rw [alike_rat] at hx hy
    rw [hx, hy]
  isFinite_eq_of_alike _ := rfl
  alike_of_not_lt _ _ hxy hyx :=
    alike_rat.2 (le_antisymm (not_lt (α := ℚ).1 hyx) (not_lt (α := ℚ).1 hxy))
  totalLE_unsigned h := by rwa [unsigned_rat, unsigned_rat]

/-! ## Doubles -/

namespace Double
open Float.Model

/-- The unpacked double, without the sign if it is a zero. -/
def flat : UnpackedFloat → UnpackedFloat
  | .zero _ => .zero .positive
  | x => x

theorem eq_or_zeros_of_flat {x y : UnpackedFloat} (h : flat x = flat y) :
    x = y ∨ ∃ s t, x = .zero s ∧ y = .zero t := by
  cases x <;> cases y <;> simp_all [flat]

/-- What tells no zeros apart does not tell any values apart that differ in the sign of a zero. -/
theorem eq_of_flat {β : Type} (f : UnpackedFloat → β) (hf : ∀ s t, f (.zero s) = f (.zero t))
    {x y : UnpackedFloat} (h : flat x = flat y) : f x = f y := by
  rcases eq_or_zeros_of_flat h with rfl | ⟨s, t, rfl, rfl⟩
  · rfl
  · exact hf s t

theorem flat_add (spec : Format) (x y : UnpackedFloat) :
    flat (.add spec (flat x) (flat y)) = flat (.add spec x y) := by
  rcases x with _ | _ | (_ | _) | _ <;> rcases y with _ | _ | (_ | _) | _ <;> rfl

theorem flat_sub (spec : Format) (x y : UnpackedFloat) :
    flat (.sub spec (flat x) (flat y)) = flat (.sub spec x y) := by
  rcases x with _ | _ | (_ | _) | _ <;> rcases y with _ | _ | (_ | _) | _ <;> rfl

theorem flat_mul (spec : Format) (x y : UnpackedFloat) :
    flat (.mul spec (flat x) (flat y)) = flat (.mul spec x y) := by
  rcases x with _ | _ | (_ | _) | _ <;> rcases y with _ | _ | (_ | _) | _ <;> rfl

theorem flat_abs (x : UnpackedFloat) : flat (flat x).abs = flat x.abs := by
  cases x <;> rfl

theorem compare_flat (x y : UnpackedFloat) : (flat x).compare (flat y) = x.compare y := by
  rcases x with (_ | _) | _ | _ | ⟨_ | _, _, _, _⟩ <;>
    rcases y with (_ | _) | _ | _ | ⟨_ | _, _, _, _⟩ <;> rfl

/-- Packing makes nothing of the sign of a zero either. -/
theorem flat_unpack_pack {x y : UnpackedFloat} (h : flat x = flat y) :
    flat (Float.Model.pack x).unpack = flat (Float.Model.pack y).unpack := by
  have hzero : ∀ s, (Float.Model.pack (.zero s)).unpack = .zero s := fun s =>
    UnpackedFloat.unpack_packedZero
  refine eq_of_flat (fun x => flat (Float.Model.pack x).unpack) (fun s t => ?_) h
  rw [hzero, hzero]
  rfl

theorem unpack_inj {x y : Float} (h : x.toModel.unpack = y.toModel.unpack) : x = y := by
  refine Float.toBits_inj.1 (UInt64.toBitVec_inj.1 ?_)
  exact (UnpackedFloat.unpack_inj_of_valid x.toModel.valid y.toModel.valid).1 h

theorem unpack_unsigned (x : Float) :
    (Scalar.unsigned x).toModel.unpack = flat x.toModel.unpack := by
  have hzero : (Scalar.zero : Float).toModel.unpack = .zero .positive := rfl
  unfold Scalar.unsigned
  split
  · rename_i h
    rw [le_iff, le_iff, hzero] at h
    rw [hzero]
    revert h
    rcases x.toModel.unpack with (_ | _) | _ | _ | ⟨_ | _, _, _, _⟩ <;>
      simp [UnpackedFloat.le, UnpackedFloat.compare, flat]
  · rename_i h
    rw [le_iff, le_iff, hzero] at h
    revert h
    rcases x.toModel.unpack with (_ | _) | _ | _ | ⟨_ | _, _, _, _⟩ <;>
      simp [UnpackedFloat.le, UnpackedFloat.compare, flat]

theorem alike_iff {x y : Float} :
    Scalar.Alike x y ↔ flat x.toModel.unpack = flat y.toModel.unpack := by
  rw [← unpack_unsigned, ← unpack_unsigned]
  exact ⟨fun h => h ▸ rfl, unpack_inj⟩

/-- What is made of alike doubles by operations that do not see the sign is alike. -/
theorem alike_of_unpacked (op : UnpackedFloat → UnpackedFloat → UnpackedFloat)
    (hop : ∀ x y, flat (op (flat x) (flat y)) = flat (op x y)) {x x' y y' : Float}
    (hx : Scalar.Alike x x') (hy : Scalar.Alike y y') :
    flat (Float.Model.pack (op x.toModel.unpack y.toModel.unpack)).unpack =
      flat (Float.Model.pack (op x'.toModel.unpack y'.toModel.unpack)).unpack := by
  refine flat_unpack_pack ?_
  rw [← hop, alike_iff.1 hx, alike_iff.1 hy, hop]

theorem compare_eq_of_alike {x x' y y' : Float} (hx : Scalar.Alike x x')
    (hy : Scalar.Alike y y') :
    x.toModel.unpack.compare y.toModel.unpack = x'.toModel.unpack.compare y'.toModel.unpack := by
  rw [← compare_flat, alike_iff.1 hx, alike_iff.1 hy, compare_flat]

theorem isNaN_eq_of_alike {x x' : Float} (h : Scalar.Alike x x') : x.isNaN = x'.isNaN :=
  eq_of_flat UnpackedFloat.isNaN (fun _ _ => rfl) (alike_iff.1 h)

theorem isFinite_eq_of_alike {x x' : Float} (h : Scalar.Alike x x') :
    x.isFinite = x'.isFinite :=
  eq_of_flat UnpackedFloat.isFinite (fun _ _ => rfl) (alike_iff.1 h)

theorem lt_iff_of_alike {x x' y y' : Float} (hx : Scalar.Alike x x') (hy : Scalar.Alike y y') :
    x < y ↔ x' < y' := by
  rw [lt_iff, lt_iff, UnpackedFloat.lt, UnpackedFloat.lt, compare_eq_of_alike hx hy]

/-- Numbers at the same place are the same, or both zeros. -/
theorem flat_eq_of_place {x y : UnpackedFloat} (hx : x.isNaN = false) (hy : y.isNaN = false)
    (h : place x = place y) : flat x = flat y := by
  rcases x with (_ | _) | _ | _ | ⟨_ | _, m, e, _⟩ <;>
    rcases y with (_ | _) | _ | _ | ⟨_ | _, n, f, _⟩ <;>
    simp_all [place, flat, UnpackedFloat.isNaN]

theorem alike_of_not_lt {x y : Float} (hx : Scalar.IsNumber x) (hy : Scalar.IsNumber y)
    (hxy : ¬ x < y) (hyx : ¬ y < x) : Scalar.Alike x y := by
  have hx := isNaN_of_isNumber hx
  have hy := isNaN_of_isNumber hy
  rw [lt_iff, lt_iff_place hx hy, not_lt] at hxy
  rw [lt_iff, lt_iff_place hy hx, not_lt] at hyx
  exact alike_iff.2 (flat_eq_of_place hx hy (le_antisymm hyx hxy))

/-- Without its sign a zero stands where the zero without one does. -/
theorem rank_unsigned (x : Float) :
    rank (Scalar.unsigned x) = if rank x = -1 then 0 else rank x := by
  have hpositive : (Scalar.zero : Float).toModel.unpack = .zero .positive := rfl
  have hnegative : (-0.0 : Float).toModel.unpack = .zero .negative := rfl
  have hrank : rank (Scalar.zero : Float) = 0 := by decide
  have hrank' : rank (-0.0 : Float) = -1 := by decide
  by_cases hx : ∃ s, x.toModel.unpack = .zero s
  · obtain ⟨s, hs⟩ := hx
    have hunsigned : Scalar.unsigned x = Scalar.zero :=
      unpack_inj (by rw [unpack_unsigned, hs, hpositive, flat])
    rw [hunsigned, hrank]
    cases s with
    | negative => rw [unpack_inj (hs.trans hnegative.symm), hrank', if_pos rfl]
    | positive => rw [unpack_inj (hs.trans hpositive.symm), hrank, if_neg (by decide)]
  · have hunsigned : Scalar.unsigned x = x := by
      refine unpack_inj ((unpack_unsigned x).trans ?_)
      cases hu : x.toModel.unpack with
      | zero s => exact absurd ⟨s, hu⟩ hx
      | infinity | notANumber | finite => rfl
    have hne : rank x ≠ -1 := fun h =>
      hx ⟨.negative, by rw [rank_inj (h.trans hrank'.symm), hnegative]⟩
    rw [hunsigned, if_neg hne]

end Double

open Double in
instance : SignlessScalar Float where
  add_alike hx hy := alike_iff.2 (alike_of_unpacked (.add .binary64) (flat_add _) hx hy)
  sub_alike hx hy := alike_iff.2 (alike_of_unpacked (.sub .binary64) (flat_sub _) hx hy)
  mul_alike hx hy := alike_iff.2 (alike_of_unpacked (.mul .binary64) (flat_mul _) hx hy)
  max_alike {x x' y y'} hx hy := by
    show Scalar.Alike (if x.isNaN then y else if y.isNaN then x else if x < y then y else x)
      (if x'.isNaN then y' else if y'.isNaN then x' else if x' < y' then y' else x')
    simp only [isNaN_eq_of_alike hx, isNaN_eq_of_alike hy, Double.lt_iff_of_alike hx hy]
    split_ifs
    · exact hy
    · exact hx
    · exact hy
    · exact hx
  abs_alike hx := by
    refine alike_iff.2 (flat_unpack_pack ?_)
    rw [← flat_abs, alike_iff.1 hx, flat_abs]
  lt_iff_of_alike hx hy := Double.lt_iff_of_alike hx hy
  isFinite_eq_of_alike hx := Double.isFinite_eq_of_alike hx
  alike_of_not_lt hx hy hxy hyx := Double.alike_of_not_lt hx hy hxy hyx
  totalLE_unsigned {x y} h := by
    have h : Double.rank x ≤ Double.rank y := of_decide_eq_true h
    refine decide_eq_true ?_
    rw [rank_unsigned, rank_unsigned]
    split_ifs <;> omega

/-! ## Choices and gains -/

section Gains
variable {α : Type} [Scalar α] [SignlessScalar α]

/-- Two greatest values are alike if the values they are taken from are. -/
theorem Lead.IsTop.alike {S S' : Set α} {x y : α} (h : IsTop S x) (h' : IsTop S' y)
    (hx : Scalar.IsNumber x) (hy : Scalar.IsNumber y)
    (hto : ∀ v ∈ S, ∃ w ∈ S', Scalar.Alike v w) (hfrom : ∀ w ∈ S', ∃ v ∈ S, Scalar.Alike v w) :
    Scalar.Alike x y := by
  obtain ⟨w, hw, hxw⟩ := hto x h.1
  obtain ⟨v, hv, hvy⟩ := hfrom y h'.1
  refine SignlessScalar.alike_of_not_lt hx hy (fun hlt => h.2 v hv ?_) fun hlt => h'.2 w hw ?_
  · exact (SignlessScalar.lt_iff_of_alike rfl hvy).2 hlt
  · exact (SignlessScalar.lt_iff_of_alike rfl hxw).1 hlt

/-- Best worths that are alike, from sums that are, under the same load. -/
structure Best.Alike (b c : Best α) : Prop where
  inside : Scalar.Alike b.inside c.inside
  outside : Scalar.Alike b.outside c.outside
  total : Scalar.Alike b.total c.total
  load_eq : b.load = c.load

theorem Best.Alike.add {b c : Best α} (h : b.Alike c) (potential : Nat → α) {v w : α}
    (hvw : Scalar.Alike v w) : (b.add potential v).Alike (c.add potential w) := by
  have htotal := SignlessScalar.add_alike h.total hvw
  refine ⟨SignlessScalar.max_alike h.inside (SignlessScalar.add_alike ?_ htotal),
    SignlessScalar.max_alike h.outside (SignlessScalar.add_alike ?_ htotal), htotal, ?_⟩
  · rw [h.load_eq]
    rfl
  · rw [h.load_eq]
    rfl
  · exact congrArg (· + 1) h.load_eq

theorem loadGain_alike (potential : Nat → α) {l k : List α} (h : List.Forall₂ Scalar.Alike l k) :
    Scalar.Alike (loadGain potential l) (loadGain potential k) := by
  have hbest : (l.foldl (Best.add potential) ⟨potential 1, potential 0, Scalar.zero, 0⟩).Alike
      (k.foldl (Best.add potential) ⟨potential 1, potential 0, Scalar.zero, 0⟩) :=
    List.rel_foldl (fun _ _ hbest _ _ hvw => hbest.add potential hvw) ⟨rfl, rfl, rfl, rfl⟩ h
  exact SignlessScalar.sub_alike hbest.inside hbest.outside

namespace MaxSum

/-- Candidates of alike scores have the same best one. -/
theorem EarliestBest.alike {score score' : EntityId → α} {candidates : List EntityId}
    {choice : Option EntityId} (h : EarliestBest score candidates choice)
    (halike : ∀ t ∈ candidates, Scalar.Alike (score t) (score' t)) :
    EarliestBest score' candidates choice := by
  cases choice with
  | none => exact h
  | some t =>
    obtain ⟨before, after, rfl, hbefore, hafter⟩ := h
    obtain ⟨halikeBefore, halikeRest⟩ := List.forall_mem_append.1 halike
    obtain ⟨ht, halikeAfter⟩ := List.forall_mem_cons.1 halikeRest
    refine ⟨before, after, rfl, fun s hs => ?_, fun s hs => ?_⟩
    · exact (SignlessScalar.lt_iff_of_alike (halikeBefore s hs) ht).1 (hbefore s hs)
    · exact mt (SignlessScalar.lt_iff_of_alike ht (halikeAfter s hs)).2 (hafter s hs)

/-- A function makes the same of values that are alike. -/
theorem gainOf_loadGains_alike {ids : List EntityId} (hids : ids.Nodup) {q q' : EntityId → α}
    (hq : ∀ b ∈ ids, Scalar.Alike (q b) (q' b)) (potential : Nat → α) (a : EntityId) :
    Scalar.Alike (gainOf ids (loadGains (ids.map q) potential) a)
      (gainOf ids (loadGains (ids.map q') potential) a) := by
  by_cases ha : a ∈ ids
  · obtain ⟨others, hsorted, hperm⟩ := exists_descending_others (q := q) ha
    obtain ⟨others', hsorted', hperm'⟩ := exists_descending_others (q := q') ha
    rw [gainOf_loadGains_eq hids potential ha hsorted hperm,
      gainOf_loadGains_eq hids potential ha hsorted' hperm']
    -- without their signs, the values of the others are the same, and there is one way to sort them
    have hvalues : (ids.map q).map Scalar.unsigned = (ids.map q').map Scalar.unsigned := by
      rw [List.map_map, List.map_map]
      exact List.map_congr_left hq
    have hothers : (others.map Scalar.unsigned).Perm (others'.map Scalar.unsigned) := by
      have hall := (hperm.map Scalar.unsigned).trans
        ((List.Perm.of_eq hvalues).trans (hperm'.map Scalar.unsigned).symm)
      rw [List.map_cons, List.map_cons, show Scalar.unsigned (q a) = Scalar.unsigned (q' a) from
        hq a ha] at hall
      exact hall.cons_inv
    have hunsigned : ∀ l : List α, l.Pairwise (fun x y => Scalar.totalLE y x = true) →
        (l.map Scalar.unsigned).Pairwise fun x y => Scalar.totalLE y x = true := fun l hl =>
      List.pairwise_map.2 (hl.imp SignlessScalar.totalLE_unsigned)
    have heq := hothers.eq_of_pairwise
      (fun _ _ _ _ hxy hyx => SortingScalar.totalLE_antisymm hyx hxy)
      (hunsigned others hsorted) (hunsigned others' hsorted')
    refine loadGain_alike potential ?_
    rwa [← List.forall₂_eq_eq_eq, List.forall₂_map_left_iff, List.forall₂_map_right_iff] at heq
  · rw [gainOf_of_not_mem ha, gainOf_of_not_mem ha]
    rfl

/-- A variable makes the same of values that are alike, in whatever order it lists its
candidates. -/
theorem gainOf_choiceGains_alike {ids ids' : List EntityId} (hids : ids.Nodup)
    (hperm : ids'.Perm ids) {u r r' : EntityId → α}
    (hr : ∀ s ∈ ids, Scalar.Alike (r s) (r' s))
    (hnumber : ∀ s ∈ ids, Scalar.IsNumber (u s + r s))
    (hnumber' : ∀ s ∈ ids, Scalar.IsNumber (u s + r' s)) (t : EntityId) :
    Scalar.Alike (gainOf ids (choiceGains (ids.map u) (ids.map r)) t)
      (gainOf ids' (choiceGains (ids'.map u) (ids'.map r')) t) := by
  by_cases ht : t ∈ ids
  · by_cases htwo : 2 ≤ ids.length
    · obtain ⟨best, htop, hgain⟩ := gainOf_choiceGains_isTop hids htwo hnumber ht
      obtain ⟨best', htop', hgain'⟩ := gainOf_choiceGains_isTop (hperm.nodup_iff.2 hids)
        (hperm.length_eq ▸ htwo) (fun s hs => hnumber' s (hperm.mem_iff.1 hs))
        (hperm.mem_iff.2 ht)
      rw [hgain, hgain']
      refine SignlessScalar.sub_alike rfl (htop.alike htop' ?_ ?_ ?_ ?_)
      · obtain ⟨s, hs, -, rfl⟩ := htop.1
        exact hnumber s hs
      · obtain ⟨s, hs, -, rfl⟩ := htop'.1
        exact hnumber' s (hperm.mem_iff.1 hs)
      · rintro _ ⟨s, hs, hne, rfl⟩
        exact ⟨_, ⟨s, hperm.mem_iff.2 hs, hne, rfl⟩, SignlessScalar.add_alike rfl (hr s hs)⟩
      · rintro _ ⟨s, hs, hne, rfl⟩
        rw [hperm.mem_iff] at hs
        exact ⟨_, ⟨s, hs, hne, rfl⟩, SignlessScalar.add_alike rfl (hr s hs)⟩
    · have honly : ids = [t] := by
        have hpos := List.length_pos_of_mem ht
        obtain ⟨s, rfl⟩ := List.length_eq_one_iff.1 (show ids.length = 1 by omega)
        rw [List.mem_singleton.1 ht]
      subst honly
      rw [List.perm_singleton.1 hperm, gainOf_choiceGains_only, gainOf_choiceGains_only]
      rfl
  · rw [gainOf_of_not_mem ht, gainOf_of_not_mem (mt hperm.mem_iff.1 ht)]
    rfl

end MaxSum

end Gains

end Dispatch
