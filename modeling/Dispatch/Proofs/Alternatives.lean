import Mathlib
import Dispatch.Proofs.Zeros
/-!
# What a variable compares each candidate with

A variable goes once over what its candidates promise and keeps the two highest values. This finds
for every candidate what comparing it with each of the others finds (`pairwiseGains`). In doubles
the promises may be beyond all finite values, and only the sign of a zero can come out differently
(`one_pass_compares_with_all`).
-/

namespace Dispatch

/-! ## Comparing one by one -/

section Pairwise
variable {α : Type} [Scalar α]

/-- What each candidate promises: its utility, and what its function last said. -/
def promises (utilities incoming : List α) : List α := List.zipWith (· + ·) utilities incoming

/-- The highest of some values. -/
def highest? : List α → Option α
  | [] => none
  | v :: rest => some (rest.foldl Scalar.max v)

/-- The utility of each candidate less the highest promise of the others, found by going over all
of them. An only candidate is compared with nothing. -/
def pairwiseGains (utilities incoming : List α) : List α :=
  utilities.mapIdx fun i u =>
    match highest? ((promises utilities incoming).eraseIdx i) with
    | some best => u - best
    | none => u

theorem length_promises {utilities incoming : List α}
    (h : incoming.length = utilities.length) :
    (promises utilities incoming).length = utilities.length := by
  simp [promises, h]

theorem mem_promises {utilities incoming : List α} {w : α} (h : w ∈ promises utilities incoming) :
    ∃ u ∈ utilities, ∃ r ∈ incoming, w = u + r := by
  unfold promises at h
  rw [← List.map_uncurry_zip_eq_zipWith] at h
  obtain ⟨⟨u, r⟩, hin, rfl⟩ := List.mem_map.1 h
  obtain ⟨hu, hr⟩ := List.of_mem_zip hin
  exact ⟨u, hu, r, hr, rfl⟩

omit [Scalar α] in
theorem Lead.others_eq (l : List α) (i : Nat) : Lead.others l i = {w | w ∈ l.eraseIdx i} := by
  ext w
  simp only [Lead.others, Set.mem_ofPred_eq, List.mem_eraseIdx_iff_getElem?]

theorem getElem?_choiceGains {utilities incoming : List α} {i : Nat} {u : α}
    (hu : utilities[i]? = some u) :
    (choiceGains utilities incoming)[i]? =
      some (u - Lead.alternative (Lead.scan none 0 (promises utilities incoming)) i) := by
  simp [choiceGains, promises, hu]

section Ordered
variable [OrderedScalar α]

theorem isTop_foldl_max {v : α} {rest : List α} (h : ∀ w ∈ v :: rest, Scalar.IsNumber w) :
    Lead.IsTop {w | w ∈ v :: rest} (rest.foldl Scalar.max v) := by
  induction rest using List.reverseRecOn with
  | nil =>
    refine ⟨by simp, ?_⟩
    simpa using OrderedScalar.lt_irrefl v
  | append_singleton rest x ih =>
    have hrest : ∀ w ∈ v :: rest, Scalar.IsNumber w := by
      intro w hw
      apply h
      simp only [List.mem_cons, List.mem_append] at hw ⊢
      tauto
    have htop := ih hrest
    have hset : {w | w ∈ v :: (rest ++ [x])} = insert x {w | w ∈ v :: rest} := by
      ext w
      simp only [List.mem_cons, List.mem_append, List.not_mem_nil, or_false, Set.mem_insert_iff,
        Set.mem_ofPred_eq]
      tauto
    rw [List.foldl_append, hset]
    exact htop.insert (hrest _ htop.1) (h x (by simp))

/-- Beside other values the highest of them is found, and nothing of them is above it. -/
theorem exists_highest {l : List α} (htwo : 2 ≤ l.length) (hl : ∀ w ∈ l, Scalar.IsNumber w)
    {i : Nat} (hi : i < l.length) :
    ∃ best, highest? (l.eraseIdx i) = some best ∧ Lead.IsTop (Lead.others l i) best := by
  rw [Lead.others_eq]
  cases hrest : l.eraseIdx i with
  | nil =>
    have hlength := congrArg List.length hrest
    rw [List.length_eraseIdx_of_lt hi, List.length_nil] at hlength
    omega
  | cons v rest =>
    refine ⟨_, rfl, isTop_foldl_max fun w hw => hl w ?_⟩
    rw [← hrest] at hw
    exact List.mem_of_mem_eraseIdx hw

end Ordered

/-- The two highest promises are enough to compare every candidate with all others. -/
theorem choiceGains_alike_pairwiseGains [SignlessScalar α] {utilities incoming : List α}
    (hlength : incoming.length = utilities.length) (htwo : 2 ≤ utilities.length)
    (hnumber : ∀ w ∈ promises utilities incoming, Scalar.IsNumber w) :
    List.Forall₂ Scalar.Alike (choiceGains utilities incoming)
      (pairwiseGains utilities incoming) := by
  have hpromises := length_promises hlength
  rw [List.forall₂_iff_get]
  refine ⟨by simp [choiceGains, pairwiseGains], fun i hgain hpair => ?_⟩
  have hi : i < utilities.length := by simpa [choiceGains] using hgain
  have hu := List.getElem?_eq_getElem hi
  obtain ⟨best, hbest, htop⟩ := exists_highest (hpromises ▸ htwo) hnumber (hpromises ▸ hi)
  have htop' := Lead.isTop_alternative (hpromises ▸ htwo) hnumber i
  have hone : (choiceGains utilities incoming).get ⟨i, hgain⟩ =
      utilities[i] - Lead.alternative (Lead.scan none 0 (promises utilities incoming)) i := by
    apply Option.some.inj
    rw [List.get_eq_getElem, ← List.getElem?_eq_getElem hgain, getElem?_choiceGains hu]
  have hall : (pairwiseGains utilities incoming).get ⟨i, hpair⟩ = utilities[i] - best := by
    simp [pairwiseGains, hbest]
  have hothers : ∀ w ∈ Lead.others (promises utilities incoming) i, Scalar.IsNumber w := by
    rintro w ⟨j, -, hw⟩
    exact hnumber w (List.mem_of_getElem? hw)
  rw [hone, hall]
  exact SignlessScalar.sub_alike rfl (htop'.alike htop (hothers _ htop'.1) (hothers _ htop.1)
    (fun w hw => ⟨w, hw, rfl⟩) fun w hw => ⟨w, hw, rfl⟩)

end Pairwise

/-! ## Doubles -/

namespace Double
open Float.Model

theorem sub_zero (x : Float) : x - Scalar.zero = x := by
  apply unpack_inj
  have hsub : UnpackedFloat.sub .binary64 x.toModel.unpack (.zero .positive) =
      x.toModel.unpack := by
    rcases x.toModel.unpack with _ | _ | (_ | _) | _ <;> rfl
  show (Float.Model.pack (.sub .binary64 x.toModel.unpack (.zero .positive))).unpack = _
  rw [hsub]
  exact congrArg (UnpackedFloat.unpack .binary64)
    (UnpackedFloat.pack_unpack_of_valid x.toModel.valid)

end Double

/-- The gains found in one pass over two lists of finite values are those found by comparing every
candidate with all others, the sign of zeros aside: its utility less the highest of the other
promises, its utility alone if there are none. -/
theorem one_pass_compares_with_all {utilities incoming : List Float}
    (hlength : incoming.length = utilities.length) (hutilities : ∀ u ∈ utilities, u.isFinite)
    (hincoming : ∀ r ∈ incoming, r.isFinite) :
    List.Forall₂ Scalar.Alike (choiceGains utilities incoming) (pairwiseGains utilities incoming) ∧
    (utilities.length < 2 → choiceGains utilities incoming = utilities) ∧
    (2 ≤ utilities.length → ∀ i < utilities.length,
      ∃ best, highest? ((promises utilities incoming).eraseIdx i) = some best ∧
        Lead.IsTop (Lead.others (promises utilities incoming) i) best) := by
  have hnumber : ∀ w ∈ promises utilities incoming, Scalar.IsNumber w := by
    intro w hw
    obtain ⟨u, hu, r, hr, rfl⟩ := mem_promises hw
    exact OrderedScalar.isNumber_add (hutilities u hu) (hincoming r hr)
  have hfew : utilities.length < 2 → choiceGains utilities incoming = utilities ∧
      pairwiseGains utilities incoming = utilities := by
    intro hlt
    rcases utilities with _ | ⟨u, _ | ⟨u', rest⟩⟩
    · exact ⟨rfl, rfl⟩
    · obtain ⟨r, rfl⟩ := List.length_eq_one_iff.1 hlength
      refine ⟨?_, by simp [pairwiseGains, promises, highest?]⟩
      simpa [choiceGains, Lead.scan, Lead.update, Lead.alternative] using Double.sub_zero u
    · simp at hlt
  have hpromises := length_promises hlength
  refine ⟨?_, fun hlt => (hfew hlt).1, fun htwo i hi =>
    exists_highest (by omega) hnumber (by omega)⟩
  rcases Nat.lt_or_ge utilities.length 2 with hlt | hge
  · obtain ⟨hone, hall⟩ := hfew hlt
    rw [hone, hall, List.forall₂_same]
    exact fun u _ => rfl
  · exact choiceGains_alike_pairwiseGains hlength hge hnumber

/-- Two promises beyond all doubles, a zero of either sign and a repeated value. -/
theorem overflow_compares_with_all :
    let utilities : List Float := [1e308, 1e308, -0.0, 3, 3]
    let incoming : List Float := [1e308, 1e308, 0.0, 2, 2]
    incoming.length = utilities.length ∧ (∀ u ∈ utilities, u.isFinite) ∧
    (∀ r ∈ incoming, r.isFinite) ∧
    List.Forall₂ Scalar.Alike (choiceGains utilities incoming) (pairwiseGains utilities incoming) ∧
    (utilities.length < 2 → choiceGains utilities incoming = utilities) ∧
    (2 ≤ utilities.length → ∀ i < utilities.length,
      ∃ best, highest? ((promises utilities incoming).eraseIdx i) = some best ∧
        Lead.IsTop (Lead.others (promises utilities incoming) i) best) := by
  intro utilities incoming
  have hlength : incoming.length = utilities.length := by simp [incoming, utilities]
  have hutilities : ∀ u ∈ utilities, u.isFinite := by decide +kernel
  have hincoming : ∀ r ∈ incoming, r.isFinite := by decide +kernel
  exact ⟨hlength, hutilities, hincoming,
    one_pass_compares_with_all hlength hutilities hincoming⟩

end Dispatch
