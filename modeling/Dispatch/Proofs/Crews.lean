import Mathlib
import Dispatch.Proofs.Prices
/-!
# What a function says to each neighbour

A function sorts what its neighbours say and only tries prefixes of that list. Whatever it is worth
under each load, no crew is left out by this: the gain of a neighbour is the one that a search over
all crews of the others finds (`prefixes_stand_for_all_crews`).

For the loads of a target the gain has a closed form (`Quote`), which shows that a target tells an
agent nothing about what the agent itself has said, and that it invites nobody more because others
want it more (`load_gains_have_closed_form`).
-/

namespace Dispatch

namespace MaxSum

theorem getElem?_loadGains {α : Type} [Scalar α] [SortingScalar α] {incoming : List α}
    (potential : Nat → α) {i : Nat} {v : α} (hi : incoming[i]? = some v) :
    ∃ others : List α, others.Pairwise (fun x y => Scalar.totalLE y x = true) ∧
      (v :: others).Perm incoming ∧
      (loadGains incoming potential)[i]? = some (loadGain potential others) := by
  obtain ⟨hsorted, hperm⟩ := descending_others hi
  refine ⟨_, hsorted, hperm, ?_⟩
  rw [loadGains, List.getElem?_mapIdx, hi, Option.map_some]

/-! ## Every crew -/

/-- The highest worth over all crews of some neighbours, tried one by one. -/
def bestWorth (incoming : List Rat) (potential : Nat → Rat)
    (neighbours : Finset (Fin incoming.length)) : Rat :=
  neighbours.powerset.sup' ⟨∅, Finset.empty_mem_powerset neighbours⟩ fun crew =>
    potential crew.card + ∑ j ∈ crew, incoming[j]

theorem isGreatest_bestWorth (incoming : List Rat) (potential : Nat → Rat)
    (neighbours : Finset (Fin incoming.length)) :
    IsGreatest {w | ∃ crew ⊆ neighbours, w = potential crew.card + ∑ j ∈ crew, incoming[j]}
      (bestWorth incoming potential neighbours) := by
  constructor
  · obtain ⟨crew, hcrew, heq⟩ := Finset.exists_mem_eq_sup'
      ⟨∅, Finset.empty_mem_powerset neighbours⟩
      fun crew => potential crew.card + ∑ j ∈ crew, incoming[j]
    exact ⟨crew, Finset.mem_powerset.1 hcrew, heq⟩
  · rintro w ⟨crew, hcrew, rfl⟩
    exact Finset.le_sup' (fun crew => potential crew.card + ∑ j ∈ crew, incoming[j])
      (Finset.mem_powerset.2 hcrew)

/-- The best worth with a neighbour less the best without it, by trying every crew of the others. -/
def exhaustiveGain (incoming : List Rat) (potential : Nat → Rat) (i : Fin incoming.length) : Rat :=
  bestWorth incoming (fun k => potential (k + 1)) (Finset.univ.erase i) -
    bestWorth incoming potential (Finset.univ.erase i)

theorem getElem?_loadGains_exhaustive (incoming : List Rat) (potential : Nat → Rat)
    (i : Fin incoming.length) :
    (loadGains incoming potential)[i.val]? = some (exhaustiveGain incoming potential i) := by
  obtain ⟨others, hsorted, hperm, hgain⟩ :=
    getElem?_loadGains potential (List.getElem?_eq_getElem i.isLt)
  have hvalues : (List.finRange incoming.length).map (fun j => incoming[j]) = incoming := by
    simp
  obtain ⟨inside, outside, hinside, houtside, hdiff⟩ := loadGain_crews
    (List.nodup_finRange incoming.length) (q := fun j => incoming[j]) potential
    (List.mem_finRange i) hsorted (hperm.trans (.of_eq hvalues.symm))
  rw [List.toFinset_finRange] at hinside houtside
  have hin := hinside.unique
    (isGreatest_bestWorth incoming (fun k => potential (k + 1)) (Finset.univ.erase i))
  have hout := houtside.unique (isGreatest_bestWorth incoming potential (Finset.univ.erase i))
  rw [hgain, hdiff, hin, hout]
  rfl

/-- A function that tries the prefixes of one sorted list says what it would say if it tried every
crew of the other neighbours, whatever its potential. -/
theorem prefixes_stand_for_all_crews (incoming : List Rat) (potential : Nat → Rat) :
    loadGains incoming potential = List.ofFn (exhaustiveGain incoming potential) := by
  apply List.ext_getElem?
  intro i
  by_cases hi : i < incoming.length
  · rw [getElem?_loadGains_exhaustive incoming potential ⟨i, hi⟩]
    simp [hi]
  · rw [List.getElem?_eq_none (by rw [length_loadGains]; omega),
      List.getElem?_eq_none (by rw [List.length_ofFn]; omega)]

/-! ## Prefixes -/

/-- The best worth over the prefixes of a list. -/
def peak (c : Nat → Rat) : List Rat → Rat
  | [] => c 0
  | v :: rest => max (c 0) (v + peak (fun k => c (k + 1)) rest)

theorem isGreatest_peak (c : Nat → Rat) (l : List Rat) :
    IsGreatest {w | ∃ j ≤ l.length, w = c j + (l.take j).sum} (peak c l) := by
  induction l generalizing c with
  | nil =>
    refine ⟨⟨0, le_rfl, by simp [peak]⟩, ?_⟩
    rintro w ⟨j, hj, rfl⟩
    simp_all [peak]
  | cons v rest ih =>
    obtain ⟨⟨j, hj, hpeak⟩, hle⟩ := ih fun k => c (k + 1)
    constructor
    · rcases max_choice (c 0) (v + peak (fun k => c (k + 1)) rest) with hmax | hmax
      · exact ⟨0, by simp, by rw [peak, hmax]; simp⟩
      · refine ⟨j + 1, by simpa using hj, ?_⟩
        rw [peak, hmax, hpeak, List.take_succ_cons, List.sum_cons]
        ring
    · rintro w ⟨i, hi, rfl⟩
      rw [peak]
      cases i with
      | zero => simp
      | succ i =>
        refine le_trans ?_ (le_max_right _ _)
        have := hle ⟨i, by simpa using hi, rfl⟩
        rw [List.take_succ_cons, List.sum_cons]
        linarith

theorem loadGain_eq_peak (c : Nat → Rat) (l : List Rat) :
    loadGain c l = peak (fun k => c (k + 1)) l - peak c l := by
  have hbest := Best.over_foldl c l
  rw [← hbest.inside_greatest.unique (isGreatest_peak (fun k => c (k + 1)) l),
    ← hbest.outside_greatest.unique (isGreatest_peak c l)]
  rfl

theorem le_peak (c : Nat → Rat) (l : List Rat) : c 0 ≤ peak c l := by
  cases l <;> simp [peak]

theorem peak_congr {c c' : Nat → Rat} {l : List Rat} (h : ∀ k ≤ l.length, c k = c' k) :
    peak c l = peak c' l := by
  induction l generalizing c c' with
  | nil => exact h 0 le_rfl
  | cons v rest ih =>
    rw [peak, peak, h 0 (Nat.zero_le _)]
    congr 2
    exact ih fun k hk => h (k + 1) (by simpa using hk)

theorem peak_add (c : Nat → Rat) (x : Rat) (l : List Rat) :
    peak (fun k => c k + x) l = peak c l + x := by
  induction l generalizing c with
  | nil => rfl
  | cons v rest ih =>
    rw [peak, peak, ih fun k => c (k + 1), ← add_assoc, max_add_add_right]

/-! ## The loads of a target -/

/-- The penalty for every agent beyond the need. -/
def overload (penalty : Rat) (need k : Nat) : Rat := -penalty * ((k - need : Nat) : Rat)

section Overload
variable {penalty : Rat}

theorem overload_of_le {need k : Nat} (h : k ≤ need) : overload penalty need k = 0 := by
  simp [overload, Nat.sub_eq_zero_of_le h]

theorem overload_succ_succ (need k : Nat) :
    overload penalty (need + 1) (k + 1) = overload penalty need k := by
  simp [overload]

/-- Where nobody is needed, one more agent costs the penalty. -/
theorem overload_zero_succ (k : Nat) :
    overload penalty 0 (k + 1) = overload penalty 0 k + -penalty := by
  simp only [overload, Nat.sub_zero]
  push_cast
  ring

theorem loadGain_of_need_zero (l : List Rat) : loadGain (overload penalty 0) l = -penalty := by
  rw [loadGain_eq_peak, funext overload_zero_succ, peak_add]
  ring

/-- While there is room for all, one more costs nothing. -/
theorem loadGain_of_room {need : Nat} {l : List Rat} (h : l.length < need) :
    loadGain (overload penalty need) l = 0 := by
  rw [loadGain_eq_peak, sub_eq_zero]
  apply peak_congr
  intro k hk
  rw [overload_of_le (by omega), overload_of_le (by omega)]

/-- Who brings at most the penalty is not worth being one too many. -/
theorem peak_of_le_penalty {l : List Rat} (h : ∀ w ∈ l, w ≤ penalty) :
    peak (overload penalty 0) l = 0 := by
  induction l with
  | nil => exact overload_of_le le_rfl
  | cons w rest ih =>
    obtain ⟨hw, hrest⟩ := List.forall_mem_cons.1 h
    rw [peak, funext overload_zero_succ, peak_add, ih hrest, overload_of_le le_rfl]
    exact max_eq_left (by linarith)

/-- Of descending values the one that fills the target decides: whoever joins takes its place, or
has the target pay the penalty. -/
theorem loadGain_of_full (hpenalty : 0 ≤ penalty) {l : List Rat} (hl : l.Pairwise (· ≥ ·))
    {r : Nat} {v : Rat} (hv : l[r]? = some v) :
    loadGain (overload penalty (r + 1)) l = -min penalty (max 0 v) := by
  rw [loadGain_eq_peak, funext (overload_succ_succ r)]
  induction r generalizing l with
  | zero =>
    obtain ⟨rest, rfl⟩ : ∃ rest, l = v :: rest := by
      cases l with
      | nil => cases hv
      | cons w rest => exact ⟨rest, by rw [Option.some.inj hv]⟩
    obtain ⟨hle, -⟩ := List.pairwise_cons.1 hl
    have hnonneg := le_peak (overload penalty 0) rest
    rw [overload_of_le le_rfl] at hnonneg
    rw [peak, peak, funext overload_zero_succ, peak_add, funext (overload_succ_succ 0),
      overload_of_le le_rfl, overload_of_le (Nat.zero_le 1)]
    rcases le_total v penalty with hv | hv
    · -- nobody is worth the penalty, so only the first of the others would come
      rw [peak_of_le_penalty fun w hw => (hle w hw).trans hv]
      grind
    · grind
  | succ r ih =>
    obtain ⟨w, rest, rfl⟩ : ∃ w rest, l = w :: rest := by
      cases l with
      | nil => cases hv
      | cons w rest => exact ⟨w, rest, rfl⟩
    obtain ⟨hle, hrest⟩ := List.pairwise_cons.1 hl
    have hv : rest[r]? = some v := hv
    have hge : v ≤ w := hle v (List.mem_of_getElem? hv)
    have hdiff := ih hrest hv
    have hout := le_peak (overload penalty (r + 1)) rest
    have hin := le_peak (overload penalty r) rest
    rw [overload_of_le (Nat.zero_le _)] at hout hin
    rw [peak, peak, funext (overload_succ_succ r), funext (overload_succ_succ (r + 1)),
      overload_of_le (Nat.zero_le _), overload_of_le (Nat.zero_le _)]
    grind

end Overload

/-! ## The closed form -/

/-- The `k`-th largest of some values, where equal ones count apart. -/
structure IsLargest (k : Nat) (l : List Rat) (v : Rat) : Prop where
  mem : v ∈ l
  above : l.countP (fun w => v < w) < k
  reached : k ≤ l.countP (fun w => v ≤ w)

theorem IsLargest.perm {k : Nat} {l l' : List Rat} {v : Rat} (h : IsLargest k l v)
    (hperm : l.Perm l') : IsLargest k l' v where
  mem := hperm.mem_iff.1 h.mem
  above := hperm.countP_eq _ ▸ h.above
  reached := hperm.countP_eq _ ▸ h.reached

theorem isLargest_of_descending {l : List Rat} (hl : l.Pairwise (· ≥ ·)) {r : Nat} {v : Rat}
    (hv : l[r]? = some v) : IsLargest (r + 1) l v := by
  obtain ⟨hr, hget⟩ := List.getElem?_eq_some_iff.1 hv
  have hsplit : l = l.take r ++ v :: l.drop (r + 1) := by
    rw [← hget, ← List.drop_eq_getElem_cons hr, List.take_append_drop]
  have hlength : (l.take r).length = r := List.length_take_of_le hr.le
  rw [hsplit] at hl ⊢
  obtain ⟨-, hafter, hbefore⟩ := List.pairwise_append.1 hl
  obtain ⟨hafter, -⟩ := List.pairwise_cons.1 hafter
  constructor
  · simp
  · -- from the value on, nothing is above it
    have hnone : (v :: l.drop (r + 1)).countP (fun w => v < w) = 0 := by
      rw [List.countP_eq_zero]
      intro w hw
      rcases List.mem_cons.1 hw with rfl | hw
      · simp
      · simpa using hafter w hw
    have hbound := List.countP_le_length (p := fun w => decide (v < w)) (l := l.take r)
    rw [List.countP_append, hnone]
    omega
  · have hall : (l.take r).countP (fun w => v ≤ w) = r := by
      rw [List.countP_eq_length.2 fun w hw => ?_, hlength]
      simpa using hbefore w hw v List.mem_cons_self
    rw [List.countP_append, hall, List.countP_cons_of_pos (by simp)]
    omega

theorem countP_le_of_lt {l l' : List Rat} (h : List.Forall₂ (· ≤ ·) l l') {x y : Rat}
    (hxy : y < x) : l.countP (fun w => x ≤ w) ≤ l'.countP (fun w => y < w) := by
  induction h with
  | nil => simp
  | @cons v w rest rest' hvw _ ih =>
    rw [List.countP_cons, List.countP_cons]
    have hcount : (if decide (x ≤ v) = true then 1 else 0) ≤
        if decide (y < w) = true then 1 else 0 := by
      by_cases hxv : x ≤ v
      · simp [hxv, hxy.trans_le (hxv.trans hvw)]
      · simp [hxv]
    omega

/-- Where values rise, so does the `k`-th largest. -/
theorem IsLargest.mono {k : Nat} {l l' : List Rat} {v v' : Rat} (h : IsLargest k l v)
    (h' : IsLargest k l' v') (hle : List.Forall₂ (· ≤ ·) l l') : v ≤ v' := by
  by_contra hlt
  have hcount := countP_le_of_lt hle (not_le.1 hlt)
  have := h.reached
  have := h'.above
  omega

theorem IsLargest.le_length {k : Nat} {l : List Rat} {v : Rat} (h : IsLargest k l v) :
    k ≤ l.length :=
  h.reached.trans List.countP_le_length

/-- What a target of some need says to a neighbour when the others say the given values. -/
inductive Quote (penalty : Rat) : (need : Nat) → (others : List Rat) → Rat → Prop
  /-- Where nobody is needed, the neighbour is one too many. -/
  | spare (others : List Rat) : Quote penalty 0 others (-penalty)
  /-- If the others are too few to fill the target, there is room. -/
  | room {need : Nat} {others : List Rat} (h : others.length < need) : Quote penalty need others 0
  /-- Else the neighbour takes the place of the one who fills the target, unless that one would
  not come or is worth more than the penalty. -/
  | full {need : Nat} {others : List Rat} {v : Rat} (hneed : need ≠ 0)
      (h : IsLargest need others v) : Quote penalty need others (-min penalty (max 0 v))

/-- A target never says more to a neighbour because the others say more. -/
theorem Quote.antitone {penalty : Rat} {need : Nat} {others others' : List Rat} {gain gain' : Rat}
    (h : Quote penalty need others gain) (h' : Quote penalty need others' gain')
    (hle : List.Forall₂ (· ≤ ·) others others') : gain' ≤ gain := by
  have hlength := hle.length_eq
  cases h with
  | spare =>
    cases h' with
    | spare => exact le_rfl
    | room hroom => omega
    | full hneed => exact absurd rfl hneed
  | room hroom =>
    cases h' with
    | spare => omega
    | room => exact le_rfl
    | full _ hlargest =>
      have := hlargest.le_length
      omega
  | full hneed hlargest =>
    cases h' with
    | spare => exact absurd rfl hneed
    | room hroom =>
      have := hlargest.le_length
      omega
    | full _ hlargest' =>
      exact neg_le_neg (min_le_min_left _ (max_le_max_left _ (hlargest.mono hlargest' hle)))

theorem quote_of_loadGains (m : UtilityMatrix Rat) (t : EntityId) {incoming : List Rat} {i : Nat}
    {gain : Rat} (h : (loadGains incoming (m.congestion t))[i]? = some gain) :
    Quote m.penalty (m.need t) (incoming.eraseIdx i) gain := by
  have hi : i < incoming.length := by
    rw [← length_loadGains incoming (m.congestion t)]
    exact (List.getElem?_eq_some_iff.1 h).1
  obtain ⟨others, hsorted, hperm, hgain⟩ :=
    getElem?_loadGains (m.congestion t) (List.getElem?_eq_getElem hi)
  obtain rfl : loadGain (overload m.penalty (m.need t)) others = gain :=
    Option.some.inj (hgain.symm.trans h)
  have hothers : others.Perm (incoming.eraseIdx i) :=
    (hperm.trans (List.getElem_cons_eraseIdx_perm hi).symm).cons_inv
  have hdescending : others.Pairwise (· ≥ ·) := hsorted.imp fun h => of_decide_eq_true h
  rcases hneed : m.need t with _ | r
  · rw [loadGain_of_need_zero]
    exact .spare _
  · rcases Nat.lt_or_ge others.length (r + 1) with hroom | hfull
    · rw [loadGain_of_room hroom]
      exact .room (hothers.length_eq ▸ hroom)
    · have hv := List.getElem?_eq_getElem hfull
      rw [loadGain_of_full m.zero_le_penalty hdescending hv]
      exact .full r.succ_ne_zero ((isLargest_of_descending hdescending hv).perm hothers)

/-- What a target says to each of its neighbours follows from its need, the penalty and one of the
values of the others. It does not depend on what the neighbour itself has said, and never rises
when others say more. -/
theorem load_gains_have_closed_form (m : UtilityMatrix Rat) (t : EntityId) (incoming : List Rat) :
    (loadGains incoming (m.congestion t)).length = incoming.length ∧
    ∀ i gain, (loadGains incoming (m.congestion t))[i]? = some gain →
      Quote m.penalty (m.need t) (incoming.eraseIdx i) gain ∧
      (∀ own, (loadGains (incoming.set i own) (m.congestion t))[i]? = some gain) ∧
      ∀ incoming' gain', List.Forall₂ (· ≤ ·) (incoming.eraseIdx i) (incoming'.eraseIdx i) →
        (loadGains incoming' (m.congestion t))[i]? = some gain' → gain' ≤ gain := by
  refine ⟨length_loadGains _ _, fun i gain hgain => ?_⟩
  have hquote := quote_of_loadGains m t hgain
  refine ⟨hquote, fun own => ?_, fun incoming' gain' hle hgain' =>
    hquote.antitone (quote_of_loadGains m t hgain') hle⟩
  have hi : i < (loadGains (incoming.set i own) (m.congestion t)).length := by
    rw [length_loadGains, List.length_set, ← length_loadGains incoming (m.congestion t)]
    exact (List.getElem?_eq_some_iff.1 hgain).1
  have hset := List.getElem?_eq_getElem hi
  have hquote' := quote_of_loadGains m t hset
  rw [List.eraseIdx_set_eq] at hquote'
  rw [hset, le_antisymm (hquote.antitone hquote' (List.forall₂_refl _))
    (hquote'.antitone hquote (List.forall₂_refl _))]

end MaxSum

end Dispatch
