import Mathlib
import Dispatch.Proofs.Graph
import Dispatch.Proofs.ScalarOrder
/-!
# Rankings

A ranking lists identifiers by descending score, and those of one score as they were listed before.
Which of two comes first (`UtilityMatrix.Outranks`) therefore does not depend on the others, so
there is only one way to pick the best few and put them in order (`UtilityMatrix.Shortlist`).
`UtilityMatrix.best_few_are_ranked` says that the targets an agent ranks highest, and the agents
that rank highest at a target, are picked so, and that picking more of them keeps the first ones.
-/

namespace Dispatch

/-! ## Positions in a list -/

section Positions
variable {β : Type} [DecidableEq β]

theorem pairwise_idxOf {l : List β} (hl : l.Nodup) :
    l.Pairwise fun x y => l.idxOf x < l.idxOf y := by
  rw [List.pairwise_iff_getElem]
  intro i j hi hj hij
  rwa [hl.idxOf_getElem i hi, hl.idxOf_getElem j hj]

theorem mem_of_idxOf_lt {before after : List β} {x y : β}
    (h : (before ++ y :: after).idxOf x < (before ++ y :: after).idxOf y) : x ∈ before := by
  by_contra hx
  rw [List.idxOf_append_of_notMem hx] at h
  by_cases hy : y ∈ before
  · have hlt := List.idxOf_lt_length_iff.2 hy
    rw [List.idxOf_append_of_mem hy] at h
    omega
  · rw [List.idxOf_append_of_notMem hy, List.idxOf_cons_self] at h
    omega

end Positions

theorem SortingScalar.totalLE_refl {α : Type} [Scalar α] [SortingScalar α] (x : α) :
    Scalar.totalLE x x = true :=
  (totalLE_total x x).elim id id

namespace UtilityMatrix
variable {α : Type} [Scalar α]

/-- `s` comes before `t` in a ranking of `ids`: it scores higher, or the same and is listed
earlier. -/
def Outranks (score : EntityId → α) (ids : List EntityId) (s t : EntityId) : Prop :=
  Scalar.totalLE (score s) (score t) = false ∨ score s = score t ∧ ids.idxOf s < ids.idxOf t

/-- The best `n` of `ids`, or all if there are fewer, the best one first. -/
structure Shortlist (score : EntityId → α) (ids : List EntityId) (n : Nat)
    (top : List EntityId) : Prop where
  length_eq : top.length = min n ids.length
  nodup : top.Nodup
  subset : top ⊆ ids
  descending : top.Pairwise (Outranks score ids)
  /-- Whoever is left out comes after all that are in. -/
  left_out : ∀ s ∈ top, ∀ t ∈ ids, t ∉ top → Outranks score ids s t

/-! ## How a ranking is ordered -/

/-- A ranking sorts the identifiers by what they score. -/
theorem ranked_eq_sortBy (score : EntityId → α) (ids : List EntityId) :
    ranked score ids = sortBy (fun s t => Scalar.totalLE (score t) (score s)) ids := by
  have hsort : sortBy (fun a b : EntityId × α => Scalar.totalLE b.2 a.2)
      (ids.map fun id => (id, score id)) =
        (sortBy (fun s t => Scalar.totalLE (score t) (score s)) ids).map fun id => (id, score id) :=
    sortBy_map (fun _ _ => rfl) ids
  rw [ranked, hsort, List.map_map]
  exact List.map_id' _

variable [SortingScalar α] {score : EntityId → α} {ids : List EntityId}

/-- Of two that score the same, the one listed earlier comes first. -/
theorem Outranks.earlier {s t : EntityId} (h : Outranks score ids s t) (heq : score s = score t) :
    ids.idxOf s < ids.idxOf t := by
  rcases h with hfalse | ⟨-, hlt⟩
  · rw [heq, SortingScalar.totalLE_refl] at hfalse
    cases hfalse
  · exact hlt

theorem Outranks.asymm {s t : EntityId} (h : Outranks score ids s t) :
    ¬ Outranks score ids t s := by
  intro hback
  rcases h with hst | ⟨heq, hlt⟩
  · rcases hback with hts | ⟨heq, -⟩
    · rcases SortingScalar.totalLE_total (score s) (score t) with hle | hle
      · cases hst.symm.trans hle
      · cases hts.symm.trans hle
    · rw [heq, SortingScalar.totalLE_refl] at hst
      cases hst
  · have hlt' := hback.earlier heq.symm
    omega

theorem pairwise_ranked (score : EntityId → α) (hids : ids.Nodup) :
    (ranked score ids).Pairwise (Outranks score ids) := by
  rw [ranked_eq_sortBy]
  have htrans : ∀ s t u, Scalar.totalLE (score t) (score s) = true →
      Scalar.totalLE (score u) (score t) = true → Scalar.totalLE (score u) (score s) = true :=
    fun _ _ _ hst htu => SortingScalar.totalLE_trans htu hst
  have htotal : ∀ s t, Scalar.totalLE (score t) (score s) = true ∨
      Scalar.totalLE (score s) (score t) = true := fun s t =>
    SortingScalar.totalLE_total (score t) (score s)
  refine (pairwise_sortBy_stable htrans htotal (pairwise_idxOf hids)).imp fun {s t} hst => ?_
  obtain ⟨hle, hties⟩ := hst
  cases hback : Scalar.totalLE (score s) (score t) with
  | false => exact .inl hback
  | true => exact .inr ⟨SortingScalar.totalLE_antisymm hback hle, hties hback⟩

/-! ## The best few -/

theorem shortlist_take_ranked (score : EntityId → α) (hids : ids.Nodup) (n : Nat) :
    Shortlist score ids n ((ranked score ids).take n) := by
  have hperm := ranked_perm score ids
  have hranked := pairwise_ranked score hids
  refine ⟨?_, ?_, ?_, hranked.sublist (List.take_sublist _ _), fun s hs t ht hout => ?_⟩
  · rw [List.length_take, hperm.length_eq]
  · exact (hperm.nodup_iff.2 hids).sublist (List.take_sublist _ _)
  · exact fun s hs => hperm.mem_iff.1 (List.mem_of_mem_take hs)
  · rw [← List.take_append_drop n (ranked score ids), List.pairwise_append] at hranked
    refine hranked.2.2 s hs t ?_
    have hin := hperm.mem_iff.2 ht
    rw [← List.take_append_drop n (ranked score ids), List.mem_append] at hin
    exact hin.resolve_left hout

/-- There is one way to pick the best few and put them in order. -/
theorem Shortlist.unique {n : Nat} {top top' : List EntityId} (h : Shortlist score ids n top)
    (h' : Shortlist score ids n top') : top = top' := by
  have hlength : top.length = top'.length := h.length_eq.trans h'.length_eq.symm
  have hsub : top ⊆ top' := by
    intro s hs
    by_contra hout
    -- then the other list has one that is left out here, and each of the two outranks the other
    obtain ⟨t, ht, hout'⟩ : ∃ t ∈ top', t ∉ top := by
      by_contra hnone
      push Not at hnone
      have hperm := (List.subperm_of_subset h'.nodup hnone).perm_of_length_le hlength.le
      exact hout (hperm.mem_iff.2 hs)
    exact (h.left_out s hs t (h'.subset ht) hout').asymm (h'.left_out t ht s (h.subset hs) hout)
  have hperm := (List.subperm_of_subset h.nodup hsub).perm_of_length_le hlength.ge
  exact hperm.eq_of_pairwise (fun s t _ _ hst hts => absurd hts hst.asymm) h.descending
    h'.descending

theorem shortlist_iff (score : EntityId → α) (hids : ids.Nodup) (n : Nat) (top : List EntityId) :
    Shortlist score ids n top ↔ top = (ranked score ids).take n := by
  have hranked := shortlist_take_ranked score hids n
  constructor
  · intro h
    exact h.unique hranked
  · rintro rfl
    exact hranked

omit [SortingScalar α] in
/-- Where there is anything to rank, one comes first and outranks all others. -/
theorem Shortlist.exists_first {top : List EntityId} (h : Shortlist score ids 1 top)
    (hne : ids ≠ []) :
    ∃ t ∈ ids, top = [t] ∧ ∀ s ∈ ids, s ≠ t → Outranks score ids t s := by
  have hpos := List.length_pos_of_ne_nil hne
  have hlength : top.length = 1 := h.length_eq.trans (Nat.min_eq_left hpos)
  obtain ⟨t, rfl⟩ := List.length_eq_one_iff.1 hlength
  refine ⟨t, h.subset (List.mem_singleton_self t), rfl, fun s hs hst => ?_⟩
  exact h.left_out t (List.mem_singleton_self t) s hs (mt List.mem_singleton.1 hst)

/-- For every agent and every `n`, the targets of highest utility are the one shortlist of `n`
targets: all of them or `n`, none twice, by descending utility and in the order of the problem where
utilities are the same, with what is left out ranked below. A shorter list begins a longer one. The
same holds of the agents for every target. -/
theorem best_few_are_ranked (m : UtilityMatrix α) :
    (∀ a n, (∀ top, Shortlist (m.utility a) m.targets n top ↔ top = m.topTargets a n) ∧
      ∀ k, n ≤ k → m.topTargets a n <+: m.topTargets a k) ∧
    ∀ t n, (∀ top, Shortlist (m.utility · t) m.agents n top ↔ top = m.topAgents t n) ∧
      ∀ k, n ≤ k → m.topAgents t n <+: m.topAgents t k := by
  constructor
  · intro a n
    exact ⟨shortlist_iff _ m.targets_nodup n, fun k hle => List.take_prefix_take_left hle⟩
  · intro t n
    exact ⟨shortlist_iff _ m.agents_nodup n, fun k hle => List.take_prefix_take_left hle⟩

/-- Two agents and four targets, with ties and zeros of either sign. -/
def level : UtilityMatrix Float where
  agents := [.ofNat 8, .ofNat 9]
  targets := [.ofNat 10, .ofNat 20, .ofNat 30, .ofNat 40]
  locations := .empty
  values := #[-0.0, 3, 0, 3, 3, 3, -1, 0]
  needs := #[1, 1, 1, 1]
  penalty := 7
  agents_nodup := by decide
  targets_nodup := by decide
  values_size := rfl
  needs_size := rfl
  values_finite := by decide +kernel
  penalty_finite := by decide +kernel
  penalty_nonneg := by decide +kernel

/-- The first agent ranks the two best targets as they are listed, and a zero without a sign above
the one with a sign that is listed before it. -/
theorem level_best_few :
    2 ≤ 3 ∧ level.topTargets (.ofNat 8) 2 <+: level.topTargets (.ofNat 8) 3 ∧
      Shortlist (level.utility (.ofNat 8)) level.targets 3 [.ofNat 20, .ofNat 40, .ofNat 30] ∧
      Shortlist (level.utility · (.ofNat 20)) level.agents 2 [.ofNat 8, .ofNat 9] := by
  obtain ⟨htargets, hagents⟩ := best_few_are_ranked level
  have hle : 2 ≤ 3 := by decide
  refine ⟨hle, (htargets (.ofNat 8) 2).2 3 hle, ((htargets (.ofNat 8) 3).1 _).2 ?_,
    ((hagents (.ofNat 20) 2).1 _).2 ?_⟩
  · decide +kernel
  · decide +kernel

end UtilityMatrix

end Dispatch
