import Mathlib
import Dispatch.Proofs.BestResponse
/-!
# The potential of an assignment

A move of a repair sweep can lower the total utility, but never the potential: what the agents
earn, plus what the load of every target costs when its agents arrive one after the other. An agent
that changes its target changes the potential by exactly the difference of the two scores it
compares (`potential_assign`). So sweeps over a full assignment climb, and since there are finitely
many assignments, sweeping again and again comes to rest.
-/

namespace Dispatch

namespace UtilityMatrix

/-- What the agents earn, and what each target's load costs when its agents arrive one after the
other. A target without agents costs nothing. -/
def potential (m : UtilityMatrix Rat) (x : Assignment) : Rat :=
  (x.toList.map fun p => m.utility p.1 p.2).sum +
    ∑ t ∈ (x.toList.map Prod.snd).toFinset, ∑ k ∈ Finset.Icc 1 (x.count t), m.congestion t k

variable (m : UtilityMatrix Rat)

/-- Further targets may be listed. -/
theorem potential_eq {x : Assignment} {targets : Finset EntityId}
    (h : (x.toList.map Prod.snd).toFinset ⊆ targets) :
    m.potential x = (x.toList.map fun p => m.utility p.1 p.2).sum +
      ∑ t ∈ targets, ∑ k ∈ Finset.Icc 1 (x.count t), m.congestion t k := by
  rw [potential, Finset.sum_subset h]
  intro t _ ht
  have hcount : x.count t = 0 := by
    rw [x.count_eq]
    exact List.count_eq_zero_of_not_mem fun hin => ht (List.mem_toFinset.2 hin)
  rw [hcount]
  rfl

/-- An agent that arrives at a target raises the potential by what the target is worth to it. -/
theorem potential_assign_of_none {x : Assignment} {a : EntityId} (t : EntityId)
    (h : x.get? a = none) : m.potential (x.assign a t) = m.potential x + m.prospect x a t := by
  let targets := insert t (x.toList.map Prod.snd).toFinset
  have hperm := Assignment.toList_assign t h
  have hsub : ((x.assign a t).toList.map Prod.snd).toFinset ⊆ targets := by
    intro s hs
    rw [List.mem_toFinset, (hperm.map _).mem_iff] at hs
    simpa [targets] using hs
  have hearn : ((x.assign a t).toList.map fun p => m.utility p.1 p.2).sum =
      m.utility a t + (x.toList.map fun p => m.utility p.1 p.2).sum := by
    rw [(hperm.map _).sum_eq, List.map_cons, List.sum_cons]
  have hload : ∀ s, ∑ k ∈ Finset.Icc 1 ((x.assign a t).count s), m.congestion s k =
      ∑ k ∈ Finset.Icc 1 (x.count s), m.congestion s k +
        if t = s then m.congestion t (x.othersOn a t + 1) else 0 := by
    intro s
    rw [Assignment.count_assign t s h]
    split
    · rename_i hts
      rw [← hts, Finset.sum_Icc_succ_top (by omega), Assignment.othersOn,
        Assignment.unassign_of_get? h]
    · simp
  rw [m.potential_eq hsub, m.potential_eq (Finset.subset_insert t _), hearn,
    Finset.sum_congr rfl fun s _ => hload s, Finset.sum_add_distrib, Finset.sum_ite_eq,
    if_pos (Finset.mem_insert_self t _), prospect]
  ring

/-- An agent that changes its target changes the potential by the difference of what the two
targets are worth to it. -/
theorem potential_assign {x : Assignment} {a old : EntityId} (new : EntityId)
    (h : x.get? a = some old) :
    m.potential (x.assign a new) = m.potential x + (m.prospect x a new - m.prospect x a old) := by
  have hnone : (x.unassign a).get? a = none := by rw [Assignment.get?_unassign, if_pos rfl]
  have hprospect : ∀ t, m.prospect (x.unassign a) a t = m.prospect x a t := by
    intro t
    rw [prospect, prospect, Assignment.othersOn, Assignment.unassign_of_get? hnone,
      Assignment.othersOn]
  have hold : m.potential x = m.potential (x.unassign a) + m.prospect x a old := by
    conv_lhs => rw [← Assignment.assign_of_get? h, ← Assignment.unassign_assign]
    rw [m.potential_assign_of_none old hnone, hprospect]
  have hnew : m.potential (x.assign a new) =
      m.potential (x.unassign a) + m.prospect x a new := by
    rw [← Assignment.unassign_assign, m.potential_assign_of_none new hnone, hprospect]
  rw [hold, hnew]
  ring

/-- Every agent of the matrix has a target. -/
def Covered (x : Assignment) : Prop := ∀ a ∈ m.agents, (x.get? a).isSome

end UtilityMatrix

/-! ## One sweep -/

namespace Sweep
variable (m : UtilityMatrix Rat)

/-- An agent with a target keeps it, or raises the potential by the difference of the scores it
compared. -/
theorem step_of_assigned {s : Sweep Rat} (h : s.Counted) {a old : EntityId}
    (ha : s.assignment.get? a = some old) :
    s.step m a = s ∨ ∃ new p q, new ≠ old ∧
      (s.step m a).assignment = s.assignment.assign a new ∧
      (s.step m a).switches = s.switches ++ [⟨a, some old, some p, some new, some q⟩] ∧
      p < q ∧
      m.potential (s.step m a).assignment = m.potential s.assignment + (q - p) := by
  have hstanding : m.standing s.assignment a = some (m.prospect s.assignment a old) := by
    rw [UtilityMatrix.standing, ha, Option.map_some]
  rcases step_cases m h a with ⟨hstay, -⟩ | ⟨new, -, hexceeds, hne, hassign, hswitch, -⟩
  · exact .inl hstay
  · rw [hstanding] at hexceeds
    rw [moveTo, hstanding, ha] at hswitch
    refine .inr ⟨new, _, _, fun e => hne (e ▸ ha), hassign, hswitch,
      of_decide_eq_true hexceeds, ?_⟩
    rw [hassign, m.potential_assign new ha]

/-- No agent loses its target. -/
theorem isSome_step {s : Sweep Rat} (h : s.Counted) (a : EntityId) {b : EntityId}
    (hb : (s.assignment.get? b).isSome) : ((s.step m a).assignment.get? b).isSome := by
  rcases step_cases m h a with ⟨hstay, -⟩ | ⟨t, -, -, -, hassign, -⟩
  · rwa [hstay]
  · rw [hassign, Assignment.get?_assign]
    split
    · rfl
    · exact hb

/-- If there are targets, an agent has one after its step. -/
theorem isSome_step_self {s : Sweep Rat} (h : s.Counted) (a : EntityId) (ht : m.targets ≠ []) :
    ((s.step m a).assignment.get? a).isSome := by
  rcases step_cases m h a with ⟨hstay, hcontent⟩ | ⟨t, -, -, -, hassign, -⟩
  · obtain ⟨t, htargets⟩ := List.exists_mem_of_ne_nil _ ht
    have hnot := hcontent t htargets
    rw [hstay]
    cases hx : s.assignment.get? a with
    | some _ => rfl
    | none =>
      -- any target is better than none
      rw [UtilityMatrix.standing, hx] at hnot
      cases hnot
  · rw [hassign, Assignment.get?_assign, if_pos rfl]
    rfl

/-- The steps of agents that have a target climb, and stay only where they change nothing. -/
theorem potential_foldl {s : Sweep Rat} (h : s.Counted) {agents : List EntityId}
    (hall : ∀ a ∈ agents, (s.assignment.get? a).isSome) :
    m.potential s.assignment ≤ m.potential (agents.foldl (step m) s).assignment ∧
      (m.potential (agents.foldl (step m) s).assignment = m.potential s.assignment →
        agents.foldl (step m) s = s) := by
  induction agents generalizing s with
  | nil => exact ⟨le_refl _, fun _ => rfl⟩
  | cons a rest ih =>
    obtain ⟨ha, hrest⟩ := List.forall_mem_cons.1 hall
    obtain ⟨old, hold⟩ := Option.isSome_iff_exists.1 ha
    obtain ⟨hle, heq⟩ := ih (counted_step m h a) fun b hb => isSome_step m h a (hrest b hb)
    rw [List.foldl_cons]
    rcases step_of_assigned m h hold with hstay | ⟨new, p, q, -, -, -, hpq, hraise⟩
    · rw [hstay] at hle heq ⊢
      exact ⟨hle, heq⟩
    · refine ⟨by linarith, fun hsame => ?_⟩
      linarith

/-- If there are targets, every agent that took its step has one. -/
theorem isSome_foldl {s : Sweep Rat} (h : s.Counted) {agents : List EntityId} {b : EntityId}
    (hb : (s.assignment.get? b).isSome ∨ b ∈ agents ∧ m.targets ≠ []) :
    ((agents.foldl (step m) s).assignment.get? b).isSome := by
  induction agents generalizing s with
  | nil => simpa using hb
  | cons a rest ih =>
    refine ih (counted_step m h a) ?_
    rcases hb with hb | ⟨hb, ht⟩
    · exact .inl (isSome_step m h a hb)
    · rcases List.mem_cons.1 hb with rfl | hb
      · exact .inl (isSome_step_self m h b ht)
      · exact .inr ⟨hb, ht⟩

end Sweep

/-! ## Sweep after sweep -/

section Sweeps
variable (m : UtilityMatrix Rat)

theorem potential_repaired {x : Assignment} (h : m.Covered x) :
    m.potential x ≤ m.potential (repaired m x) ∧
      (m.potential (repaired m x) = m.potential x → repaired m x = x) := by
  obtain ⟨hle, heq⟩ := Sweep.potential_foldl m (Sweep.counted_start x) h
  exact ⟨hle, fun hsame => congrArg Sweep.assignment (heq hsame)⟩

theorem covered_repaired {x : Assignment} (h : m.Covered x ∨ m.targets ≠ []) :
    m.Covered (repaired m x) := by
  intro a ha
  exact Sweep.isSome_foldl m (Sweep.counted_start x) (h.imp (fun hx => hx a ha) fun ht => ⟨ha, ht⟩)

theorem repaired_of_no_targets (h : m.targets = []) (x : Assignment) : repaired m x = x := by
  refine congrArg Sweep.assignment (sweep_of_equilibrium fun a _ t ht => ?_)
  rw [h] at ht
  cases ht

instance : Finite EntityId :=
  .of_injective (fun id => (⟨id.toNat, id.toNat_lt⟩ : Fin UInt32.size)) fun _ _ h =>
    EntityId.toNat_inj.1 (congrArg Fin.val h)

instance : Finite Assignment :=
  .of_injective Assignment.get? fun _ _ h => Assignment.ext_get? (congrFun h)

theorem covered_iterate {x : Assignment} (h : m.Covered x) (n : ℕ) :
    m.Covered ((repaired m)^[n] x) := by
  induction n with
  | zero => exact h
  | succ n ih =>
    rw [Function.iterate_succ_apply']
    exact covered_repaired m (.inl ih)

theorem potential_iterate {x : Assignment} (h : m.Covered x) (n : ℕ) :
    m.potential x ≤ m.potential ((repaired m)^[n] x) := by
  induction n with
  | zero => exact le_refl _
  | succ n ih =>
    rw [Function.iterate_succ_apply']
    exact ih.trans (potential_repaired m (covered_iterate m h n)).1

/-- An assignment that sweeps come back to is one that they do not change. -/
theorem repaired_of_iterate_eq {x : Assignment} {n : ℕ} (hn : 0 < n)
    (h : (repaired m)^[n] x = x) : repaired m x = x := by
  by_cases ht : m.targets = []
  · exact repaired_of_no_targets m ht x
  -- one sweep covers every agent, so from then on the potential can only have stayed the same
  · obtain ⟨n, rfl⟩ := Nat.exists_eq_add_of_lt hn
    rw [Nat.zero_add] at h
    have hcovered : m.Covered x := by
      rw [← h, Function.iterate_succ_apply']
      exact covered_repaired m (.inr ht)
    obtain ⟨hle, heq⟩ := potential_repaired m hcovered
    refine heq (le_antisymm ?_ hle)
    have hlast := potential_iterate m (covered_repaired m (.inl hcovered)) n
    rwa [← Function.iterate_succ_apply, h] at hlast

/-- Sweeps that come back to an assignment have come to rest there. -/
theorem iterate_of_iterate_eq {x : Assignment} {i j : ℕ} (hij : i < j)
    (h : (repaired m)^[i] x = (repaired m)^[j] x) {k : ℕ} (hk : i ≤ k) :
    (repaired m)^[k] x = (repaired m)^[i] x := by
  have hrest : repaired m ((repaired m)^[i] x) = (repaired m)^[i] x := by
    refine repaired_of_iterate_eq m (n := j - i) (by omega) ?_
    rw [← Function.iterate_add_apply, Nat.sub_add_cancel hij.le, ← h]
  rw [← Nat.sub_add_cancel hk, Function.iterate_add_apply]
  exact Function.iterate_fixed hrest (k - i)

/-- Every switch of an agent that has a target raises the potential by the difference of the two
scores it compared. So a sweep over a full assignment never lowers the potential, and keeps it only
by changing nothing; and from any start, sweeping again and again never cycles and comes to rest. -/
theorem sweeps_climb_and_rest (x : Assignment) :
    (∀ before a after, m.agents = before ++ a :: after →
      let s := before.foldl (Sweep.step m) (.start x)
      ∀ old, s.assignment.get? a = some old →
        s.step m a = s ∨ ∃ new p q, new ≠ old ∧
          (s.step m a).assignment = s.assignment.assign a new ∧
          (s.step m a).switches = s.switches ++ [⟨a, some old, some p, some new, some q⟩] ∧
          p < q ∧
          m.potential (s.step m a).assignment = m.potential s.assignment + (q - p)) ∧
    ((∀ a ∈ m.agents, (x.get? a).isSome) →
      m.potential x ≤ m.potential (repaired m x) ∧
        (m.potential (repaired m x) = m.potential x → repaired m x = x)) ∧
    (∀ i j, i < j → (repaired m)^[i] x = (repaired m)^[j] x →
      ∀ k ≥ i, (repaired m)^[k] x = (repaired m)^[i] x) ∧
    ∃ n, ∀ k ≥ n, (repaired m)^[k] x = (repaired m)^[n] x := by
  have hcycle : ∀ i j, i < j → (repaired m)^[i] x = (repaired m)^[j] x →
      ∀ k ≥ i, (repaired m)^[k] x = (repaired m)^[i] x :=
    fun i j hij h k hk => iterate_of_iterate_eq m hij h hk
  refine ⟨?_, potential_repaired m, hcycle, ?_⟩
  · intro before a after _ s old hold
    exact Sweep.step_of_assigned m (Sweep.counted_foldl m (Sweep.counted_start x) before) hold
  · -- among finitely many assignments some sweep comes back to an earlier one
    obtain ⟨i, j, hne, h⟩ := Finite.exists_ne_map_eq_of_infinite fun n => (repaired m)^[n] x
    rcases lt_or_gt_of_ne hne with hij | hij
    · exact ⟨i, hcycle i j hij h⟩
    · exact ⟨j, hcycle j i hij h.symm⟩

end Sweeps

end Dispatch
