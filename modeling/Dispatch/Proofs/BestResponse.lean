import Mathlib
import Dispatch.Repair
import Dispatch.Proofs.Headcount
import Dispatch.Proofs.ScalarOrder
/-!
# Best responses

An agent is content when no target would be strictly better for it than its own, given where the
others stand; an assignment in which every agent is content is an equilibrium.

`Outlook.bestResponse_cases` says what a best response is, and `Sweep.step_cases` what one step of
a repair sweep does: nothing if the agent is content, else a move to a strictly better target. The
counts that a sweep keeps always are those of its assignment (`Sweep.Counted`), so both speak of
the assignment alone. `sweep_of_equilibrium` says that repair leaves an equilibrium as it is.
-/

namespace Dispatch

variable {α : Type} [Scalar α]

/-! ## Where an agent stands -/

namespace UtilityMatrix

/-- What working on a target is worth to an agent, where all others stay. -/
def prospect (m : UtilityMatrix α) (x : Assignment) (agent target : EntityId) : α :=
  m.utility agent target + m.congestion target (x.othersOn agent target + 1)

/-- What its own target is worth to an agent. -/
def standing (m : UtilityMatrix α) (x : Assignment) (agent : EntityId) : Score α :=
  (x.get? agent).map (m.prospect x agent)

/-- No target would be strictly better for the agent than its own. -/
def Content (m : UtilityMatrix α) (x : Assignment) (agent : EntityId) : Prop :=
  ∀ target ∈ m.targets,
    Score.exceeds (m.prospect x agent target) (m.standing x agent) = false

/-- Every agent of the matrix is content with its target. -/
def Equilibrium (m : UtilityMatrix α) (x : Assignment) : Prop :=
  ∀ agent ∈ m.agents, m.Content x agent

end UtilityMatrix

/-! ## Best responses -/

theorem Score.exceeds_trans [OrderedScalar α] {x y : α} {s : Score α}
    (h : Score.exceeds x s = true) (hxy : x < y) : Score.exceeds y s = true := by
  cases s with
  | none => exact OrderedScalar.aboveBottom_of_lt h hxy
  | some z => exact decide_eq_true (OrderedScalar.lt_trans (of_decide_eq_true h) hxy)

namespace Outlook

/-- A scan for the best response has found a target strictly better than the current choice. -/
def Ahead (s : Outlook α) (current : Option EntityId) (best : Option EntityId × Score α) : Prop :=
  ∃ t ∈ s.matrix.targets, best = (some t, some (s.worth t)) ∧
    Score.exceeds (s.worth t) (s.score current) = true

theorem ahead_foldl [OrderedScalar α] {s : Outlook α} {current : Option EntityId}
    {targets : List EntityId} (hsub : ∀ t ∈ targets, t ∈ s.matrix.targets)
    {best : Option EntityId × Score α} (h : s.Ahead current best) :
    s.Ahead current (targets.foldl s.better best) := by
  induction targets generalizing best with
  | nil => exact h
  | cons t rest ih =>
    refine ih (fun u hu => hsub u (List.mem_cons_of_mem _ hu)) ?_
    unfold better
    split
    · rename_i hexceeds
      obtain ⟨u, -, rfl, hu⟩ := h
      exact ⟨t, hsub t List.mem_cons_self, rfl,
        Score.exceeds_trans hu (of_decide_eq_true hexceeds)⟩
    · exact h

/-- A scan keeps the current choice while nothing is strictly better, and goes on from the first
target that is. -/
theorem foldl_better_cases (s : Outlook α) (current : Option EntityId) (targets : List EntityId) :
    targets.foldl s.better (current, s.score current) = (current, s.score current) ∧
        (∀ t ∈ targets, Score.exceeds (s.worth t) (s.score current) = false) ∨
      ∃ before first after, targets = before ++ first :: after ∧
        (∀ t ∈ before, Score.exceeds (s.worth t) (s.score current) = false) ∧
        Score.exceeds (s.worth first) (s.score current) = true ∧
        targets.foldl s.better (current, s.score current) =
          after.foldl s.better (some first, some (s.worth first)) := by
  induction targets with
  | nil => exact .inl ⟨rfl, by simp⟩
  | cons t rest ih =>
    rw [List.foldl_cons]
    cases ht : Score.exceeds (s.worth t) (s.score current) with
    | true => exact .inr ⟨[], t, rest, rfl, by simp, ht, by rw [better, if_pos ht]⟩
    | false =>
      have hstay : s.better (current, s.score current) t = (current, s.score current) := by
        rw [better, if_neg (by rw [ht]; decide)]
      rw [hstay]
      rcases ih with ⟨h, hall⟩ | ⟨before, first, after, rfl, hbefore, hfirst, h⟩
      · exact .inl ⟨h, List.forall_mem_cons.2 ⟨ht, hall⟩⟩
      · exact .inr ⟨t :: before, first, after, rfl, List.forall_mem_cons.2 ⟨ht, hbefore⟩, hfirst, h⟩

/-- From a target on, a scan replaces it by targets of strictly higher score. -/
theorem foldl_better_of_some (s : Outlook α) (t : EntityId) (targets : List EntityId) :
    targets.foldl s.better (some t, some (s.worth t)) =
      let best := targets.foldl (fun best u => if s.worth best < s.worth u then u else best) t
      (some best, some (s.worth best)) := by
  induction targets generalizing t with
  | nil => rfl
  | cons u rest ih =>
    rw [List.foldl_cons, List.foldl_cons]
    by_cases hlt : s.worth t < s.worth u
    · rw [if_pos hlt, ← ih]
      simp [better, Score.exceeds, hlt]
    · rw [if_neg hlt, ← ih]
      simp [better, Score.exceeds, hlt]

/-- The best response is the current choice if no target is strictly better, and else a target
that is. -/
theorem bestResponse_cases [OrderedScalar α] (s : Outlook α) (current : Option EntityId) :
    s.bestResponse current = current ∧
        (∀ t ∈ s.matrix.targets, Score.exceeds (s.worth t) (s.score current) = false) ∨
      ∃ t ∈ s.matrix.targets, s.bestResponse current = some t ∧
        Score.exceeds (s.worth t) (s.score current) = true := by
  rcases s.foldl_better_cases current s.matrix.targets with
    ⟨h, hall⟩ | ⟨before, first, after, htargets, -, hfirst, h⟩
  · exact .inl ⟨by rw [bestResponse, h], hall⟩
  · -- from the first better target on the scan stays ahead of the current choice
    have hmem : first ∈ s.matrix.targets := by simp [htargets]
    have hsub : ∀ t ∈ after, t ∈ s.matrix.targets := fun t ht => by simp [htargets, ht]
    obtain ⟨t, ht, hbest, hexceeds⟩ := ahead_foldl hsub ⟨first, hmem, rfl, hfirst⟩
    exact .inr ⟨t, ht, by rw [bestResponse, h, hbest], hexceeds⟩

/-- A target that is strictly better than the current choice is another one. -/
theorem ne_of_exceeds [OrderedScalar α] {s : Outlook α} {current : Option EntityId} {t : EntityId}
    (h : Score.exceeds (s.worth t) (s.score current) = true) : current ≠ some t := by
  rintro rfl
  exact OrderedScalar.lt_irrefl _ (of_decide_eq_true h)

theorem bestResponse_eq_self [OrderedScalar α] {s : Outlook α} {current : Option EntityId} :
    s.bestResponse current = current ↔
      ∀ t ∈ s.matrix.targets, Score.exceeds (s.worth t) (s.score current) = false := by
  rcases s.bestResponse_cases current with ⟨h, hall⟩ | ⟨t, ht, h, hexceeds⟩
  · exact ⟨fun _ => hall, fun _ => h⟩
  · refine ⟨fun hself => absurd (hself ▸ h) (ne_of_exceeds hexceeds), fun hall => ?_⟩
    rw [hall t ht] at hexceeds
    cases hexceeds

/-! ### Seeing an assignment -/

/-- The agent sees where all others stand. -/
def Sees (s : Outlook α) (x : Assignment) : Prop :=
  ∀ t, s.others.of t = x.othersOn s.agent t

theorem Sees.worth {s : Outlook α} {x : Assignment} (h : s.Sees x) (t : EntityId) :
    s.worth t = s.matrix.prospect x s.agent t := by
  rw [Outlook.worth, h t, UtilityMatrix.prospect]

theorem Sees.score {s : Outlook α} {x : Assignment} (h : s.Sees x) :
    s.score (x.get? s.agent) = s.matrix.standing x s.agent := by
  rw [Outlook.score, UtilityMatrix.standing, funext h.worth]

end Outlook

/-! ## Repair sweeps -/

namespace Sweep

/-- The counts of the sweep are those of its assignment. -/
def Counted (s : Sweep α) : Prop := ∀ t, s.counts.of t = s.assignment.count t

omit [Scalar α] in
theorem counted_start (x : Assignment) : (start x : Sweep α).Counted := by
  intro t
  rw [start, Counts.of_ofTargets, Assignment.count_eq]

theorem sees_view (m : UtilityMatrix α) {s : Sweep α} (h : s.Counted) (a : EntityId) :
    (s.view m a).Sees s.assignment := by
  intro t
  have hcount := s.assignment.count_eq_othersOn a t
  unfold view
  cases hx : s.assignment.get? a with
  | none =>
    show s.counts.of t = s.assignment.othersOn a t
    rw [h t, hcount, hx]
    rfl
  | some old =>
    show (s.counts.decrease old).of t = s.assignment.othersOn a t
    simp only [hx, Option.some.injEq] at hcount
    rw [Counts.of_decrease, h t, hcount]
    omega

theorem step_assignment (m : UtilityMatrix α) (s : Sweep α) (a : EntityId) :
    (s.step m a).assignment = match (s.view m a).bestResponse (s.assignment.get? a) with
      | none => s.assignment
      | some t => s.assignment.assign a t := by
  unfold step
  dsimp only
  cases (s.view m a).bestResponse (s.assignment.get? a) with
  | none => rfl
  | some t =>
    dsimp only
    split
    · rename_i hstay
      exact (Assignment.assign_of_get? hstay).symm
    · rfl

/-- The move of an agent to a target, with the scores it compared. -/
def moveTo (m : UtilityMatrix α) (x : Assignment) (a t : EntityId) : Switch α :=
  ⟨a, x.get? a, m.standing x a, some t, some (m.prospect x a t)⟩

/-- What one agent does in a sweep: nothing if it is content, else it moves to a target that is
strictly better given where all others stand then. -/
theorem step_cases [OrderedScalar α] (m : UtilityMatrix α) {s : Sweep α} (h : s.Counted)
    (a : EntityId) :
    s.step m a = s ∧ m.Content s.assignment a ∨
      ∃ t ∈ m.targets,
        Score.exceeds (m.prospect s.assignment a t) (m.standing s.assignment a) = true ∧
        s.assignment.get? a ≠ some t ∧
        (s.step m a).assignment = s.assignment.assign a t ∧
        (s.step m a).switches = s.switches ++ [moveTo m s.assignment a t] ∧
        (s.step m a).Counted := by
  have hsees := sees_view m h a
  have hscore : (s.view m a).score (s.assignment.get? a) = m.standing s.assignment a := hsees.score
  rcases (s.view m a).bestResponse_cases (s.assignment.get? a) with
    ⟨hbest, hall⟩ | ⟨t, ht, hbest, hexceeds⟩
  · refine .inl ⟨?_, fun t ht => ?_⟩
    · unfold step
      simp only [hbest]
      cases hx : s.assignment.get? a <;> simp
    · rw [← hscore, ← hall t ht, hsees.worth]
      rfl
  · have hne := Outlook.ne_of_exceeds hexceeds
    rw [hscore, hsees.worth] at hexceeds
    have hstep : s.step m a = ⟨s.assignment.assign a t, (s.view m a).others.increase t,
        s.switches ++ [moveTo m s.assignment a t]⟩ := by
      unfold step
      simp only [hbest, if_neg hne]
      rw [hscore, Outlook.score, Option.map_some, hsees.worth]
      rfl
    refine .inr ⟨t, ht, hexceeds, hne, by rw [hstep], by rw [hstep], fun u => ?_⟩
    rw [hstep, Counts.of_increase, hsees u, ← Assignment.unassign_assign,
      Assignment.count_assign _ _ (by rw [Assignment.get?_unassign, if_pos rfl])]
    rfl

theorem counted_step [OrderedScalar α] (m : UtilityMatrix α) {s : Sweep α} (h : s.Counted)
    (a : EntityId) : (s.step m a).Counted := by
  rcases step_cases m h a with ⟨hstay, -⟩ | ⟨_, -, -, -, -, -, hcounted⟩
  · rwa [hstay]
  · exact hcounted

theorem counted_foldl [OrderedScalar α] (m : UtilityMatrix α) {s : Sweep α} (h : s.Counted)
    (agents : List EntityId) : (agents.foldl (step m) s).Counted := by
  induction agents generalizing s with
  | nil => exact h
  | cons a rest ih => exact ih (counted_step m h a)

/-- A sweep over agents that are content from the start changes nothing. -/
theorem foldl_step_of_content [OrderedScalar α] (m : UtilityMatrix α) {s : Sweep α}
    (h : s.Counted) {agents : List EntityId}
    (hall : ∀ a ∈ agents, m.Content s.assignment a) : agents.foldl (step m) s = s := by
  induction agents with
  | nil => rfl
  | cons a rest ih =>
    obtain ⟨ha, hrest⟩ := List.forall_mem_cons.1 hall
    rw [List.foldl_cons]
    rcases step_cases m h a with ⟨hstay, -⟩ | ⟨t, ht, hexceeds, -⟩
    · rw [hstay, ih hrest]
    · rw [ha t ht] at hexceeds
      cases hexceeds

end Sweep

/-- Repair leaves an equilibrium as it is. -/
theorem sweep_of_equilibrium [OrderedScalar α] {m : UtilityMatrix α} {x : Assignment}
    (h : m.Equilibrium x) : sweep m x = .start x :=
  Sweep.foldl_step_of_content m (Sweep.counted_start x) h

end Dispatch
