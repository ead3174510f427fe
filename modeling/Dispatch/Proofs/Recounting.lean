import Mathlib
import Dispatch.Proofs.Magnitudes
import Dispatch.Proofs.BestResponse
import Dispatch.Proofs.Recurrence
/-!
# Repair as best responses that count afresh

A sweep keeps its counts from one agent to the next, takes the agent itself out of a copy of them,
and scans the targets for a score above the best one so far. `UtilityMatrix.reassigned` is what one
agent does when nothing is kept: it counts the others on every target, looks for the earliest target
that no other is strictly better than, and moves there if this beats where it stands. One step of a
sweep is that (`Sweep.assignment_step`), so a sweep is one such move after the other
(`repair_recounts`).
-/

namespace Dispatch

variable {α : Type} [Scalar α]

/-! ## Counting afresh -/

namespace UtilityMatrix

/-- The earliest target that no target is strictly better than, given where all others stand. -/
def bestProspect? (m : UtilityMatrix α) (x : Assignment) (agent : EntityId) : Option EntityId :=
  m.targets.find? fun t =>
    m.targets.all fun u => !decide (m.prospect x agent t < m.prospect x agent u)

/-- Lets the agent move to its best target if that is strictly better than where it stands. -/
def reassigned (m : UtilityMatrix α) (x : Assignment) (agent : EntityId) : Assignment :=
  match m.bestProspect? x agent with
  | none => x
  | some t =>
    if Score.exceeds (m.prospect x agent t) (m.standing x agent) then x.assign agent t else x

variable {m : UtilityMatrix α} {x : Assignment} {a b t : EntityId}

theorem bestProspect?_of_earliestBest [OrderedScalar α]
    (h : MaxSum.EarliestBest (m.prospect x a) m.targets (some t)) :
    m.bestProspect? x a = some t := by
  have hnot := h.not_lt
  obtain ⟨before, after, heq, hbefore, -⟩ := h
  refine List.find?_eq_some_iff_append.2 ⟨by simpa using hnot, before, after, heq, fun u hu => ?_⟩
  have ht : t ∈ m.targets := by simp [heq]
  simpa using ⟨t, ht, hbefore u hu⟩

theorem reassigned_of_content (h : m.Content x a) : m.reassigned x a = x := by
  unfold reassigned
  cases hbest : m.bestProspect? x a with
  | none => rfl
  | some t =>
    have hnot := h t (List.mem_of_find?_eq_some hbest)
    simp only [hnot, Bool.false_eq_true, if_false]

theorem reassigned_of_earliestBest [OrderedScalar α]
    (h : MaxSum.EarliestBest (m.prospect x a) m.targets (some t))
    (hexceeds : Score.exceeds (m.prospect x a t) (m.standing x a) = true) :
    m.reassigned x a = x.assign a t := by
  unfold reassigned
  simp only [bestProspect?_of_earliestBest h, hexceeds, if_true]

/-! ### Whom a move leaves alone -/

theorem reassigned_cases (m : UtilityMatrix α) (x : Assignment) (a : EntityId) :
    m.reassigned x a = x ∨ ∃ t, m.reassigned x a = x.assign a t := by
  unfold reassigned
  split
  · exact .inl rfl
  · split
    · exact .inr ⟨_, rfl⟩
    · exact .inl rfl

theorem get?_reassigned_of_ne (hab : a ≠ b) : (m.reassigned x a).get? b = x.get? b := by
  rcases m.reassigned_cases x a with h | ⟨t, h⟩
  · rw [h]
  · rw [h, Assignment.get?_assign, if_neg hab]

theorem isSome_reassigned (h : (x.get? b).isSome) : ((m.reassigned x a).get? b).isSome := by
  rcases m.reassigned_cases x a with hstay | ⟨t, hmove⟩
  · rwa [hstay]
  · rw [hmove, Assignment.get?_assign]
    split
    · rfl
    · exact h

theorem get?_foldl_reassigned {agents : List EntityId} (h : b ∉ agents) :
    (agents.foldl m.reassigned x).get? b = x.get? b := by
  induction agents generalizing x with
  | nil => rfl
  | cons a rest ih =>
    rw [List.mem_cons, not_or] at h
    obtain ⟨hne, hrest⟩ := h
    rw [List.foldl_cons, ih hrest, get?_reassigned_of_ne (Ne.symm hne)]

theorem isSome_foldl_reassigned (agents : List EntityId) (h : (x.get? b).isSome) :
    ((agents.foldl m.reassigned x).get? b).isSome := by
  induction agents generalizing x with
  | nil => exact h
  | cons a rest ih => exact ih (isSome_reassigned h)

end UtilityMatrix

/-! ## Scores -/

theorem EntityId.mem_all (id : EntityId) : id ∈ (List.range UInt32.size).map EntityId.ofNat :=
  List.mem_map.2 ⟨id.toNat, List.mem_range.2 id.toNat_lt, congrArg mk UInt32.ofNat_toNat⟩

/-- Every score is a number: an agent and the others on a target are no more than there are
identifiers. -/
theorem UtilityMatrix.isNumber_prospect [ScoringScalar α] (m : UtilityMatrix α) (x : Assignment)
    (a t : EntityId) : Scalar.IsNumber (m.prospect x a t) := by
  have hothers := Assignment.othersOn_lt (x := x) (fun b _ _ => b.mem_all) a.mem_all t
  rw [List.length_map, List.length_range] at hothers
  exact ScoringScalar.isNumber_score (m.isFinite_utility a t) m.penalty_finite (by omega)

/-- What does not beat a score that another value beats is below that value. -/
theorem Score.lt_of_exceeds [ScoringScalar α] {x y : α} {s : Score α} (hx : Scalar.IsNumber x)
    (hbelow : Score.exceeds x s = false) (habove : Score.exceeds y s = true) : x < y := by
  cases s with
  | none => exact ScoringScalar.lt_of_aboveBottom hx hbelow habove
  | some z =>
    exact (OrderedScalar.lt_or_lt hx (of_decide_eq_true habove)).resolve_left
      (of_decide_eq_false hbelow)

/-- The best response is the current choice if no target is strictly better, and else the earliest
target of highest score. -/
theorem Outlook.bestResponse_earliest [ScoringScalar α] {s : Outlook α}
    (hnumber : ∀ t, Scalar.IsNumber (s.worth t)) (current : Option EntityId) :
    s.bestResponse current = current ∧
        (∀ t ∈ s.matrix.targets, Score.exceeds (s.worth t) (s.score current) = false) ∨
      ∃ t, MaxSum.EarliestBest s.worth s.matrix.targets (some t) ∧
        s.bestResponse current = some t ∧ Score.exceeds (s.worth t) (s.score current) = true := by
  rcases s.bestResponse_cases current with hstay | ⟨t, ht, hbest, hexceeds⟩
  · exact .inl hstay
  refine .inr ⟨t, ?_, hbest, hexceeds⟩
  rcases s.foldl_better_cases current s.matrix.targets with
    ⟨-, hall⟩ | ⟨before, first, after, htargets, hbefore, hfirst, hscan⟩
  · rw [hall t ht] at hexceeds
    cases hexceeds
  · -- what the scan passed before it moved away from the current choice is below what it found
    have hbelow : ∀ u ∈ before, s.worth u < s.worth first := fun u hu =>
      Score.lt_of_exceeds (hnumber u) (hbefore u hu) hfirst
    rw [bestResponse, hscan, foldl_better_of_some] at hbest
    rw [← hbest, htargets]
    have hearliest := MaxSum.earliestBest_foldl s.worth before [] (by simp)
      (fun u (_ : u ∈ after) => hnumber u) hbelow (by simp)
    simpa using hearliest

/-! ## A sweep, step by step -/

namespace Sweep

/-- One step of a sweep is a best response that counts afresh. -/
theorem assignment_step [ScoringScalar α] (m : UtilityMatrix α) {s : Sweep α} (h : s.Counted)
    (a : EntityId) : (s.step m a).assignment = m.reassigned s.assignment a := by
  have hsees := sees_view m h a
  have hworth : (s.view m a).worth = m.prospect s.assignment a := funext hsees.worth
  have hscore : (s.view m a).score (s.assignment.get? a) = m.standing s.assignment a := hsees.score
  have hnumber : ∀ t, Scalar.IsNumber ((s.view m a).worth t) := by
    rw [hworth]
    exact m.isNumber_prospect s.assignment a
  rw [step_assignment]
  rcases Outlook.bestResponse_earliest hnumber (s.assignment.get? a) with
    ⟨hbest, hall⟩ | ⟨t, hearliest, hbest, hexceeds⟩
  · rw [hworth, hscore] at hall
    have hcontent : m.Content s.assignment a := hall
    rw [hbest, UtilityMatrix.reassigned_of_content hcontent]
    cases hx : s.assignment.get? a with
    | none => rfl
    | some t => exact Assignment.assign_of_get? hx
  · rw [hworth] at hearliest hexceeds
    rw [hscore] at hexceeds
    rw [hbest, UtilityMatrix.reassigned_of_earliestBest hearliest hexceeds]

theorem assignment_foldl [ScoringScalar α] (m : UtilityMatrix α) {s : Sweep α} (h : s.Counted)
    (agents : List EntityId) :
    (agents.foldl (step m) s).assignment = agents.foldl m.reassigned s.assignment := by
  induction agents generalizing s with
  | nil => rfl
  | cons a rest ih =>
    rw [List.foldl_cons, List.foldl_cons, ih (counted_step m h a), assignment_step m h a]

omit [Scalar α] in
/-- The target of an agent has been counted at least once. -/
theorem Counted.exists_succ {s : Sweep α} (h : s.Counted) {a old : EntityId}
    (ha : s.assignment.get? a = some old) : ∃ n, s.counts.get? old = some (n + 1) := by
  have hcount := s.assignment.count_eq_othersOn a old
  rw [if_pos ha, ← h old, Counts.of, SortedMap.getD] at hcount
  cases hget : s.counts.get? old with
  | none => simp [hget] at hcount
  | some n => exact ⟨s.assignment.othersOn a old, congrArg some (by simpa [hget] using hcount)⟩

end Sweep

/-- A repair sweep is the best responses of the agents in turn, each counting afresh who works on
what. The counts it keeps are those of its assignment before every step, and the count that a step
takes one from is not zero. Agents that the matrix lacks stay where they are, and no agent loses its
target. -/
theorem repair_recounts [ScoringScalar α] (m : UtilityMatrix α) (x : Assignment) :
    repaired m x = m.agents.foldl m.reassigned x ∧
    (∀ before a after, m.agents = before ++ a :: after →
      let s := before.foldl (Sweep.step m) (.start x)
      s.assignment = before.foldl m.reassigned x ∧
        (∀ t, s.counts.of t = s.assignment.count t) ∧
        ∀ old, s.assignment.get? a = some old → ∃ n, s.counts.get? old = some (n + 1)) ∧
    (∀ a, a ∉ m.agents → (repaired m x).get? a = x.get? a) ∧
    ∀ a, (x.get? a).isSome → ((repaired m x).get? a).isSome := by
  have hrepaired : repaired m x = m.agents.foldl m.reassigned x :=
    Sweep.assignment_foldl m (Sweep.counted_start x) m.agents
  refine ⟨hrepaired, fun before a after _ => ?_, fun a ha => ?_, fun a ha => ?_⟩
  · have hcounted := Sweep.counted_foldl m (Sweep.counted_start x) before
    exact ⟨Sweep.assignment_foldl m (Sweep.counted_start x) before, hcounted,
      fun old => hcounted.exists_succ⟩
  · rw [hrepaired]
    exact UtilityMatrix.get?_foldl_reassigned ha
  · rw [hrepaired]
    exact UtilityMatrix.isSome_foldl_reassigned m.agents ha

/-- Two agents that both like the first target best, at a high penalty. -/
def contested : UtilityMatrix Float where
  agents := [.ofNat 5, .ofNat 6]
  targets := [.ofNat 10, .ofNat 20]
  locations := .empty
  values := #[10, 1, 10, 1]
  needs := #[2, 1]
  penalty := 100
  agents_nodup := by decide
  targets_nodup := by decide
  values_size := rfl
  needs_size := rfl
  values_finite := by decide +kernel
  penalty_finite := by decide +kernel
  penalty_nonneg := by decide +kernel

/-- With both on the first target, beside an agent that the matrix lacks and one on a target that it
lacks, only the first agent moves. -/
theorem contested_repair_recounts :
    let crowd := Assignment.ofList [(.ofNat 5, .ofNat 10), (.ofNat 6, .ofNat 10),
      (.ofNat 7, .ofNat 10), (.ofNat 8, .ofNat 99)]
    repaired contested crowd = crowd.assign (.ofNat 5) (.ofNat 20) := by
  intro crowd
  obtain ⟨hrepaired, -⟩ := repair_recounts contested crowd
  rw [hrepaired]
  decide +kernel

end Dispatch
