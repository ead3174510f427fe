import Mathlib
import Dispatch.Proofs.BestResponse
/-!
# Where repair changes nothing

In a sweep an agent is moved by its own step only (`Sweep.get?_step_of_ne`), and takes one. So an
agent that has moved stands elsewhere in the end, whatever the others do after it, and a sweep that
ends where it began has found every agent content on its way (`Sweep.content_of_foldl_step`). The
assignments that repair leaves alone are the equilibria: `repair_rests_exactly_at_equilibria`.
-/

namespace Dispatch

variable {α : Type} [Scalar α]

namespace Sweep
variable (m : UtilityMatrix α)

/-- A step moves nobody else. -/
theorem get?_step_of_ne (s : Sweep α) {a b : EntityId} (hab : a ≠ b) :
    (s.step m a).assignment.get? b = s.assignment.get? b := by
  rw [step_assignment]
  split
  · rfl
  · rw [Assignment.get?_assign, if_neg hab]

theorem get?_foldl_step_of_not_mem {agents : List EntityId} {b : EntityId} (hb : b ∉ agents)
    (s : Sweep α) : (agents.foldl (step m) s).assignment.get? b = s.assignment.get? b := by
  induction agents generalizing s with
  | nil => rfl
  | cons a rest ih =>
    obtain ⟨hne, hrest⟩ := not_or.1 (mt List.mem_cons.2 hb)
    rw [List.foldl_cons, ih hrest, get?_step_of_ne m s (Ne.symm hne)]

variable [OrderedScalar α] {m}

/-- Where a sweep ends as it began, every agent has been content from the start. -/
theorem content_of_foldl_step {s : Sweep α} (h : s.Counted) {agents : List EntityId}
    (hnodup : agents.Nodup) (hrest : (agents.foldl (step m) s).assignment = s.assignment) :
    ∀ a ∈ agents, m.Content s.assignment a := by
  induction agents with
  | nil => simp
  | cons a rest ih =>
    obtain ⟨ha, hnodup⟩ := List.nodup_cons.1 hnodup
    rw [List.foldl_cons] at hrest
    rcases step_cases m h a with ⟨hstay, hcontent⟩ | ⟨t, -, -, hne, hassign, -⟩
    · rw [hstay] at hrest
      exact List.forall_mem_cons.2 ⟨hcontent, ih hnodup hrest⟩
    · -- the agent has left its target, and the steps after its own do not take it back
      have hend : (rest.foldl (step m) (s.step m a)).assignment.get? a = some t := by
        rw [get?_foldl_step_of_not_mem m ha, hassign, Assignment.get?_assign, if_pos rfl]
      rw [hrest] at hend
      exact absurd hend hne

end Sweep

/-- Repair leaves exactly those assignments as they are in which no agent of the matrix has a target
of strictly higher score than its own, given where all others stand. -/
theorem repair_rests_exactly_at_equilibria [OrderedScalar α] (m : UtilityMatrix α)
    (x : Assignment) : repaired m x = x ↔ m.Equilibrium x := by
  constructor
  · intro hrest
    exact Sweep.content_of_foldl_step (Sweep.counted_start x) m.agents_nodup hrest
  · intro h
    exact congrArg Sweep.assignment (sweep_of_equilibrium h)

/-- Three agents for two targets that need one each. The last one finds both equally good. -/
def trio : UtilityMatrix Float where
  agents := [.ofNat 1, .ofNat 2, .ofNat 3]
  targets := [.ofNat 20, .ofNat 30]
  locations := .empty
  values := #[10, 1, 9, 2, 3, 3]
  needs := #[1, 1]
  penalty := 20
  agents_nodup := by decide
  targets_nodup := by decide
  values_size := rfl
  needs_size := by decide
  values_finite := by decide +kernel
  penalty_finite := by decide +kernel
  penalty_nonneg := by decide +kernel

/-- Beside an agent that the matrix lacks, they rest if the last one is on the first target. On the
second one it would drive the second agent out, and without any target nobody rests. -/
theorem trio_rests_when_spread :
    let spread (t : Nat) := Assignment.ofList [(.ofNat 1, .ofNat 20), (.ofNat 2, .ofNat 30),
      (.ofNat 3, .ofNat t), (.ofNat 8, .ofNat 99)]
    repaired trio (spread 20) = spread 20 ∧ repaired trio (spread 30) ≠ spread 30 ∧
      repaired trio .empty ≠ .empty := by
  intro spread
  have hrest : ∀ x, repaired trio x = x ↔ ∀ a ∈ trio.agents, ∀ t ∈ trio.targets,
      Score.exceeds (trio.prospect x a t) (trio.standing x a) = false :=
    repair_rests_exactly_at_equilibria trio
  rw [Ne, Ne, hrest, hrest, hrest]
  decide +kernel

end Dispatch
