import Mathlib
import Dispatch.Proofs.Building
import Dispatch.Proofs.Determinism
/-!
# What a solve accepts

`Solver.Accepts` says which settings, oracles and problems a built-in algorithm can start on. For
all others `Solver.Obstacle` names the first thing in the way: the settings, then a repeated agent,
then a repeated target, then a utility that is not finite. Setting up peoples a matrix for the first
kind (`Solver.Accepts.setUp_eq`) and fails with the obstacle of the second
(`Solver.setUp_eq_error`), and there is no third (`Solver.setUp_cases`).
-/

namespace Dispatch

variable {α : Type}

/-! ## Settings -/

/-- A check passes if the condition holds, and blames the configuration if it does not. -/
def Checks (condition : Prop) (check : Except (Error α) Unit) : Prop :=
  (condition ∧ check = .ok ()) ∨ (¬ condition ∧ ∃ cause, check = .error (.configuration cause))

theorem Checks.eq_ok_iff {condition : Prop} {check : Except (Error α) Unit}
    (h : Checks condition check) : check = .ok () ↔ condition := by
  rcases h with ⟨hholds, rfl⟩ | ⟨hfails, cause, rfl⟩
  · simp [hholds]
  · simp [hfails]

variable [Scalar α]

namespace MaxSum.Settings

/-- Damping leaves something of each new value, and every agent may consider some target. -/
structure Valid (settings : MaxSum.Settings α) : Prop where
  zero_le : Scalar.zero ≤ settings.damping
  lt_one : settings.damping < Scalar.one
  maxTargets_ne : settings.maxTargets ≠ some 0

theorem checks_validate (settings : MaxSum.Settings α) :
    Checks settings.Valid settings.validate := by
  unfold validate
  split
  · rename_i hdamping
    exact .inr ⟨fun h => hdamping ⟨h.zero_le, h.lt_one⟩, _, rfl⟩
  · rename_i hdamping
    obtain ⟨hzero, hone⟩ := not_not.1 hdamping
    split
    · rename_i hnone
      exact .inr ⟨fun h => h.maxTargets_ne hnone, _, rfl⟩
    · rename_i hsome
      exact .inl ⟨⟨hzero, hone, hsome⟩, rfl⟩

end MaxSum.Settings

namespace Dsa.Settings

/-- The chance to move is a probability. -/
structure Valid (settings : Dsa.Settings α) : Prop where
  zero_le : Scalar.zero ≤ settings.probability
  le_one : settings.probability ≤ Scalar.one

theorem checks_validate (settings : Dsa.Settings α) : Checks settings.Valid settings.validate := by
  unfold validate
  split
  · rename_i hprobability
    exact .inr ⟨fun h => hprobability ⟨h.zero_le, h.le_one⟩, _, rfl⟩
  · rename_i hprobability
    obtain ⟨hzero, hone⟩ := not_not.1 hprobability
    exact .inl ⟨⟨hzero, hone⟩, rfl⟩

end Dsa.Settings

namespace Algorithm

def Valid : Algorithm α → Prop
  | maxSum settings => settings.Valid
  | dsa settings => settings.Valid

theorem checks_validate (algorithm : Algorithm α) : Checks algorithm.Valid algorithm.validate := by
  cases algorithm with
  | maxSum settings => exact settings.checks_validate
  | dsa settings => exact settings.checks_validate

/-- The agents that an algorithm peoples a matrix with. -/
def population (coins : Dsa.Coins α) (m : UtilityMatrix α) : Algorithm α → List (Algorithm.Agent α)
  | maxSum settings => (MaxSum.agents settings m).map .maxSum
  | dsa settings => (Dsa.agents coins settings m).map .dsa

theorem agents_eq_ok_iff {coins : Dsa.Coins α} {algorithm : Algorithm α} {m : UtilityMatrix α}
    {agents : List (Algorithm.Agent α)} :
    algorithm.agents coins m = .ok agents ↔
      algorithm.Valid ∧ agents = algorithm.population coins m := by
  unfold Algorithm.agents
  rcases algorithm.checks_validate with ⟨hvalid, heq⟩ | ⟨hinvalid, cause, heq⟩
  · rw [heq]
    cases algorithm <;> simp [hvalid, population, eq_comm]
  · rw [heq]
    simp [hinvalid]

end Algorithm

namespace Solver

/-- There is a round to play, a penalty to reckon with, and an algorithm to run. -/
structure Settings.Valid (settings : Solver.Settings α) : Prop where
  maxRounds_ne : settings.maxRounds ≠ 0
  isAmount_penalty : Scalar.IsAmount settings.congestionPenalty
  algorithm : settings.algorithm.Valid

theorem Settings.checks_validate (settings : Solver.Settings α) :
    Checks settings.Valid settings.validate := by
  unfold validate
  split
  · rename_i hnone
    exact .inr ⟨fun h => h.maxRounds_ne hnone, _, rfl⟩
  · rename_i hsome
    split
    · rename_i hpenalty
      exact .inr ⟨fun h => hpenalty h.isAmount_penalty, _, rfl⟩
    · rename_i hpenalty
      rcases settings.algorithm.checks_validate with ⟨hvalid, heq⟩ | ⟨hinvalid, heq⟩
      · exact .inl ⟨⟨hsome, not_not.1 hpenalty, hvalid⟩, heq⟩
      · exact .inr ⟨fun h => hinvalid h.algorithm, heq⟩

end Solver

/-! ## Problems -/

namespace Solver

/-- A built-in algorithm can start on this. -/
structure Accepts (settings : Solver.Settings α) (oracle : Oracle α) (inst : Instance) : Prop where
  settings_valid : settings.Valid
  agents_nodup : inst.agents.Nodup
  targets_nodup : inst.targets.Nodup
  isFinite_utility : ∀ a ∈ inst.agents, ∀ t ∈ inst.targets,
    Scalar.isFinite (oracle.utility a t) = true

/-- The first thing that stands in the way of a solve, as a failure. -/
inductive Obstacle (settings : Solver.Settings α) (oracle : Oracle α) (inst : Instance) :
    Error α → Prop
  | settings {cause : Misconfiguration α} (h : ¬ settings.Valid) :
      Obstacle settings oracle inst (.configuration cause)
  | agent {id : EntityId} (hsettings : settings.Valid) (h : List.Duplicate id inst.agents) :
      Obstacle settings oracle inst (.invalidIdentifier id)
  | target {id : EntityId} (hsettings : settings.Valid) (hagents : inst.agents.Nodup)
      (h : List.Duplicate id inst.targets) :
      Obstacle settings oracle inst (.invalidIdentifier id)
  | utility {a t : EntityId} (hsettings : settings.Valid) (hagents : inst.agents.Nodup)
      (htargets : inst.targets.Nodup) (ha : a ∈ inst.agents) (ht : t ∈ inst.targets)
      (h : ¬ Scalar.isFinite (oracle.utility a t) = true) :
      Obstacle settings oracle inst (.nonFiniteUtility a t (oracle.utility a t))

variable {settings : Solver.Settings α} {oracle : Oracle α} {inst : Instance}

theorem not_accepts_iff : ¬ Accepts settings oracle inst ↔
    ¬ settings.Valid ∨ ¬ inst.agents.Nodup ∨ ¬ inst.targets.Nodup ∨
      ∃ a ∈ inst.agents, ∃ t ∈ inst.targets, ¬ Scalar.isFinite (oracle.utility a t) = true := by
  constructor
  · intro hnot
    by_contra hnone
    push Not at hnone
    obtain ⟨hsettings, hagents, htargets, hfinite⟩ := hnone
    exact hnot ⟨hsettings, hagents, htargets, hfinite⟩
  · rintro (h | h | h | ⟨a, ha, t, ht, h⟩) haccepts
    · exact h haccepts.settings_valid
    · exact h haccepts.agents_nodup
    · exact h haccepts.targets_nodup
    · exact h (haccepts.isFinite_utility a ha t ht)

theorem Obstacle.not_accepts {e : Error α} (h : Obstacle settings oracle inst e) :
    ¬ Accepts settings oracle inst := by
  rw [not_accepts_iff]
  cases h with
  | settings h => exact .inl h
  | agent _ h => exact .inr (.inl h.not_nodup)
  | target _ _ h => exact .inr (.inr (.inl h.not_nodup))
  | utility _ _ _ ha ht h => exact .inr (.inr (.inr ⟨_, ha, _, ht, h⟩))

end Solver

/-- Under valid settings a fault of the problem is the first obstacle. -/
theorem UtilityMatrix.Fault.obstacle {settings : Solver.Settings α} (hvalid : settings.Valid)
    {oracle : Oracle α} {inst : Instance} {e : Error α}
    (h : Fault inst oracle settings.congestionPenalty e) :
    Solver.Obstacle settings oracle inst e := by
  cases h with
  | penalty h => exact absurd hvalid.isAmount_penalty h
  | agent _ h => exact .agent hvalid h.duplicate
  | target _ hagents h => exact .target hvalid hagents h.duplicate
  | utility _ hagents htargets h =>
    obtain ⟨ha, ht, hbad⟩ := h.mem
    exact .utility hvalid hagents htargets ha ht (by simp [hbad])

/-- So a matrix is built, or the first obstacle reported. -/
theorem UtilityMatrix.build_cases {settings : Solver.Settings α} (hvalid : settings.Valid)
    (oracle : Oracle α) (inst : Instance) :
    (Solver.Accepts settings oracle inst ∧
      ∃ m, build inst oracle settings.congestionPenalty = .ok m) ∨
    ∃ e, build inst oracle settings.congestionPenalty = .error e ∧
      Solver.Obstacle settings oracle inst e := by
  rcases build_outcome inst oracle settings.congestionPenalty with
    ⟨hadmits, m, hok, -⟩ | ⟨e, herror, hfault⟩
  · exact .inl ⟨⟨hvalid, hadmits.agents_nodup, hadmits.targets_nodup, hadmits.isFinite_utility⟩,
      m, hok⟩
  · exact .inr ⟨e, herror, hfault.obstacle hvalid⟩

/-! ## Setting up -/

namespace Solver
variable {settings : Solver.Settings α} {oracle : Oracle α} {inst : Instance}

theorem setUp_builtIn_iff {coins : Dsa.Coins α} {m : UtilityMatrix α}
    {agents : List (Algorithm.Agent α)} :
    setUp (settings.algorithm.factory coins) settings (some oracle) inst = .ok (m, agents) ↔
      settings.Valid ∧ UtilityMatrix.build inst oracle settings.congestionPenalty = .ok m ∧
        agents = settings.algorithm.population coins m := by
  rw [setUp_eq_ok_iff]
  constructor
  · rintro ⟨_, horacle, hvalid, hbuild, hagents, -⟩
    cases horacle
    exact ⟨settings.checks_validate.eq_ok_iff.1 hvalid, hbuild,
      (Algorithm.agents_eq_ok_iff.1 hagents).2⟩
  · rintro ⟨hvalid, hbuild, rfl⟩
    have hagents : settings.algorithm.agents coins m = .ok _ :=
      Algorithm.agents_eq_ok_iff.2 ⟨hvalid.algorithm, rfl⟩
    exact ⟨oracle, rfl, settings.checks_validate.eq_ok_iff.2 hvalid, hbuild, hagents,
      (Algorithm.peopled_of_agents hagents).ids_eq⟩

/-- Either nothing is in the way of setting up, or the first obstacle is what it fails with. -/
theorem setUp_cases (coins : Dsa.Coins α) (settings : Solver.Settings α) (oracle : Oracle α)
    (inst : Instance) :
    (Accepts settings oracle inst ∧ ∃ m,
      setUp (settings.algorithm.factory coins) settings (some oracle) inst =
        .ok (m, settings.algorithm.population coins m)) ∨
    ∃ e, setUp (settings.algorithm.factory coins) settings (some oracle) inst = .error e ∧
      Obstacle settings oracle inst e := by
  rcases settings.checks_validate with ⟨hvalid, hok⟩ | ⟨hinvalid, cause, herror⟩
  · rcases UtilityMatrix.build_cases hvalid oracle inst with ⟨haccepts, m, hbuild⟩ |
      ⟨e, hbuild, hobstacle⟩
    · exact .inl ⟨haccepts, m, setUp_builtIn_iff.2 ⟨hvalid, hbuild, rfl⟩⟩
    · refine .inr ⟨e, ?_, hobstacle⟩
      simp only [setUp, hok, hbuild, bind, Except.bind]
  · refine .inr ⟨.configuration cause, ?_, .settings hinvalid⟩
    simp only [setUp, herror, bind, Except.bind]

theorem Accepts.setUp_eq (h : Accepts settings oracle inst) (coins : Dsa.Coins α) :
    ∃ m, setUp (settings.algorithm.factory coins) settings (some oracle) inst =
      .ok (m, settings.algorithm.population coins m) := by
  rcases setUp_cases coins settings oracle inst with ⟨-, hok⟩ | ⟨e, -, hobstacle⟩
  · exact hok
  · exact absurd h hobstacle.not_accepts

/-- Setting up fails exactly if one of the conditions is not met. -/
theorem setUp_fails_iff (coins : Dsa.Coins α) :
    (∃ e, setUp (settings.algorithm.factory coins) settings (some oracle) inst = .error e) ↔
      ¬ Accepts settings oracle inst := by
  constructor
  · rintro ⟨e, herror⟩ haccepts
    obtain ⟨m, hok⟩ := haccepts.setUp_eq coins
    cases hok.symm.trans herror
  · intro hnot
    rcases setUp_cases coins settings oracle inst with ⟨haccepts, -⟩ | ⟨e, herror, -⟩
    · exact absurd haccepts hnot
    · exact ⟨e, herror⟩

theorem accepts_of_setUp {coins : Dsa.Coins α} {m : UtilityMatrix α}
    {agents : List (Algorithm.Agent α)}
    (h : setUp (settings.algorithm.factory coins) settings (some oracle) inst = .ok (m, agents)) :
    Accepts settings oracle inst := by
  rcases setUp_cases coins settings oracle inst with ⟨haccepts, -⟩ | ⟨e, herror, -⟩
  · exact haccepts
  · cases h.symm.trans herror

theorem setUp_eq_error {coins : Dsa.Coins α} {e : Error α}
    (h : setUp (settings.algorithm.factory coins) settings (some oracle) inst = .error e) :
    Obstacle settings oracle inst e := by
  rcases setUp_cases coins settings oracle inst with ⟨-, m, hok⟩ | ⟨e', herror, hobstacle⟩
  · cases hok.symm.trans h
  · cases herror.symm.trans h
    exact hobstacle

end Solver

end Dispatch
