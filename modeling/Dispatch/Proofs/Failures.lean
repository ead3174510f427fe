import Mathlib
import Dispatch.Proofs.Acceptance
import Dispatch.Proofs.Convergence
import Dispatch.Proofs.Embedding
import Dispatch.Proofs.Optimality
/-!
# How a solve can fail

Once a solve with a built-in algorithm is set up, nothing is left that could go wrong but a value of
Max-Sum that is not finite. What the agents post is finite and comes from themselves, so sending
never fails; no step of DSA fails (`Dsa.Agent.step_succeeds`), and one of Max-Sum only with the
value it could not queue (`MaxSum.Agent.divergent_of_step`). Rounds fail as their agents do, and
solves as their rounds (`Solver.play_ends`). `Solver.solve_fails_in_known_ways` says how.
-/

namespace Dispatch

variable {α σ ε β : Type}

/-- Comes to something with the property `P`, or fails with `Q`. -/
def Ends (P : β → Prop) (Q : ε → Prop) : Except ε β → Prop
  | .ok b => P b
  | .error e => Q e

theorem Ends.cases {P : β → Prop} {Q : ε → Prop} {x : Except ε β} (h : Ends P Q x) :
    (∃ b, x = .ok b ∧ P b) ∨ ∃ e, x = .error e ∧ Q e := by
  cases x with
  | ok b => exact .inl ⟨b, rfl, h⟩
  | error e => exact .inr ⟨e, rfl, h⟩

theorem Ends.mono {P : β → Prop} {Q R : ε → Prop} {x : Except ε β} (h : Ends P Q x)
    (hQ : ∀ e, Q e → R e) : Ends P R x := by
  cases x with
  | ok b => exact h
  | error e => exact hQ e h

/-! ## Rounds fail as their agents do -/

namespace Round
variable [Agent α σ] {Q : Error α → Prop}

omit [Agent α σ] in
theorem map_eq_error {γ : Type} {f : β → γ} {x : Except ε β} {e : ε} (h : x.map f = .error e) :
    x = .error e := by
  cases x with
  | error e' =>
    cases h
    rfl
  | ok b => cases h

section Steps
variable (hstep : ∀ (a : σ) inbox e, (Agent.step a inbox).answer = .error e → Q e)
include hstep

theorem error_of_stepAll {box : Mailbox α} {agents : List σ} {e : Error α}
    (h : (stepAll box agents).answer = .error e) : Q e := by
  induction agents generalizing box with
  | nil => cases h
  | cons a rest ih =>
    simp only [stepAll] at h
    split at h
    · rename_i e' hanswer
      cases h
      exact hstep a _ _ hanswer
    · exact ih (map_eq_error h)

theorem error_of_stepInOrder {box : Mailbox α} {agents : List σ} {order : List Nat} {e : Error α}
    (h : (stepInOrder box agents order).answer = .error e) : Q e := by
  induction order generalizing box agents with
  | nil => cases h
  | cons i rest ih =>
    simp only [stepInOrder] at h
    split at h
    · exact ih h
    · rename_i a _
      split at h
      · rename_i e' hanswer
        cases h
        exact hstep a _ _ hanswer
      · exact ih (map_eq_error h)

/-- When nothing stands in the way of sending, a round fails only with the failure of a step. -/
theorem error_of_playRound [Scalar α] {settings : Solver.Settings α}
    {surroundings : Surroundings α} {round : Nat} {agents : List σ}
    (hsends : ∀ a ∈ agents, SendsFreely a) {e : Error α}
    (h : (Solver.playRound settings surroundings round agents).answer = .error e) : Q e := by
  unfold Solver.playRound at h
  split at h
  · rw [runConcurrent_of_sends _ (sends_of_sendsFreely hsends)] at h
    exact error_of_stepInOrder hstep (map_eq_error h)
  · rw [run_of_sends (sends_of_sendsFreely hsends)] at h
    exact error_of_stepAll hstep (map_eq_error h)

end Steps

end Round

/-! ## Steps of the built-in algorithms -/

namespace MaxSum.Agent
variable [Scalar α]

/-- A value of Max-Sum that could not be queued. -/
def Divergent (e : Error α) : Prop :=
  ∃ edge v, ¬ Scalar.isFinite v = true ∧ e = .divergentFactorGraph edge v

theorem divergent_of_emit {o : Outbox α} {vs : List (EdgeValue α)} {e : Error α}
    (h : (emit o vs).answer = .error e) : Divergent e := by
  induction vs generalizing o with
  | nil => cases h
  | cons v rest ih =>
    rcases o.send_cases v.edge v.value with ⟨-, hsend⟩ | ⟨hrefused, hsend⟩
    · simp only [emit, hsend] at h
      exact ih h
    · simp only [emit, hsend] at h
      cases h
      exact ⟨v.edge, v.value, by simp [hrefused], rfl⟩

theorem divergent_of_runUpdates {a : Agent α} {us : List (NodeUpdate α)} {e : Error α}
    (h : (a.runUpdates us).answer = .error e) : Divergent e := by
  induction us generalizing a with
  | nil => cases h
  | cons u rest ih =>
    simp only [runUpdates] at h
    split at h
    · rename_i e' hemit
      cases h
      exact divergent_of_emit hemit
    · exact ih h

theorem divergent_of_step {a : Agent α} {inbox : List (Message α)} {e : Error α}
    (h : (Dispatch.Agent.step a inbox).answer = .error e) : Divergent e := by
  have himprove : ((a.takeAll inbox).1.improve).answer = .error e := h
  unfold improve at himprove
  dsimp only at himprove
  split at himprove
  · rename_i e' hupdates
    cases himprove
    exact divergent_of_runUpdates hupdates
  · cases himprove

end MaxSum.Agent

namespace Dsa
variable [Scalar α]

theorem Agent.improve_succeeds (a : Agent α) : ∃ again, a.improve.answer = .ok again := by
  unfold improve
  dsimp only
  split
  · exact ⟨_, rfl⟩
  · split
    · exact ⟨_, rfl⟩
    · split <;> exact ⟨_, rfl⟩

namespace Population
variable {m : UtilityMatrix α} {agents : List (Agent α)}

/-- No round of DSA fails. -/
theorem exists_lockstep (h : Population m agents) (settings : Solver.Settings α)
    (surroundings : Surroundings α) (round : Nat) :
    ∃ posts flags, Round.Lockstep (wrap agents) posts flags
      (Solver.playRound settings surroundings round (wrap agents)) := by
  have hstep : ∀ box, ∀ a ∈ wrap agents,
      ∃ again, (Round.replyTo box (Dispatch.Agent.send a).agent).answer = .ok again := by
    intro box a ha
    obtain ⟨b, -, rfl⟩ := List.mem_map.1 ha
    exact Agent.improve_succeeds _
  obtain ⟨outcome, hok⟩ := Solver.playRound_succeeds settings surroundings round
    (sendsFreely agents) h.nodup_wrap fun _ _ => hstep _
  exact Solver.playRound_lockstep settings surroundings round (sendsFreely agents) h.nodup_wrap hok

end Population

end Dsa

/-! ## Solves fail as their rounds do -/

namespace Solver
variable [Scalar α]

/-- If rounds keep `P` and fail with `Q`, so does a whole course. -/
theorem play_ends [Agent α σ] {settings : Solver.Settings α} {surroundings : Surroundings α}
    {m : UtilityMatrix α} {P : List σ → Prop} {Q : Error α → Prop}
    (hround : ∀ round agents, P agents →
      Ends (fun _ => P (playRound settings surroundings round agents).agents) Q
        (playRound settings surroundings round agents).answer)
    (round : Nat) {agents : List σ} (h : P agents) (remaining : Nat) :
    Ends (fun last => P last.2) Q
      (play settings surroundings m round agents remaining).ending := by
  induction remaining generalizing round agents with
  | zero => exact h
  | succ remaining ih =>
    have hnext := hround round agents h
    unfold play
    split
    · exact h
    · dsimp only
      split
      · rename_i e hanswer
        rwa [hanswer] at hnext
      · rename_i outcome hanswer
        rw [hanswer] at hnext
        split
        · exact ih (round + 1) hnext
        · exact hnext

/-- A solve that is set up ends as its rounds do. -/
theorem solve_ends [Agent α σ] {factory : Factory α σ} {settings : Solver.Settings α}
    {oracle : Option (Oracle α)} {surroundings : Surroundings α} {inst : Instance}
    {m : UtilityMatrix α} {agents : List σ}
    (hsetUp : setUp factory settings oracle inst = .ok (m, agents))
    {P : Termination × List σ → Prop} {Q : Error α → Prop}
    (h : Ends P Q (play settings surroundings m 1 agents settings.maxRounds).ending) :
    Ends (fun _ => True) Q (solve factory settings oracle surroundings inst).answer := by
  unfold solve
  rw [hsetUp]
  dsimp only
  split
  · rename_i e hending
    rwa [hending] at h
  · trivial

/-- The agents of Max-Sum as the solver sees them, in step with the recurrence. -/
def InStep (s : MaxSum.Settings α) (m : UtilityMatrix α) (agents : List (Algorithm.Agent α)) :
    Prop :=
  ∃ n inner, MaxSum.Population s m n inner ∧ agents = inner.map .maxSum

/-- A round of Max-Sum either keeps the agents in step, or some value in it is not finite. -/
theorem inStep_playRound [OrderedScalar α] {s : MaxSum.Settings α} {m : UtilityMatrix α}
    (settings : Solver.Settings α) (surroundings : Surroundings α) (round : Nat)
    {agents : List (Algorithm.Agent α)} (h : InStep s m agents) :
    Ends (fun _ => InStep s m (playRound settings surroundings round agents).agents)
      MaxSum.Agent.Divergent (playRound settings surroundings round agents).answer := by
  obtain ⟨n, inner, hpop, rfl⟩ := h
  rw [playRound_map settings surroundings Algorithm.Agent.embeds_maxSum]
  show Ends _ _ (playRound settings surroundings round inner).answer
  cases hanswer : (playRound settings surroundings round inner).answer with
  | error e =>
    exact Round.error_of_playRound (Q := MaxSum.Agent.Divergent)
      (fun _ _ _ => MaxSum.Agent.divergent_of_step) hpop.sendsFreely hanswer
  | ok outcome =>
    obtain ⟨posts, flags, hlock⟩ := playRound_lockstep settings surroundings round
      hpop.sendsFreely hpop.nodup_sent_ids hanswer
    exact ⟨n + 1, _, (hpop.next hlock).1, rfl⟩

/-- The agents of DSA as the solver sees them. -/
def Announcing (m : UtilityMatrix α) (agents : List (Algorithm.Agent α)) : Prop :=
  ∃ inner, Dsa.Population m inner ∧ agents = Dsa.Population.wrap inner

theorem announcing_playRound {m : UtilityMatrix α} (settings : Solver.Settings α)
    (surroundings : Surroundings α) (round : Nat) {agents : List (Algorithm.Agent α)}
    (h : Announcing m agents) :
    Ends (fun _ => Announcing m (playRound settings surroundings round agents).agents)
      (fun _ => False) (playRound settings surroundings round agents).answer := by
  obtain ⟨inner, hpop, rfl⟩ := h
  obtain ⟨posts, flags, hlock⟩ := hpop.exists_lockstep settings surroundings round
  obtain ⟨next, hnext, hkept⟩ := hpop.population_of_lockstep hlock
  rw [hlock.answer_eq]
  exact ⟨next, hkept, hnext⟩

/-- What holds of each agent of DSA at the start, and after a round if it did before, holds of each
after any number of rounds. -/
theorem dsa_after {settings : Solver.Settings α} {surroundings : Surroundings α}
    {m : UtilityMatrix α} {P : Nat → Dsa.Agent α → Prop} (coins : Dsa.Coins α)
    (parameters : Dsa.Settings α) (hstart : ∀ a ∈ Dsa.agents coins parameters m, P 0 a)
    (hround : ∀ n agents, Dsa.Population m agents → (∀ a ∈ agents, P n a) →
      ∀ posts flags progress,
        Round.Lockstep (Dsa.Population.wrap agents) posts flags progress →
          ∃ next, progress.agents = Dsa.Population.wrap next ∧ Dsa.Population m next ∧
            ∀ a ∈ next, P (n + 1) a)
    (n : Nat) :
    ∃ inner,
      after settings surroundings (Dsa.Population.wrap (Dsa.agents coins parameters m)) n =
        Dsa.Population.wrap inner ∧
      Dsa.Population m inner ∧ ∀ a ∈ inner, P n a := by
  induction n with
  | zero => exact ⟨_, rfl, .start coins parameters m, hstart⟩
  | succ n ih =>
    obtain ⟨inner, hinner, hpop, hall⟩ := ih
    obtain ⟨posts, flags, hlock⟩ := hpop.exists_lockstep settings surroundings (n + 1)
    obtain ⟨next, hnext, hkept, hall'⟩ := hround n inner hpop hall posts flags _ hlock
    exact ⟨next, by rw [after, hinner, hnext], hkept, hall'⟩

/-- A solve that is set up comes to a solution, or it runs Max-Sum and some value is not finite. -/
theorem solveBuiltIn_ends [OrderedScalar α] {coins : Dsa.Coins α} {settings : Solver.Settings α}
    {oracle : Oracle α} {inst : Instance} {m : UtilityMatrix α}
    {agents : List (Algorithm.Agent α)}
    (h : setUp (settings.algorithm.factory coins) settings (some oracle) inst = .ok (m, agents))
    (surroundings : Surroundings α) :
    Ends (fun _ => True)
      (fun e => (∃ s, settings.algorithm = .maxSum s) ∧ MaxSum.Agent.Divergent e)
      (solveBuiltIn coins settings (some oracle) surroundings inst).answer := by
  obtain ⟨-, -, hagents⟩ := setUp_builtIn_iff.1 h
  cases halgorithm : settings.algorithm with
  | maxSum s =>
    have hstart : InStep s m agents := by
      rw [hagents, halgorithm]
      exact ⟨0, _, .start s m, rfl⟩
    exact (solve_ends h (play_ends (inStep_playRound settings surroundings) 1 hstart
      settings.maxRounds)).mono fun e he => ⟨⟨s, rfl⟩, he⟩
  | dsa d =>
    have hstart : Announcing m agents := by
      rw [hagents, halgorithm]
      exact ⟨_, .start coins d m, rfl⟩
    exact (solve_ends h (play_ends (announcing_playRound settings surroundings) 1 hstart
      settings.maxRounds)).mono fun e he => he.elim

/-- With doubles, a solve with a built-in algorithm fails before its first round exactly if the
settings are invalid, an agent or a target is listed twice, or some utility is not finite, and then
with the first of these in this order. Once it starts, DSA comes to a solution, and Max-Sum comes to
one or stops at a value that is not finite. -/
theorem solve_fails_in_known_ways (coins : Dsa.Coins Float) (settings : Solver.Settings Float)
    (oracle : Oracle Float) (surroundings : Surroundings Float) (inst : Instance) :
    let start := setUp (settings.algorithm.factory coins) settings (some oracle) inst
    let outcome := solveBuiltIn coins settings (some oracle) surroundings inst
    ((∃ e, start = .error e) ↔
      ¬ settings.Valid ∨ ¬ inst.agents.Nodup ∨ ¬ inst.targets.Nodup ∨
        ∃ a ∈ inst.agents, ∃ t ∈ inst.targets,
          ¬ Scalar.isFinite (oracle.utility a t) = true) ∧
    (∀ e, start = .error e → Obstacle settings oracle inst e ∧ outcome = ⟨[], .error e⟩) ∧
    (∀ m agents, start = .ok (m, agents) →
      (∀ d, settings.algorithm = .dsa d → ∃ solution, outcome.answer = .ok solution) ∧
      (∀ s, settings.algorithm = .maxSum s → (∃ solution, outcome.answer = .ok solution) ∨
        ∃ edge v, ¬ Scalar.isFinite v = true ∧
          outcome.answer = .error (.divergentFactorGraph edge v))) := by
  intro start outcome
  refine ⟨(setUp_fails_iff coins).trans not_accepts_iff, fun e he => ⟨setUp_eq_error he, ?_⟩,
    fun m agents hok => ?_⟩
  · show solve _ _ _ _ _ = _
    rw [solve, show setUp _ _ _ _ = _ from he]
  · rcases (solveBuiltIn_ends hok surroundings).cases with ⟨solution, hsolution, -⟩ |
      ⟨e, herror, ⟨s, hmaxSum⟩, edge, v, hinfinite, rfl⟩
    · exact ⟨fun _ _ => ⟨solution, hsolution⟩, fun _ _ => .inl ⟨solution, hsolution⟩⟩
    · refine ⟨fun d hdsa => ?_, fun _ _ => .inr ⟨edge, v, hinfinite, herror⟩⟩
      cases hdsa.symm.trans hmaxSum

/-- Finite utilities can be too far apart for a double to tell by how much. -/
example :
    let oracle : Oracle Float :=
      ⟨fun _ t => if t = .ofNat 2 then 1.7e308 else -1.7e308, fun _ => 1⟩
    let inst : Instance := ⟨[.ofNat 1], [.ofNat 2, .ofNat 3], .empty⟩
    (match (solveBuiltIn (fun _ _ _ => true) .default (some oracle) .still inst).answer with
      | .error (.divergentFactorGraph edge _) => some edge
      | _ => none) = some ⟨.ofAgent (.ofNat 1), .ofTarget (.ofNat 2)⟩ := by
  decide +kernel

end Solver

end Dispatch
