import Mathlib
import Dispatch.Algorithm
import Dispatch.Proofs.Trace
/-!
# Embedded agents

A solver drives the agents of the built-in algorithms as members of one type. `Agent.Embeds` says of
a function between two kinds of agents that it changes nothing they do. A population then goes
through the same rounds on either side (`Solver.playRound_map`), and so comes to the same after any
number of them (`Solver.after_map`), with the same targets held (`Solver.held_map`). Its course
shows the same records (`Solver.plays_map_iff`).
-/

namespace Dispatch

variable {α σ τ β : Type}

/-- The same with another agent. -/
def Outgoing.map (f : σ → τ) (out : Outgoing α σ) : Outgoing α τ :=
  ⟨f out.agent, out.notes, out.posts, out.reported⟩

/-- The same with another agent. -/
def Reply.map (f : σ → τ) (reply : Reply α σ β) : Reply α τ β :=
  ⟨f reply.agent, reply.notes, reply.answer⟩

/-- The same with other agents. -/
def Progress.map (f : σ → τ) (progress : Progress α σ β) : Progress α τ β :=
  ⟨progress.agents.map f, progress.mailbox, progress.events, progress.answer⟩

/-- Agents do the same before and after. -/
structure Agent.Embeds [Agent α σ] [Agent α τ] (f : σ → τ) : Prop where
  id_eq : ∀ a, Agent.id (f a) = Agent.id a
  target_eq : ∀ a, Agent.target (f a) = Agent.target a
  send_eq : ∀ a, Agent.send (f a) = (Agent.send a).map f
  receive_eq : ∀ a inbox, Agent.receive (f a) inbox = (Agent.receive a inbox).map f
  improve_eq : ∀ a, Agent.improve (f a) = (Agent.improve a).map f
  checks_eq : ∀ a, Agent.checks (f a) = Agent.checks a

namespace Agent.Embeds
variable [Agent α σ] [Agent α τ] {f : σ → τ} (h : Embeds f)
include h

theorem step_eq (a : σ) (inbox : List (Message α)) :
    Agent.step (f a) inbox = (Agent.step a inbox).map f := by
  simp only [Agent.step, h.receive_eq, Reply.map]
  cases (Agent.receive a inbox).answer with
  | error e => rfl
  | ok _ => simp only [h.improve_eq, Reply.map]

theorem sendAll_map [Scalar α] (box : Mailbox α) (agents : List σ) :
    Round.sendAll box (agents.map f) = (Round.sendAll box agents).map f := by
  induction agents generalizing box with
  | nil => rfl
  | cons a rest ih =>
    have hdeliver : Round.deliver box ((Agent.send a).map f) = Round.deliver box (Agent.send a) :=
      rfl
    simp only [List.map_cons, Round.sendAll, h.send_eq, hdeliver, ih]
    split <;> rfl

theorem stepAll_map (box : Mailbox α) (agents : List σ) :
    Round.stepAll box (agents.map f) = (Round.stepAll box agents).map f := by
  induction agents generalizing box with
  | nil => rfl
  | cons a rest ih =>
    simp only [List.map_cons, Round.stepAll, h.id_eq, h.step_eq, Reply.map, ih]
    split <;> rfl

theorem sendInterleaved_map [Scalar α] (picks : List Nat) (agents : List σ) :
    Round.sendInterleaved picks (agents.map f) = (Round.sendInterleaved picks agents).map f := by
  have hsend : (agents.map f).map Agent.send = (agents.map Agent.send).map (Outgoing.map f) := by
    rw [List.map_map, List.map_map]
    exact List.map_congr_left fun a _ => h.send_eq a
  simp only [Round.sendInterleaved, Progress.map, hsend]
  generalize agents.map Agent.send = outs
  simp only [List.mapM_map, List.map_map, List.flatMap_map]
  rfl

theorem stepInOrder_map (box : Mailbox α) (agents : List σ) (order : List Nat) :
    Round.stepInOrder box (agents.map f) order = (Round.stepInOrder box agents order).map f := by
  induction order generalizing box agents with
  | nil => rfl
  | cons i rest ih =>
    simp only [Round.stepInOrder, List.getElem?_map]
    cases agents[i]? with
    | none => exact ih box agents
    | some a =>
      simp only [Option.map_some, h.id_eq, h.step_eq, Reply.map, ← List.map_set, ih]
      split <;> rfl

theorem run_map [Scalar α] (agents : List σ) :
    Round.run (agents.map f) = (Round.run agents).map f := by
  simp only [Round.run, h.sendAll_map, Progress.map, h.stepAll_map]
  split <;> rfl

theorem runConcurrent_map [Scalar α] (schedule : Schedule) (agents : List σ) :
    Round.runConcurrent schedule (agents.map f) = (Round.runConcurrent schedule agents).map f := by
  simp only [Round.runConcurrent, h.sendInterleaved_map, Progress.map, h.stepInOrder_map,
    List.length_map]
  split <;> rfl

end Agent.Embeds

namespace Solver
variable [Agent α σ] [Agent α τ] {f : σ → τ}

theorem held_map (h : Agent.Embeds f) (agents : List σ) : held (agents.map f) = held agents := by
  rw [held, held, List.filterMap_map]
  congr 1
  apply List.filterMap_congr
  intro a _
  rw [Function.comp_apply, h.target_eq, h.id_eq]

variable [Scalar α] (settings : Solver.Settings α) (surroundings : Surroundings α)

theorem playRound_map (h : Agent.Embeds f) (round : Nat) (agents : List σ) :
    playRound settings surroundings round (agents.map f) =
      (playRound settings surroundings round agents).map f := by
  unfold playRound
  split
  · exact h.runConcurrent_map _ agents
  · exact h.run_map agents

theorem after_map (h : Agent.Embeds f) (agents : List σ) (n : Nat) :
    after settings surroundings (agents.map f) n =
      (after settings surroundings agents n).map f := by
  induction n with
  | zero => rfl
  | succ n ih =>
    rw [after, ih, playRound_map settings surroundings h]
    rfl

theorem asksAgain_map (h : Agent.Embeds f) (agents : List σ) (n : Nat) :
    AsksAgain settings surroundings (agents.map f) n ↔
      AsksAgain settings surroundings agents n := by
  rw [AsksAgain, AsksAgain, after_map settings surroundings h,
    playRound_map settings surroundings h]
  rfl

theorem summarise_map (h : Agent.Embeds f) (m : UtilityMatrix α) (before after : List σ)
    (outcome : Round.Outcome α) :
    summarise m (before.map f) (after.map f) outcome = summarise m before after outcome := by
  have hchecks : roundChecks (before.map f) (after.map f) = roundChecks before after := by
    simp only [roundChecks, List.zipWith_map, h.checks_eq]
  simp only [summarise, held_map h, hchecks]

variable {settings surroundings} {m : UtilityMatrix α} {round remaining : Nat} {agents : List σ}
  {records : List (RoundRecord α)} {termination : Termination}

theorem Plays.map (h : Agent.Embeds f) {last : List σ}
    (hplays : Plays settings surroundings m round agents remaining records termination last) :
    Plays settings surroundings m round (agents.map f) remaining records termination
      (last.map f) := by
  have hmap : ∀ {round agents outcome next},
      (playRound settings surroundings round agents).EndsWith outcome next →
        (playRound settings surroundings round (agents.map f)).EndsWith outcome (next.map f) := by
    rintro round agents outcome _ ⟨hanswer, rfl⟩
    rw [playRound_map settings surroundings h]
    exact ⟨hanswer, rfl⟩
  induction hplays with
  | limit => exact .limit
  | late htime => exact .late htime
  | quiet htime hround hquiet =>
    rw [← summarise_map h]
    exact .quiet htime (hmap hround) hquiet
  | again htime hround hrestless _ ih =>
    rw [← summarise_map h]
    exact .again htime (hmap hround) hrestless ih

/-- The course of embedded agents is that of the agents themselves. -/
theorem plays_map_iff (h : Agent.Embeds f) {last : List τ} :
    Plays settings surroundings m round (agents.map f) remaining records termination last ↔
      ∃ inner, Plays settings surroundings m round agents remaining records termination inner ∧
        last = inner.map f := by
  constructor
  · intro hplays
    generalize hagents : agents.map f = embedded at hplays
    have hunmap : ∀ {round outcome next} {agents : List σ},
        (playRound settings surroundings round (agents.map f)).EndsWith outcome next →
          ∃ inner, (playRound settings surroundings round agents).EndsWith outcome inner ∧
            next = inner.map f := by
      rintro round outcome _ agents ⟨hanswer, rfl⟩
      rw [playRound_map settings surroundings h] at hanswer ⊢
      exact ⟨_, ⟨hanswer, rfl⟩, rfl⟩
    induction hplays generalizing agents with
    | limit => exact ⟨agents, .limit, hagents.symm⟩
    | late htime => exact ⟨agents, .late htime, hagents.symm⟩
    | quiet htime hround hquiet =>
      obtain ⟨inner, hinner, rfl⟩ := hunmap (hagents ▸ hround)
      rw [← hagents, summarise_map h]
      exact ⟨inner, .quiet htime hinner hquiet, rfl⟩
    | again htime hround hrestless _ ih =>
      obtain ⟨inner, hinner, rfl⟩ := hunmap (hagents ▸ hround)
      obtain ⟨last, hlast, rfl⟩ := ih rfl
      rw [← hagents, summarise_map h]
      exact ⟨last, .again htime hinner hrestless hlast, rfl⟩
  · rintro ⟨inner, hplays, rfl⟩
    exact hplays.map h

end Solver

theorem Algorithm.Agent.embeds_maxSum [Scalar α] :
    Agent.Embeds (maxSum : MaxSum.Agent α → Algorithm.Agent α) :=
  ⟨fun _ => rfl, fun _ => rfl, fun _ => rfl, fun _ _ => rfl, fun _ => rfl, fun _ => rfl⟩

end Dispatch
