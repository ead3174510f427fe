import Mathlib
import Dispatch.Proofs.Announcements
/-!
# Honest agents

Agents are honest if they post in their own name and keep it (`Agent.Honest`); those of the built-in
algorithms are. `Agent.Evolved` relates a population to what it can become, agent by agent. No
round leaves what the population can become, whether it succeeds or fails (`Round.evolved_run`,
`Round.evolved_runConcurrent`), and honest agents keep their identifiers
throughout (`Agent.Evolved.ids_eq`).
-/

namespace Dispatch

variable {α σ β : Type}

/-! ## Honest agents -/

/-- Agents that post in their own name, and keep it. -/
class Agent.Honest (σ : Type) [Agent α σ] : Prop where
  sender_eq : ∀ a : σ, ∀ m ∈ (Agent.send a).posts, m.sender = Agent.id a
  id_send : ∀ a : σ, Agent.id (Agent.send a).agent = Agent.id a
  id_receive : ∀ (a : σ) (inbox : List (Message α)),
    Agent.id (Agent.receive a inbox).agent = Agent.id a
  id_improve : ∀ a : σ, Agent.id (Agent.improve a).agent = Agent.id a

namespace MaxSum.Agent
variable [Scalar α]

theorem takeAll_id (a : Agent α) (inbox : List (Message α)) : (a.takeAll inbox).1.id = a.id := by
  induction inbox generalizing a with
  | nil => rfl
  | cons m rest ih =>
    rw [takeAll, ih]
    unfold take
    split
    · split <;> rfl
    · split <;> rfl
    · rfl

theorem runUpdates_id (a : Agent α) (updates : List (NodeUpdate α)) :
    (a.runUpdates updates).agent.id = a.id := by
  induction updates generalizing a with
  | nil => rfl
  | cons u rest ih =>
    rw [runUpdates]
    split
    · rfl
    · exact ih _

theorem improve_id (a : Agent α) : a.improve.agent.id = a.id := by
  rw [improve]
  split
  · exact a.runUpdates_id _
  · exact a.runUpdates_id _

instance : Dispatch.Agent.Honest (Agent α) where
  sender_eq a m hm := by
    obtain ⟨addressed, haddressed, hm⟩ := List.mem_filterMap.1 hm
    obtain ⟨v, -, rfl⟩ := List.mem_map.1 haddressed
    unfold address at hm
    split at hm
    · cases hm
      rfl
    · cases hm
  id_send _ := rfl
  id_receive := takeAll_id
  id_improve := improve_id

end MaxSum.Agent

namespace Dsa.Agent
variable [Scalar α]

theorem takeAll_id (a : Agent α) (inbox : List (Message α)) : (a.takeAll inbox).1.id = a.id := by
  induction inbox generalizing a with
  | nil => rfl
  | cons m rest ih =>
    rw [takeAll, ih]
    unfold take
    split <;> rfl

instance : Dispatch.Agent.Honest (Agent α) where
  sender_eq a m hm := by
    obtain ⟨other, -, rfl⟩ := List.mem_map.1 hm
    rfl
  id_send _ := rfl
  id_receive := takeAll_id
  id_improve := improve_id

end Dsa.Agent

instance [Scalar α] : Agent.Honest (Algorithm.Agent α) where
  sender_eq
    | .maxSum a, m, hm => Agent.Honest.sender_eq a m hm
    | .dsa a, m, hm => Agent.Honest.sender_eq a m hm
  id_send
    | .maxSum a => Agent.Honest.id_send a
    | .dsa a => Agent.Honest.id_send a
  id_receive
    | .maxSum a, inbox => Agent.Honest.id_receive a inbox
    | .dsa a, inbox => Agent.Honest.id_receive a inbox
  id_improve
    | .maxSum a => Agent.Honest.id_improve a
    | .dsa a => Agent.Honest.id_improve a

/-! ## What agents can become -/

namespace Agent
variable [Agent α σ]

/-- What an agent can become: it sends, receives whatever is sent to it, and improves, in any
order and however often. -/
inductive Evolves (a : σ) : σ → Prop
  | refl : Evolves a a
  | send {b : σ} (h : Evolves a b) : Evolves a (Agent.send b).agent
  | receive {b : σ} (h : Evolves a b) (inbox : List (Message α)) :
      Evolves a (Agent.receive b inbox).agent
  | improve {b : σ} (h : Evolves a b) : Evolves a (Agent.improve b).agent

theorem Evolves.step {a b : σ} (h : Evolves a b) (inbox : List (Message α)) :
    Evolves a (Agent.step b inbox).agent := by
  unfold Agent.step
  dsimp only
  split
  · exact h.receive inbox
  · exact (h.receive inbox).improve

theorem Evolves.id_eq [Honest σ] {a b : σ} (h : Evolves a b) : Agent.id b = Agent.id a := by
  induction h with
  | refl => rfl
  | send _ ih => rw [Honest.id_send, ih]
  | receive _ inbox ih => rw [Honest.id_receive, ih]
  | improve _ ih => rw [Honest.id_improve, ih]

/-- Each agent of a population has become the one in its place. -/
abbrev Evolved (start agents : List σ) : Prop := List.Forall₂ Evolves start agents

theorem Evolved.refl (agents : List σ) : Evolved agents agents := by
  induction agents with
  | nil => exact .nil
  | cons a rest ih => exact .cons .refl ih

theorem Evolved.ids_eq [Honest σ] {start agents : List σ} (h : Evolved start agents) :
    agents.map Agent.id = start.map Agent.id := by
  induction h with
  | nil => rfl
  | cons hab _ ih => rw [List.map_cons, List.map_cons, hab.id_eq, ih]

theorem Evolved.set {start agents : List σ} (h : Evolved start agents) {i : Nat} {a next : σ}
    (ha : agents[i]? = some a) (hnext : ∀ b, Evolves b a → Evolves b next) :
    Evolved start (agents.set i next) := by
  induction h generalizing i with
  | nil => exact .nil
  | @cons b c _ _ hbc hrest ih =>
    cases i with
    | zero =>
      cases ha
      exact .cons (hnext b hbc) hrest
    | succ i => exact .cons hbc (ih ha)

end Agent

namespace Round
variable [Scalar α] [Agent α σ]

theorem evolved_sendAll {start agents : List σ} (h : Agent.Evolved start agents)
    (box : Mailbox α) : Agent.Evolved start (sendAll box agents).agents := by
  induction h generalizing box with
  | nil => exact .nil
  | cons hab hrest ih =>
    simp only [sendAll]
    split
    · exact .cons hab.send hrest
    · exact .cons hab.send (ih _)

omit [Scalar α] in
theorem evolved_stepAll {start agents : List σ} (h : Agent.Evolved start agents)
    (box : Mailbox α) : Agent.Evolved start (stepAll box agents).agents := by
  induction h generalizing box with
  | nil => exact .nil
  | cons hab hrest ih =>
    simp only [stepAll]
    split
    · exact .cons (hab.step _) hrest
    · exact .cons (hab.step _) (ih _)

theorem evolved_sendInterleaved {start agents : List σ} (h : Agent.Evolved start agents)
    (picks : List Nat) : Agent.Evolved start (sendInterleaved picks agents).agents := by
  show List.Forall₂ Agent.Evolves start ((agents.map Agent.send).map (·.agent))
  rw [List.map_map, List.forall₂_map_right_iff]
  exact h.imp fun a b hab => hab.send

omit [Scalar α] in
theorem evolved_stepInOrder {start agents : List σ} (h : Agent.Evolved start agents)
    (box : Mailbox α) (order : List Nat) :
    Agent.Evolved start (stepInOrder box agents order).agents := by
  induction order generalizing box agents with
  | nil => exact h
  | cons i rest ih =>
    unfold stepInOrder
    split
    · exact ih h box
    · rename_i a ha
      have hset := h.set ha fun b hb => hb.step (box.drain (Agent.id a)).1
      dsimp only
      split
      · exact hset
      · exact ih hset _

/-- Whatever becomes of a round in turn, its agents have only sent, received and improved. -/
theorem evolved_run {start agents : List σ} (h : Agent.Evolved start agents) :
    Agent.Evolved start (run agents).agents := by
  unfold run
  dsimp only
  split
  · exact evolved_sendAll h _
  · exact evolved_stepAll (evolved_sendAll h _) _

/-- So have those of a concurrent round. -/
theorem evolved_runConcurrent {start agents : List σ} (h : Agent.Evolved start agents)
    (schedule : Schedule) : Agent.Evolved start (runConcurrent schedule agents).agents := by
  unfold runConcurrent
  dsimp only
  split
  · exact evolved_sendInterleaved h schedule.posts
  · exact evolved_stepInOrder (evolved_sendInterleaved h schedule.posts) _ _

end Round

end Dispatch
