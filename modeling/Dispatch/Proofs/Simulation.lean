import Mathlib
import Dispatch.Proofs.Recurrence
import Dispatch.Proofs.Rounds
/-!
# Rounds of Max-Sum follow the recurrence

A round takes a population that is in step with the recurrence one step further
(`Population.next`), so every run stays in step as long as its rounds succeed
(`rounds_follow_recurrence`): each edge carries the value of the recurrence, from the agent that
hosts its source to the one that hosts its destination, which takes it in.
-/

namespace Dispatch.MaxSum

variable {α : Type} [Scalar α]

/-- The values that wait in the outboxes for the next round. -/
def sent (agents : List (Agent α)) : List (EdgeValue α) := agents.flatMap (·.outbox.queue)

/-- The agents of a matrix, all in step with the recurrence after `n` rounds. -/
structure Population (settings : Settings α) (m : UtilityMatrix α) (n : Nat)
    (agents : List (Agent α)) : Prop where
  ids_eq : agents.map (·.id) = m.agents
  tracks : ∀ a ∈ agents, a.Tracks settings m n

namespace Population

theorem start (settings : Settings α) (m : UtilityMatrix α) :
    Population settings m 0 (MaxSum.agents settings m) := by
  refine ⟨?_, fun a ha => ?_⟩
  · rw [MaxSum.agents, List.map_map]
    exact List.map_id _
  · obtain ⟨id, -, rfl⟩ := List.mem_map.1 ha
    refine ⟨⟨rfl, rfl, rfl⟩, fun e he _ => ?_, rfl, fun _ _ => rfl, fun v hv => by cases hv⟩
    obtain ⟨b, t, rfl | rfl⟩ := FactorGraph.joins_of_mem_edges he <;> rfl

variable {settings : Settings α} {m : UtilityMatrix α} {n : Nat} {agents : List (Agent α)}

theorem nodup_ids (h : Population settings m n agents) : (agents.map (·.id)).Nodup :=
  h.ids_eq ▸ m.agents_nodup

theorem mem_agents (h : Population settings m n agents) {a : EntityId} :
    a ∈ m.agents ↔ ∃ b ∈ agents, b.id = a := by
  rw [← h.ids_eq, List.mem_map]

/-- What waits to be sent are the values of the last round, one for each edge. -/
theorem sent_perm (h : Population settings m n agents) (hn : n ≠ 0) :
    (sent agents).Perm ((FactorGraph.build m settings.maxTargets).edges.map fun e =>
      ⟨e, values settings m n e⟩) := by
  have hsent : sent agents = (m.agents.flatMap
      (FactorGraph.build m settings.maxTargets).edgesFrom).map fun e =>
        ⟨e, values settings m n e⟩ := by
    rw [sent, ← h.ids_eq, List.flatMap_map, List.map_flatMap]
    apply List.flatMap_congr
    intro a ha
    have htracks := h.tracks a ha
    rw [htracks.queue_eq, if_neg hn, htracks.graph_eq]
  rw [hsent]
  exact FactorGraph.edges_perm.map _

theorem finite [OrderedScalar α] (h : Population settings m n agents) :
    ∀ e ∈ (FactorGraph.build m settings.maxTargets).edges,
      Scalar.isFinite (values settings m n e) = true := by
  intro e he
  by_cases hn : n = 0
  · rw [hn]
    exact OrderedScalar.isFinite_zero
  · have hin : (⟨e, values settings m n e⟩ : EdgeValue α) ∈ sent agents :=
      (h.sent_perm hn).mem_iff.2 (List.mem_map_of_mem he)
    obtain ⟨a, ha, hin⟩ := List.mem_flatMap.1 hin
    exact (h.tracks a ha).finite _ hin

/-! ## Sending -/

/-- The hosts at both ends of an edge value in an agent's outbox. -/
theorem mem_queue (h : Population settings m n agents) {a : Agent α} (ha : a ∈ agents)
    {v : EdgeValue α} :
    v ∈ a.outbox.queue ↔ n ≠ 0 ∧ v.edge ∈ (FactorGraph.build m settings.maxTargets).edges ∧
      (FactorGraph.build m settings.maxTargets).host? v.edge.source = some a.id ∧
      v.value = values settings m n v.edge := by
  have htracks := h.tracks a ha
  rw [htracks.queue_eq, htracks.graph_eq]
  by_cases hn : n = 0
  · simp [hn]
  · rw [if_neg hn, List.mem_map]
    constructor
    · rintro ⟨e, he, rfl⟩
      obtain ⟨he, hhost⟩ := FactorGraph.mem_edgesFrom.1 he
      exact ⟨hn, he, hhost, rfl⟩
    · rintro ⟨-, he, hhost, hv⟩
      refine ⟨v.edge, FactorGraph.mem_edgesFrom.2 ⟨he, hhost⟩, ?_⟩
      rw [← hv]

/-- What waits to be sent are values of the recurrence on edges of the graph. -/
theorem mem_values (h : Population settings m n agents) {v : EdgeValue α}
    (hv : v ∈ sent agents) :
    n ≠ 0 ∧ v.edge ∈ (FactorGraph.build m settings.maxTargets).edges ∧
      v.value = values settings m n v.edge := by
  obtain ⟨a, ha, hin⟩ := List.mem_flatMap.1 hv
  obtain ⟨hn, he, -, hvalue⟩ := (h.mem_queue ha).1 hin
  exact ⟨hn, he, hvalue⟩

theorem toTarget_sent (h : Population settings m n agents) {a t : EntityId} {x : α} :
    ⟨.toTarget a t, x⟩ ∈ sent agents ↔ n ≠ 0 ∧
      t ∈ (FactorGraph.build m settings.maxTargets).candidatesOf a ∧
      x = values settings m n (.toTarget a t) := by
  constructor
  · intro hx
    obtain ⟨hn, he, hvalue⟩ := h.mem_values hx
    exact ⟨hn, FactorGraph.toTarget_mem_edges.1 he, hvalue⟩
  · rintro ⟨hn, ht, rfl⟩
    exact (h.sent_perm hn).mem_iff.2
      (List.mem_map.2 ⟨_, FactorGraph.toTarget_mem_edges.2 ht, rfl⟩)

theorem toAgent_sent (h : Population settings m n agents) {a t : EntityId} {x : α} :
    ⟨.toAgent t a, x⟩ ∈ sent agents ↔ n ≠ 0 ∧
      t ∈ (FactorGraph.build m settings.maxTargets).candidatesOf a ∧
      x = values settings m n (.toAgent t a) := by
  constructor
  · intro hx
    obtain ⟨hn, he, hvalue⟩ := h.mem_values hx
    exact ⟨hn, FactorGraph.toAgent_mem_edges.1 he, hvalue⟩
  · rintro ⟨hn, ht, rfl⟩
    exact (h.sent_perm hn).mem_iff.2
      (List.mem_map.2 ⟨_, FactorGraph.toAgent_mem_edges.2 ht, rfl⟩)

theorem edges_sent (h : Population settings m n agents) (hn : n ≠ 0) :
    ((sent agents).map (·.edge)).Perm (FactorGraph.build m settings.maxTargets).edges := by
  have hperm := (h.sent_perm hn).map (·.edge)
  rw [List.map_map] at hperm
  exact hperm.trans (.of_eq (List.map_id _))

theorem send_eq (h : Population settings m n agents) {a : Agent α} (ha : a ∈ agents) :
    Dispatch.Agent.send a = ⟨{ a with outbox := ⟨[], a.outbox.memory, true⟩ }, [],
      a.outbox.queue.map a.letter, .ok (a.outbox.queue.map a.letter)⟩ := by
  apply Agent.send_posts (a := a)
  intro v hv
  obtain ⟨-, he, -, -⟩ := (h.mem_queue ha).1 hv
  obtain ⟨-, b, -, hb⟩ := FactorGraph.mem_agents_of_host he
  exact ⟨b, by rw [(h.tracks a ha).graph_eq, hb]⟩

theorem id_send (h : Population settings m n agents) {a : Agent α} (ha : a ∈ agents) :
    Dispatch.Agent.id (Dispatch.Agent.send a).agent = a.id := by
  rw [h.send_eq ha]
  rfl

theorem sendsFreely (h : Population settings m n agents) :
    ∀ a ∈ agents, Round.SendsFreely a := by
  intro a ha
  rw [Round.SendsFreely, h.send_eq ha]
  refine ⟨rfl, fun msg hmsg => ?_⟩
  obtain ⟨v, hv, rfl⟩ := List.mem_map.1 hmsg
  exact (h.tracks a ha).finite v hv

theorem nodup_sent_ids (h : Population settings m n agents) :
    (agents.map fun a => Dispatch.Agent.id (Dispatch.Agent.send a).agent).Nodup := by
  have hids : (agents.map fun a => Dispatch.Agent.id (Dispatch.Agent.send a).agent) =
      agents.map (·.id) := List.map_congr_left fun a ha => h.id_send ha
  rw [hids]
  exact h.nodup_ids

/-- What is posted: the value of every edge, from the host of its source to the host of its
destination. -/
theorem mem_posts (h : Population settings m n agents) {msg : Message α} :
    msg ∈ agents.flatMap (fun a => (Dispatch.Agent.send a).posts) ↔
      n ≠ 0 ∧ ∃ e ∈ (FactorGraph.build m settings.maxTargets).edges,
        (FactorGraph.build m settings.maxTargets).host? e.source = some msg.sender ∧
        (FactorGraph.build m settings.maxTargets).host? e.dest = some msg.recipient ∧
        msg.payload = .factor e (values settings m n e) := by
  have hletter : ∀ a ∈ agents, ∀ v ∈ a.outbox.queue,
      (FactorGraph.build m settings.maxTargets).host? v.edge.dest =
        some (a.letter v).recipient := by
    intro a ha v hv
    obtain ⟨-, he, -, -⟩ := (h.mem_queue ha).1 hv
    obtain ⟨-, b, -, hb⟩ := FactorGraph.mem_agents_of_host he
    rw [Agent.letter, (h.tracks a ha).graph_eq, hb, Option.getD_some]
  have hposts : ∀ a ∈ agents,
      (Dispatch.Agent.send a).posts = a.outbox.queue.map a.letter := by
    intro a ha
    rw [h.send_eq ha]
  rw [List.mem_flatMap]
  constructor
  · rintro ⟨a, ha, hmsg⟩
    rw [hposts a ha] at hmsg
    obtain ⟨v, hv, rfl⟩ := List.mem_map.1 hmsg
    obtain ⟨hn, he, hsource, hvalue⟩ := (h.mem_queue ha).1 hv
    exact ⟨hn, v.edge, he, hsource, hletter a ha v hv, by rw [Agent.letter, hvalue]⟩
  · rintro ⟨hn, e, he, hsource, hdest, hpayload⟩
    obtain ⟨⟨b, hb, hhost⟩, -⟩ := FactorGraph.mem_agents_of_host he
    obtain ⟨a, ha, rfl⟩ := h.mem_agents.1 hb
    have hv : (⟨e, values settings m n e⟩ : EdgeValue α) ∈ a.outbox.queue :=
      (h.mem_queue ha).2 ⟨hn, he, hhost, rfl⟩
    refine ⟨a, ha, ?_⟩
    rw [hposts a ha]
    refine List.mem_map.2 ⟨_, hv, ?_⟩
    have hsender : msg.sender = a.id := Option.some.inj (hsource.symm.trans hhost)
    have hrecipient : (a.letter ⟨e, values settings m n e⟩).recipient = msg.recipient :=
      Option.some.inj ((hletter a ha _ hv).symm.trans hdest)
    cases msg
    simp_all [Agent.letter]

theorem sent_payloads (h : Population settings m n agents) :
    ((agents.map fun a => (Dispatch.Agent.send a).posts).flatten).map (·.payload) =
      (sent agents).map fun v => .factor v.edge v.value := by
  rw [← List.flatMap_def, List.map_flatMap, sent, List.map_flatMap]
  apply List.flatMap_congr
  intro a ha
  rw [h.send_eq ha, List.map_map]
  rfl

/-! ## Receiving and improving -/

variable {posts : List (Message α)}

/-- Once all have sent, an agent hears the values of the last round on all edges to its nodes. -/
theorem heard_receive (h : Population settings m n agents)
    (hposts : posts.Perm (agents.flatMap fun a => (Dispatch.Agent.send a).posts)) {a : Agent α}
    (ha : a ∈ agents) :
    (a.send.agent.takeAll ((Mailbox.mk posts).inbox a.id)).2 = [] ∧
      (∃ x y, (a.send.agent.takeAll ((Mailbox.mk posts).inbox a.id)).1 =
        { a with outbox := ⟨[], a.outbox.memory, true⟩, fromFunctions := x, toFunctions := y }) ∧
      ∀ e ∈ a.graph.edges, a.graph.host? e.dest = some a.id →
        (a.send.agent.takeAll ((Mailbox.mk posts).inbox a.id)).1.heard e =
          values settings m n e := by
  have htracks := h.tracks a ha
  have hgraph := htracks.graph_eq
  have hinbox : ∀ {msg}, msg ∈ (Mailbox.mk posts).inbox a.id ↔
      msg ∈ agents.flatMap (fun a => (Dispatch.Agent.send a).posts) ∧ msg.recipient = a.id := by
    intro msg
    rw [Mailbox.mem_inbox, hposts.mem_iff]
  have hsend : a.send.agent = { a with outbox := ⟨[], a.outbox.memory, true⟩ } :=
    congrArg Outgoing.agent (h.send_eq ha)
  have hvalues : ∀ msg ∈ (Mailbox.mk posts).inbox a.id, ∃ e,
      msg.payload = .factor e (values settings m n e) ∧ e.Joins ∧
        a.send.agent.graph.host? e.dest = some a.send.agent.id := by
    intro msg hmsg
    obtain ⟨hmsg, hto⟩ := hinbox.1 hmsg
    obtain ⟨-, e, he, -, hdest, hpayload⟩ := h.mem_posts.1 hmsg
    refine ⟨e, hpayload, FactorGraph.joins_of_mem_edges he, ?_⟩
    rw [hsend, hgraph, hdest, hto]
  obtain ⟨hnotes, ⟨x, y, hframe⟩, hall⟩ := Agent.heard_takeAll hvalues
  refine ⟨hnotes, ⟨x, y, by rw [hframe, hsend]⟩, fun e he hto => ?_⟩
  have hjoins : e.Joins := FactorGraph.joins_of_mem_edges (hgraph ▸ he)
  obtain ⟨hin, hout⟩ := hall e hjoins (by rw [hsend]; exact hto)
  by_cases hn : n = 0
  · -- before the first round nothing is sent, and what is heard is still the initial zero
    have hsame : a.send.agent.heard e = a.heard e := by
      rw [hsend]
      obtain ⟨b, t, rfl | rfl⟩ := hjoins <;> rfl
    have hnone : ∀ msg ∈ (Mailbox.mk posts).inbox a.id,
        msg.payload ≠ .factor e (values settings m n e) :=
      fun msg hmsg => absurd hn (h.mem_posts.1 (hinbox.1 hmsg).1).1
    rw [hout hnone, hsame, htracks.hears e he hto, hn]
  · -- the host of the source has posted the value, and it has come to this agent
    rw [hgraph] at he hto
    obtain ⟨⟨b, -, hb⟩, -⟩ := FactorGraph.mem_agents_of_host he
    refine hin ⟨⟨b, a.id, .factor e (values settings m n e)⟩, hinbox.2 ⟨?_, rfl⟩, rfl⟩
    exact h.mem_posts.2 ⟨hn, e, he, hb, hto, rfl⟩

/-- What is left to a round once all have sent: every agent, its outbox emptied, improves on the
values of the last round. -/
theorem replyTo_eq_improve (h : Population settings m n agents)
    (hposts : posts.Perm (agents.flatMap fun a => (Dispatch.Agent.send a).posts)) {a : Agent α}
    (ha : a ∈ agents) :
    ∃ b : Agent α, Round.replyTo ⟨posts⟩ (Dispatch.Agent.send a).agent = b.improve ∧
      b.id = a.id ∧ b.target = a.target ∧ b.outbox = ⟨[], a.outbox.memory, true⟩ ∧
      b.Fits settings m ∧ b.Hears (values settings m n) ∧ Agent.Remembers settings m n b ∧
      b.checks = a.checks := by
  obtain ⟨hnotes, ⟨x, y, hframe⟩, hheard⟩ := h.heard_receive hposts ha
  have htracks := h.tracks a ha
  have hreply : Round.replyTo ⟨posts⟩ (Dispatch.Agent.send a).agent =
      (a.send.agent.takeAll ((Mailbox.mk posts).inbox a.id)).1.improve := by
    rw [Round.replyTo, h.id_send ha]
    show (⟨_, (a.send.agent.takeAll ((Mailbox.mk posts).inbox a.id)).2 ++ _, _⟩ : Reply _ _ _) = _
    rw [hnotes]
    rfl
  rw [hframe] at hreply hheard
  exact ⟨_, hreply, rfl, rfl, rfl, ⟨htracks.settings_eq, htracks.matrix_eq, htracks.graph_eq⟩,
    hheard, htracks.remembers, rfl⟩

/-- What a round makes of one agent. -/
theorem replyTo_tracks [OrderedScalar α] (h : Population settings m n agents)
    (hposts : posts.Perm (agents.flatMap fun a => (Dispatch.Agent.send a).posts)) {a : Agent α}
    (ha : a ∈ agents) {again : Bool}
    (hok : (Round.replyTo ⟨posts⟩ (Dispatch.Agent.send a).agent).answer = .ok again) :
    let reply := Round.replyTo ⟨posts⟩ (Dispatch.Agent.send a).agent
    reply.agent.id = a.id ∧ reply.agent.Tracks settings m (n + 1) ∧
      EarliestBest (fun t => m.utility a.id t + values settings m n (.toAgent t a.id))
        ((FactorGraph.build m settings.maxTargets).candidatesOf a.id) reply.agent.target ∧
      ∀ note ∈ reply.notes, note.level = .trace := by
  obtain ⟨b, hreply, hid, -, houtbox, hfits, hheard, hprevious, -⟩ :=
    h.replyTo_eq_improve hposts ha
  rw [hreply] at hok ⊢
  rw [← hid, ← hfits.graph_eq]
  exact Agent.tracks_improve hfits hheard hprevious (by rw [houtbox])
    (hfits.graph_eq ▸ h.finite) hok

/-! ## Rounds -/

variable {flags : List Bool} {progress : Progress α (Agent α) (Round.Outcome α)}

/-- A round keeps the agents in step. -/
theorem next [OrderedScalar α] (h : Population settings m n agents)
    (hlock : Round.Lockstep agents posts flags progress) :
    Population settings m (n + 1) progress.agents ∧
      (∀ a ∈ progress.agents,
        EarliestBest (fun t => m.utility a.id t + values settings m n (.toAgent t a.id))
          ((FactorGraph.build m settings.maxTargets).candidatesOf a.id) a.target) ∧
      progress.mailbox.pending = [] ∧ ∀ note ∈ progress.events, note.level = .trace := by
  have hreply := fun a (ha : a ∈ agents) =>
    h.replyTo_tracks hlock.posts_perm ha (hlock.exists_flag ha).choose_spec.2
  refine ⟨⟨?_, ?_⟩, ?_, ?_, ?_⟩
  · rw [hlock.agents_eq, List.map_map, ← h.ids_eq]
    exact List.map_congr_left fun a ha => (hreply a ha).1
  · rw [hlock.agents_eq]
    exact List.forall_mem_map.2 fun a ha => (hreply a ha).2.1
  · rw [hlock.agents_eq]
    rw [List.forall_mem_map]
    intro a ha
    rw [(hreply a ha).1]
    exact (hreply a ha).2.2.1
  · -- a message left over would be to nobody in the population, but every edge ends in it
    apply List.eq_nil_iff_forall_not_mem.2
    intro msg hmsg
    obtain ⟨hin, hstranger⟩ := hlock.undelivered msg hmsg
    obtain ⟨-, e, he, -, hdest, -⟩ := h.mem_posts.1 (hlock.posts_perm.mem_iff.1 hin)
    obtain ⟨-, b, hb, hhost⟩ := FactorGraph.mem_agents_of_host he
    obtain ⟨a, ha, rfl⟩ := h.mem_agents.1 hb
    refine hstranger a ha ?_
    rw [h.id_send ha]
    exact Option.some.inj (hdest.symm.trans hhost)
  · intro note hnote
    rcases hlock.events_mem note hnote with ⟨a, ha, hin⟩ | ⟨msg, hmsg, rfl⟩ | ⟨a, ha, hin⟩
    · rw [h.send_eq ha] at hin
      cases hin
    · obtain ⟨a, ha, hin⟩ := List.mem_flatMap.1 (hlock.posts_perm.mem_iff.1 hmsg)
      have hfinite := (h.sendsFreely a ha).2 msg hin
      unfold Mailbox.postEvent
      unfold Message.isFinite at hfinite
      split <;> simp_all [Event.level]
    · exact (hreply a ha).2.2.2 note hin

theorem exists_lockstep (h : Population settings m n agents) {solver : Solver.Settings α}
    {surroundings : Surroundings α} {round : Nat}
    (hok : ∃ outcome, (Solver.playRound solver surroundings round agents).answer = .ok outcome) :
    ∃ posts flags, Round.Lockstep agents posts flags
      (Solver.playRound solver surroundings round agents) := by
  obtain ⟨outcome, hok⟩ := hok
  exact Solver.playRound_lockstep solver surroundings round h.sendsFreely h.nodup_sent_ids hok

/-- If what the recurrence says next is finite on every edge, the round says it. -/
theorem succeeds (h : Population settings m n agents)
    (hfinite : ∀ e ∈ (FactorGraph.build m settings.maxTargets).edges,
      Scalar.isFinite (values settings m (n + 1) e) = true) (solver : Solver.Settings α)
    (surroundings : Surroundings α) (round : Nat) :
    ∃ outcome, (Solver.playRound solver surroundings round agents).answer = .ok outcome := by
  refine Solver.playRound_succeeds solver surroundings round h.sendsFreely h.nodup_sent_ids
    fun posts hposts a ha => ?_
  obtain ⟨b, hreply, -, -, -, hfits, hheard, hprevious, -⟩ := h.replyTo_eq_improve hposts ha
  rw [hreply]
  refine Agent.improve_succeeds fun v hv => ?_
  rw [hfits.updates_eq hheard hprevious] at hv
  obtain ⟨e, he, rfl⟩ := List.mem_map.1 hv
  rw [hfits.graph_eq] at he
  exact hfinite e (FactorGraph.mem_edgesFrom.1 he).1

end Population

/-! ## Runs -/

/-- Round `n + 1` has done what the recurrence does. -/
structure Agrees (settings : Settings α) (m : UtilityMatrix α) (n : Nat)
    (progress : Progress α (Agent α) (Round.Outcome α)) : Prop where
  ids_eq : progress.agents.map (·.id) = m.agents
  /-- The outboxes hold the new values, one for every edge of the graph. -/
  sent_perm : (sent progress.agents).Perm ((FactorGraph.build m settings.maxTargets).edges.map
    fun e => ⟨e, values settings m (n + 1) e⟩)
  nodup_edges : (FactorGraph.build m settings.maxTargets).edges.Nodup
  /-- Every agent prefers its earliest best candidate by the values of the round before. -/
  target_best : ∀ a ∈ progress.agents,
    EarliestBest (fun t => m.utility a.id t + values settings m n (.toAgent t a.id))
      ((FactorGraph.build m settings.maxTargets).candidatesOf a.id) a.target
  /-- Those values have been sent, each once, between the hosts of its ends. -/
  answer_eq : ∃ messages flags, progress.answer = .ok (messages, flags) ∧
    (messages.flatten.map (·.payload)).Perm (if n = 0 then [] else
      (FactorGraph.build m settings.maxTargets).edges.map fun e =>
        .factor e (values settings m n e)) ∧
    ∀ msg ∈ messages.flatten, ∃ e v, msg.payload = .factor e v ∧
      (FactorGraph.build m settings.maxTargets).host? e.source = some msg.sender ∧
      (FactorGraph.build m settings.maxTargets).host? e.dest = some msg.recipient
  none_left : progress.mailbox.pending = []
  none_hostless : ∀ id node, .hostless id node ∉ progress.events
  none_ignored : ∀ id msg, .ignored id msg ∉ progress.events

section Runs
variable [OrderedScalar α] {settings : Settings α} {m : UtilityMatrix α}
  {solver : Solver.Settings α} {surroundings : Surroundings α} {n : Nat}

open Solver

/-- As long as no round fails, the agents stay in step. -/
theorem population_after
    (h : ∀ k < n, ∃ outcome, (playRound solver surroundings (k + 1)
      (after solver surroundings (agents settings m) k)).answer = .ok outcome) :
    Population settings m n (after solver surroundings (agents settings m) n) := by
  induction n with
  | zero => exact .start settings m
  | succ n ih =>
    have hpop := ih fun k hk => h k (by omega)
    obtain ⟨posts, flags, hlock⟩ := hpop.exists_lockstep (h n n.lt_succ_self)
    exact (hpop.next hlock).1

/-- Where every number is finite no round ever fails. -/
theorem rounds_succeed (hfinite : ∀ x : α, Scalar.isFinite x = true) (k : Nat) :
    ∃ outcome, (playRound solver surroundings (k + 1)
      (after solver surroundings (agents settings m) k)).answer = .ok outcome := by
  induction k using Nat.strong_induction_on with
  | _ k ih =>
    exact (population_after ih).succeeds (fun _ _ => hfinite _) solver surroundings (k + 1)

/-- After a round every agent prefers its earliest best candidate by the values of the round
before. -/
theorem target_after
    (h : ∀ k ≤ n, ∃ outcome, (playRound solver surroundings (k + 1)
      (after solver surroundings (agents settings m) k)).answer = .ok outcome) :
    ∀ a ∈ after solver surroundings (agents settings m) (n + 1),
      EarliestBest (fun t => m.utility a.id t + values settings m n (.toAgent t a.id))
        ((FactorGraph.build m settings.maxTargets).candidatesOf a.id) a.target := by
  have hpop := population_after fun k (hk : k < n) => h k hk.le
  obtain ⟨posts, flags, hlock⟩ := hpop.exists_lockstep (h n le_rfl)
  exact (hpop.next hlock).2.1

/-- So the assignment of a round is the earliest best choice of everybody. -/
theorem held_best
    (h : ∀ k ≤ n, ∃ outcome, (playRound solver surroundings (k + 1)
      (after solver surroundings (agents settings m) k)).answer = .ok outcome)
    {a : EntityId} (ha : a ∈ m.agents) :
    EarliestBest (fun t => m.utility a t + values settings m n (.toAgent t a))
      ((FactorGraph.build m settings.maxTargets).candidatesOf a)
      ((held (after solver surroundings (agents settings m) (n + 1))).get? a) := by
  have hpop : Population settings m (n + 1)
      (after solver surroundings (agents settings m) (n + 1)) :=
    population_after fun k hk => h k (Nat.le_of_lt_succ hk)
  obtain ⟨b, hb, rfl⟩ := hpop.mem_agents.1 ha
  have hget := get?_held_of_mem hpop.nodup_ids hb
  exact (show (held _).get? b.id = b.target from hget) ▸ target_after h b hb

/-- Rounds that do not fail, in turn or concurrent, compute the recurrence. -/
theorem rounds_follow_recurrence
    (h : ∀ k ≤ n, ∃ outcome, (playRound solver surroundings (k + 1)
      (after solver surroundings (agents settings m) k)).answer = .ok outcome) :
    Agrees settings m n (playRound solver surroundings (n + 1)
      (after solver surroundings (agents settings m) n)) := by
  have hpop : Population settings m n (after solver surroundings (agents settings m) n) :=
    population_after fun k hk => h k (by omega)
  obtain ⟨posts, flags, hlock⟩ := hpop.exists_lockstep (h n le_rfl)
  obtain ⟨hnext, hbest, hmailbox, hevents⟩ := hpop.next hlock
  refine ⟨hnext.ids_eq, hnext.sent_perm n.succ_ne_zero, FactorGraph.nodup_edges, hbest,
    ⟨_, flags, hlock.answer_eq, ?_, fun msg hmsg => ?_⟩, hmailbox, fun id node hin => ?_,
    fun id msg hin => ?_⟩
  · rw [hpop.sent_payloads]
    split
    · rename_i hn
      have hnil : sent (after solver surroundings (agents settings m) n) = [] :=
        List.flatMap_eq_nil_iff.2 fun a ha => by rw [(hpop.tracks a ha).queue_eq, if_pos hn]
      rw [hnil]
      exact .refl _
    · rename_i hn
      have hperm := (hpop.sent_perm hn).map fun v => Payload.factor v.edge v.value
      rwa [List.map_map] at hperm
  · rw [← List.flatMap_def, hpop.mem_posts] at hmsg
    obtain ⟨-, e, -, hsource, hdest, hpayload⟩ := hmsg
    exact ⟨e, _, hpayload, hsource, hdest⟩
  · cases hevents _ hin
  · cases hevents _ hin

end Runs

/-- Two agents whose preferences cross: each target needs one agent. -/
def crossed : UtilityMatrix Rat where
  agents := [.ofNat 1, .ofNat 2]
  targets := [.ofNat 3, .ofNat 4]
  locations := .empty
  values := #[10, 9, 9, 2]
  needs := #[1, 1]
  penalty := 4
  agents_nodup := by decide
  targets_nodup := by decide
  values_size := rfl
  needs_size := rfl
  values_finite := fun _ _ => rfl
  penalty_finite := rfl
  penalty_nonneg := by decide +kernel

/-- The crossed agents with damping follow the recurrence into their third round. -/
theorem crossed_follow_recurrence :
    (∀ k ≤ 2, ∃ outcome, (Solver.playRound Solver.Settings.default .still (k + 1)
      (Solver.after Solver.Settings.default .still (agents ⟨1 / 2, none⟩ crossed) k)).answer =
        .ok outcome) ∧
    Agrees ⟨1 / 2, none⟩ crossed 2 (Solver.playRound Solver.Settings.default .still 3
      (Solver.after Solver.Settings.default .still (agents ⟨1 / 2, none⟩ crossed) 2)) :=
  ⟨fun k _ => rounds_succeed (fun _ => rfl) k,
    rounds_follow_recurrence fun k _ => rounds_succeed (fun _ => rfl) k⟩

example : values ⟨1 / 2, none⟩ crossed 3 (.toAgent (.ofNat 3) (.ofNat 1)) = -3 := by
  decide +kernel

end Dispatch.MaxSum
