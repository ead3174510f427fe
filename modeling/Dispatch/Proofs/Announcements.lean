import Mathlib
import Dispatch.Algorithm
import Dispatch.Proofs.BestResponse
import Dispatch.Proofs.Rounds
/-!
# Announcements

In a round of DSA every agent announces its target to all others and judges from what was
announced to it. `Dsa.Population.agents_of_lockstep` says what a round makes of the agents:
whatever the order of posts and steps, each improves on the targets held before the round
(`Dsa.Agent.Informed`). A round in which none of them asks for another has therefore changed no
target, and leaves an equilibrium (`Dsa.Population.equilibrium_of_quiet`).
-/

namespace Dispatch.Dsa

variable {α : Type} [Scalar α]

/-! ## Reading announcements -/

namespace Agent

theorem takeAll_of_choices {view : EntityId → Option EntityId} {inbox : List (Message α)}
    (h : ∀ m ∈ inbox, m.payload = .choice (view m.sender)) (a : Agent α) :
    (a.takeAll inbox).1 = { a with
      neighbours := inbox.foldl (fun n m => n.insert m.sender (view m.sender)) a.neighbours } := by
  induction inbox generalizing a with
  | nil => rfl
  | cons m rest ih =>
    obtain ⟨hm, hrest⟩ := List.forall_mem_cons.1 h
    rw [takeAll, take, hm]
    exact ih hrest _

/-- What an agent of the matrix knows: nothing of anybody but the other agents. -/
structure Fits (m : UtilityMatrix α) (a : Agent α) : Prop where
  matrix_eq : a.matrix = m
  known : ∀ b c, a.neighbours.get? b = some c → b ∈ m.agents ∧ b ≠ a.id

/-- The agent knows where all others stand. -/
structure Informed (m : UtilityMatrix α) (x : Assignment) (a : Agent α) : Prop where
  matrix_eq : a.matrix = m
  target_eq : x.get? a.id = a.target
  neighbours_eq : ∀ b, a.neighbours.get? b =
    if b ∈ m.agents ∧ b ≠ a.id then some (x.get? b) else none

theorem Informed.fits {m : UtilityMatrix α} {x : Assignment} {a : Agent α} (h : a.Informed m x) :
    a.Fits m := by
  refine ⟨h.matrix_eq, fun b c hb => ?_⟩
  rw [h.neighbours_eq] at hb
  exact (Option.ite_none_right_eq_some.1 hb).1

/-- An agent that has heard where the others stand, and is otherwise the first one. -/
structure Heard (m : UtilityMatrix α) (x : Assignment) (a heard : Agent α) : Prop where
  id_eq : heard.id = a.id
  target_eq : heard.target = a.target
  coin_eq : heard.coin = a.coin
  tosses_eq : heard.tosses = a.tosses
  informed : heard.Informed m x

/-- The entries that an agent's announcements come to. -/
theorem announced_perm {m : UtilityMatrix α} {x : Assignment} {a : Agent α} (h : a.Informed m x)
    (hx : ∀ b t, x.get? b = some t → b ∈ m.agents) :
    (x.unassign a.id).toList.Perm
      (a.neighbours.toList.filterMap fun p => p.2.map fun t => (p.1, t)) := by
  refine SortedMap.toList_perm _ (nodup_keyed a.neighbours.nodup_keys) fun b t => ?_
  have hmem : (b, t) ∈ (a.neighbours.toList.filterMap fun p => p.2.map fun t => (p.1, t)) ↔
      a.neighbours.get? b = some (some t) := by
    rw [SortedMap.get?_eq_some_iff, mem_keyed]
    constructor
    · rintro ⟨⟨c, o⟩, hin, rfl, rfl⟩
      exact hin
    · exact fun hin => ⟨_, hin, rfl, rfl⟩
  rw [hmem, h.neighbours_eq]
  change (x.unassign a.id).get? b = some t ↔ _
  rw [Assignment.get?_unassign, Option.ite_none_right_eq_some, Option.some.injEq]
  by_cases hb : a.id = b
  · simp [hb]
  · rw [if_neg hb]
    exact ⟨fun ht => ⟨⟨hx b t ht, Ne.symm hb⟩, ht⟩, fun ht => ht.2⟩

/-- An informed agent sees where all others stand. -/
theorem Informed.sees {m : UtilityMatrix α} {x : Assignment} {a : Agent α} (h : a.Informed m x)
    (hx : ∀ b t, x.get? b = some t → b ∈ m.agents) : a.outlook.Sees x := by
  intro t
  have hothers : x.othersOn a.id t = _ := ((announced_perm h hx).map Prod.snd).count_eq t
  show a.outlook.others.of t = x.othersOn a.id t
  rw [hothers, List.map_filterMap, outlook, Counts.of_ofTargets, SortedMap.values,
    List.filterMap_map]
  congr 2
  funext p
  cases hp : p.2 <;> simp [hp]

/-- An informed agent that asks for no other round keeps its target, and is content with it. -/
theorem Informed.content_of_quiet [OrderedScalar α] {m : UtilityMatrix α} {x : Assignment}
    {a : Agent α} (h : a.Informed m x) (hx : ∀ b t, x.get? b = some t → b ∈ m.agents)
    (hquiet : a.improve.answer = .ok false) :
    a.improve.agent.target = a.target ∧ m.Content x a.id := by
  have hsees := h.sees hx
  unfold improve at hquiet ⊢
  by_cases hbest : a.outlook.bestResponse a.target = a.target
  · refine ⟨by simp only [hbest, if_true], fun t ht => ?_⟩
    have hall := Outlook.bestResponse_eq_self.1 hbest t (by rw [outlook, h.matrix_eq]; exact ht)
    rw [hsees.worth, ← h.target_eq, show a.id = a.outlook.agent from rfl, hsees.score] at hall
    rwa [show a.outlook.matrix = m from h.matrix_eq] at hall
  · simp only [hbest, if_false] at hquiet
    split at hquiet
    · cases hquiet
    · split at hquiet <;> cases hquiet

theorem improve_id (a : Agent α) : a.improve.agent.id = a.id := by
  unfold improve
  dsimp only
  split_ifs <;> rfl

theorem improve_matrix (a : Agent α) : a.improve.agent.matrix = a.matrix := by
  unfold improve
  dsimp only
  split_ifs <;> rfl

theorem improve_neighbours (a : Agent α) : a.improve.agent.neighbours = a.neighbours := by
  unfold improve
  dsimp only
  split_ifs <;> rfl

theorem improve_fits {m : UtilityMatrix α} {a : Agent α} (h : a.Fits m) : a.improve.agent.Fits m :=
  ⟨by rw [improve_matrix, h.matrix_eq], by rw [improve_neighbours, improve_id]; exact h.known⟩

end Agent

/-! ## Rounds -/

/-- The agents of a solve: one for each agent of the matrix, in the same order. -/
structure Population (m : UtilityMatrix α) (agents : List (Agent α)) : Prop where
  ids_eq : agents.map (·.id) = m.agents
  fits : ∀ a ∈ agents, a.Fits m

namespace Population

/-- The agents as the solver sees them. -/
abbrev wrap (agents : List (Agent α)) : List (Algorithm.Agent α) := agents.map .dsa

theorem start (coins : Coins α) (settings : Settings α) (m : UtilityMatrix α) :
    Population m (Dsa.agents coins settings m) := by
  refine ⟨?_, fun a ha => ?_⟩
  · apply List.ext_getElem?
    intro i
    rw [Dsa.agents, List.getElem?_map, List.getElem?_mapIdx, Option.map_map]
    exact Option.map_id'
  · obtain ⟨i, hi, rfl⟩ := List.mem_mapIdx.1 ha
    exact ⟨rfl, fun b c hb => by cases hb⟩

/-- Nobody has a target to begin with. -/
theorem target_start {coins : Coins α} {settings : Settings α} {m : UtilityMatrix α} {a : Agent α}
    (ha : a ∈ Dsa.agents coins settings m) : a.target = none := by
  obtain ⟨i, hi, rfl⟩ := List.mem_mapIdx.1 ha
  rfl

variable {m : UtilityMatrix α} {agents : List (Agent α)} {posts : List (Message α)}
  {flags : List Bool}

theorem nodup_ids (h : Population m agents) : (agents.map (·.id)).Nodup :=
  h.ids_eq ▸ m.agents_nodup

theorem ids_wrap (agents : List (Agent α)) :
    (wrap agents).map Dispatch.Agent.id = agents.map (·.id) := by
  rw [List.map_map]
  rfl

theorem nodup_wrap (h : Population m agents) :
    ((wrap agents).map fun a => Dispatch.Agent.id (Dispatch.Agent.send a).agent).Nodup := by
  rw [List.map_map]
  exact h.nodup_ids

theorem sendsFreely (agents : List (Agent α)) : ∀ a ∈ wrap agents, Round.SendsFreely a := by
  intro a ha
  obtain ⟨b, -, rfl⟩ := List.mem_map.1 ha
  refine ⟨rfl, fun m hm => ?_⟩
  obtain ⟨c, -, rfl⟩ := List.mem_map.1 hm
  rfl

theorem held_eq (h : Population m agents) {a : Agent α} (ha : a ∈ agents) :
    (Solver.held (wrap agents)).get? a.id = a.target :=
  Solver.get?_held_of_mem (by rw [ids_wrap]; exact h.nodup_ids) (List.mem_map_of_mem ha)

theorem mem_agents_of_held (h : Population m agents) {b t : EntityId}
    (hb : (Solver.held (wrap agents)).get? b = some t) : b ∈ m.agents := by
  rw [Solver.get?_held (by rw [ids_wrap]; exact h.nodup_ids)] at hb
  obtain ⟨a, ha, rfl, -⟩ := hb
  rw [← h.ids_eq, ← ids_wrap]
  exact List.mem_map_of_mem ha

/-- What waits for an agent after all have sent: an announcement from each other agent. -/
theorem mem_inbox (h : Population m agents)
    (hposts : posts.Perm ((wrap agents).flatMap fun a => (Dispatch.Agent.send a).posts))
    {a : Agent α} (ha : a ∈ agents) {msg : Message α} :
    msg ∈ (Mailbox.mk posts).inbox a.id ↔
      ∃ b ∈ agents, b.id ≠ a.id ∧ msg = ⟨b.id, a.id, .choice b.target⟩ := by
  have hain : a.id ∈ m.agents := h.ids_eq ▸ List.mem_map_of_mem ha
  rw [Mailbox.mem_inbox, hposts.mem_iff, List.flatMap_map, List.mem_flatMap]
  constructor
  · rintro ⟨⟨b, hb, hmsg⟩, hto⟩
    obtain ⟨other, hother, rfl⟩ := List.mem_map.1 hmsg
    obtain rfl : other = a.id := hto
    exact ⟨b, hb, Ne.symm (of_decide_eq_true (List.mem_filter.1 hother).2), rfl⟩
  · rintro ⟨b, hb, hne, rfl⟩
    refine ⟨⟨b, hb, List.mem_map.2 ⟨a.id, List.mem_filter.2 ⟨?_, decide_eq_true (Ne.symm hne)⟩,
      rfl⟩⟩, rfl⟩
    rwa [(h.fits b hb).matrix_eq]

/-- Once all have sent, everybody learns what the others hold. -/
theorem heard_receive (h : Population m agents)
    (hposts : posts.Perm ((wrap agents).flatMap fun a => (Dispatch.Agent.send a).posts))
    {a : Agent α} (ha : a ∈ agents) :
    a.Heard m (Solver.held (wrap agents)) (a.receive ((Mailbox.mk posts).inbox a.id)).agent := by
  have hheld := h.held_eq ha
  have hchoice : ∀ msg ∈ (Mailbox.mk posts).inbox a.id,
      msg.payload = .choice ((Solver.held (wrap agents)).get? msg.sender) := by
    intro msg hmsg
    obtain ⟨b, hb, -, rfl⟩ := (h.mem_inbox hposts ha).1 hmsg
    rw [h.held_eq hb]
  have hreceive : (a.receive ((Mailbox.mk posts).inbox a.id)).agent = _ :=
    Agent.takeAll_of_choices hchoice a
  rw [hreceive]
  refine ⟨rfl, rfl, rfl, rfl, ⟨(h.fits a ha).matrix_eq, hheld, fun b => ?_⟩⟩
  show SortedMap.get? _ b = if b ∈ m.agents ∧ b ≠ a.id then _ else none
  rw [SortedMap.get?_foldl_insert_view Message.sender fun b => (Solver.held (wrap agents)).get? b]
  have hsender : b ∈ ((Mailbox.mk posts).inbox a.id).map (·.sender) ↔ b ∈ m.agents ∧ b ≠ a.id := by
    rw [List.mem_map, ← h.ids_eq]
    constructor
    · rintro ⟨msg, hmsg, rfl⟩
      obtain ⟨c, hc, hne, rfl⟩ := (h.mem_inbox hposts ha).1 hmsg
      exact ⟨List.mem_map_of_mem hc, hne⟩
    · rintro ⟨hb, hne⟩
      obtain ⟨c, hc, rfl⟩ := List.mem_map.1 hb
      exact ⟨_, (h.mem_inbox hposts ha).2 ⟨c, hc, hne, rfl⟩, rfl⟩
  by_cases hb : b ∈ m.agents ∧ b ≠ a.id
  · rw [if_pos (hsender.2 hb), if_pos hb]
  · rw [if_neg (mt hsender.1 hb), if_neg hb]
    -- what the agent knew before is not about anybody else either
    cases hknown : a.neighbours.get? b with
    | none => rfl
    | some c => exact absurd ((h.fits a ha).known b c hknown) hb

/-- Agents that improve stay those of the matrix. -/
theorem improve (h : Population m agents) {heard : Agent α → Agent α} {x : Assignment}
    (hheard : ∀ a ∈ agents, a.Heard m x (heard a)) :
    Population m (agents.map fun a => (heard a).improve.agent) := by
  refine ⟨?_, List.forall_mem_map.2 fun a ha => Agent.improve_fits (hheard a ha).informed.fits⟩
  rw [List.map_map, ← h.ids_eq]
  apply List.map_congr_left
  intro a ha
  show (heard a).improve.agent.id = a.id
  rw [Agent.improve_id, (hheard a ha).id_eq]

/-- What a round makes of the agents: each improves on what the others held before. -/
theorem agents_of_lockstep (h : Population m agents)
    {progress : Progress α (Algorithm.Agent α) (Round.Outcome α)}
    (hlock : Round.Lockstep (wrap agents) posts flags progress) :
    ∃ heard : Agent α → Agent α,
      progress.agents = wrap (agents.map fun a => (heard a).improve.agent) ∧
      Population m (agents.map fun a => (heard a).improve.agent) ∧
      agents.map (fun a => (heard a).improve.answer) = flags.map .ok ∧
      ∀ a ∈ agents, a.Heard m (Solver.held (wrap agents)) (heard a) := by
  have hheard := fun a ha => h.heard_receive hlock.posts_perm (a := a) ha
  refine ⟨fun a => (a.receive ((Mailbox.mk posts).inbox a.id)).agent, ?_, h.improve hheard, ?_,
    hheard⟩
  · rw [hlock.agents_eq, List.map_map, wrap, List.map_map]
    rfl
  · rw [← hlock.flags_eq, List.map_map]
    rfl

theorem population_of_lockstep (h : Population m agents)
    {progress : Progress α (Algorithm.Agent α) (Round.Outcome α)}
    (hlock : Round.Lockstep (wrap agents) posts flags progress) :
    ∃ next, progress.agents = wrap next ∧ Population m next := by
  obtain ⟨heard, hagents, hpop, -⟩ := h.agents_of_lockstep hlock
  exact ⟨_, hagents, hpop⟩

/-- If nobody asks for another round, the targets held after it are an equilibrium. -/
theorem equilibrium_of_quiet [OrderedScalar α] (h : Population m agents)
    {progress : Progress α (Algorithm.Agent α) (Round.Outcome α)}
    (hlock : Round.Lockstep (wrap agents) posts flags progress)
    (hquiet : (flags.any fun again => again) = false) :
    m.Equilibrium (Solver.held progress.agents) := by
  obtain ⟨heard, hagents, -, hflags, hheard⟩ := h.agents_of_lockstep hlock
  have hstill : ∀ a ∈ agents, (heard a).improve.agent.target = (heard a).target ∧
      m.Content (Solver.held (wrap agents)) (heard a).id := by
    intro a ha
    obtain ⟨again, hagain, heq⟩ := List.mem_map.1 (hflags ▸ List.mem_map_of_mem ha)
    have hfalse : again = false := by simpa using List.any_eq_false.1 hquiet again hagain
    exact (hheard a ha).informed.content_of_quiet (fun b t => h.mem_agents_of_held)
      (by rw [← heq, hfalse])
  -- nobody has moved, so what they judged from is what they hold now
  have hheld : Solver.held progress.agents = Solver.held (wrap agents) := by
    rw [hagents, Solver.held, Solver.held, wrap, wrap, List.map_map, List.filterMap_map,
      List.filterMap_map]
    congr 1
    apply List.filterMap_congr
    intro a ha
    have hid : (heard a).improve.agent.id = a.id := by rw [Agent.improve_id, (hheard a ha).id_eq]
    have htarget : (heard a).improve.agent.target = a.target :=
      (hstill a ha).1.trans (hheard a ha).target_eq
    show (heard a).improve.agent.target.map (fun t => ((heard a).improve.agent.id, t)) =
      a.target.map fun t => (a.id, t)
    rw [hid, htarget]
  intro b hb
  rw [← h.ids_eq] at hb
  obtain ⟨a, ha, rfl⟩ := List.mem_map.1 hb
  rw [hheld, ← (hheard a ha).id_eq]
  exact (hstill a ha).2

end Population

end Dispatch.Dsa
