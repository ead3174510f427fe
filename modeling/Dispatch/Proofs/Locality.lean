import Mathlib
import Dispatch.Proofs.Optimality
/-!
# How fast news travels in Max-Sum

In a round a value goes along one edge, and what a node says depends on what it has heard and, for
a variable, on its agent's own row. So after `n` rounds only the rows of agents fewer than `n` links
away count (`values_congr`). Which agent hosts a function, and what else that agent knows, does not
show in what the function says. `news_travels_one_link_a_round` says so of two whole runs.
-/

namespace Dispatch

/-! ## Distances -/

namespace FactorGraph

/-- The links of a graph, with variables and functions for vertices. -/
def links (g : FactorGraph) : SimpleGraph Node := .fromRel fun x y => ⟨x, y⟩ ∈ g.edges

theorem adj_of_mem_edges {α : Type} [Scalar α] {m : UtilityMatrix α} {limit : Option Nat} {e : Edge}
    (he : e ∈ (build m limit).edges) : (build m limit).links.Adj e.source e.dest := by
  refine (SimpleGraph.fromRel_adj _ _ _).2 ⟨?_, .inl he⟩
  obtain ⟨a, t, -, rfl | rfl⟩ := mem_edges.1 he
  · exact Node.noConfusion
  · exact Node.noConfusion

variable {g : FactorGraph} {x y z : Node}

theorem edist_lt_succ (hxy : g.links.Adj x y) {n : Nat} (h : g.links.edist y z < n) :
    g.links.edist x z < (n + 1 : Nat) := by
  have hone : g.links.edist x y = 1 := SimpleGraph.edist_eq_one_iff_adj.2 hxy
  calc g.links.edist x z ≤ 1 + g.links.edist y z := hone ▸ SimpleGraph.edist_triangle
    _ < 1 + n := (ENat.add_lt_add_iff_left ENat.one_ne_top).2 h
    _ = (n + 1 : Nat) := by rw [Nat.cast_add, Nat.cast_one, add_comm]

/-- Levels that differ by at most one along every edge bound distances from below. -/
theorem level_le_edist (level : Node → Nat) (hlevel : ∀ e ∈ g.edges,
    level e.dest ≤ level e.source + 1 ∧ level e.source ≤ level e.dest + 1) :
    (level y : ℕ∞) ≤ level x + g.links.edist x y := by
  have hwalk : ∀ {x} (p : g.links.Walk x y), level y ≤ level x + p.length := by
    intro x p
    induction p with
    | nil => exact le_rfl
    | @cons x z y hxz p ih =>
      rw [SimpleGraph.Walk.length_cons]
      rcases ((SimpleGraph.fromRel_adj _ _ _).1 hxz).2 with he | he
      · have hstep := (hlevel _ he).1
        dsimp only at hstep
        omega
      · have hstep := (hlevel _ he).2
        dsimp only at hstep
        omega
  by_cases hreach : g.links.Reachable x y
  · obtain ⟨p, hp⟩ := hreach.exists_walk_length_eq_edist
    rw [← hp]
    exact_mod_cast hwalk p
  · rw [SimpleGraph.edist_eq_top_of_not_reachable hreach, add_top]
    exact le_top

/-- What the ends of every edge have in common is the same all over a component. -/
theorem eq_of_reachable {β : Type} (f : Node → β)
    (hf : ∀ e ∈ g.edges, f e.source = f e.dest) (h : g.links.Reachable x y) : f x = f y := by
  obtain ⟨p⟩ := h
  induction p with
  | nil => rfl
  | cons hxz p ih =>
    rcases ((SimpleGraph.fromRel_adj _ _ _).1 hxz).2 with he | he
    · exact (hf _ he).trans ih
    · exact (hf _ he).symm.trans ih

end FactorGraph

/-! ## Matrices with the same links -/

section Matrices
variable {α : Type} [Scalar α]

/-- Two matrices of the same agents, targets, needs and penalty whose graphs have the same edges. -/
structure SameLinks (limit : Option Nat) (m m' : UtilityMatrix α) : Prop where
  agents_eq : m.agents = m'.agents
  targets_eq : m.targets = m'.targets
  needs_eq : m.needs = m'.needs
  penalty_eq : m.penalty = m'.penalty
  edges_perm : (FactorGraph.build m limit).edges.Perm (FactorGraph.build m' limit).edges

/-- The agent likes every target the same. -/
def SameRow (m m' : UtilityMatrix α) (a : EntityId) : Prop :=
  ∀ t ∈ m.targets, m.utility a t = m'.utility a t

/-- All agents fewer than `n` links away from a node have the same rows. -/
def SameWithin (limit : Option Nat) (m m' : UtilityMatrix α) (n : Nat) (x : Node) : Prop :=
  ∀ b ∈ m.agents, (FactorGraph.build m limit).links.edist x (.ofAgent b) < n → SameRow m m' b

variable {limit : Option Nat} {m m' : UtilityMatrix α} {n : Nat} {x y : Node}

theorem SameWithin.mono (h : SameWithin limit m m' (n + 1) x) : SameWithin limit m m' n x :=
  fun b hb hdist => h b hb (hdist.trans (Nat.cast_lt.2 n.lt_succ_self))

theorem SameWithin.next (h : SameWithin limit m m' (n + 1) x)
    (hxy : (FactorGraph.build m limit).links.Adj x y) : SameWithin limit m m' n y :=
  fun b hb hdist => h b hb (FactorGraph.edist_lt_succ hxy hdist)

theorem SameWithin.row {a : EntityId} (h : SameWithin limit m m' (n + 1) (.ofAgent a))
    (ha : a ∈ m.agents) : SameRow m m' a := by
  refine h a ha ?_
  rw [SimpleGraph.edist_self]
  exact_mod_cast n.succ_pos

theorem SameRow.considered_eq {a : EntityId} (h : SameRow m m' a)
    (htargets : m.targets = m'.targets) :
    FactorGraph.considered m limit a = FactorGraph.considered m' limit a := by
  unfold FactorGraph.considered UtilityMatrix.topTargets UtilityMatrix.ranked
  have hscores : m.targets.map (fun t => (t, m.utility a t)) =
      m.targets.map fun t => (t, m'.utility a t) :=
    List.map_congr_left fun t ht => by rw [h t ht]
  rw [hscores, htargets]

namespace SameLinks

theorem congestion_eq (h : SameLinks limit m m') (t : EntityId) (k : Nat) :
    m.congestion t k = m'.congestion t k := by
  unfold UtilityMatrix.congestion UtilityMatrix.need
  rw [h.targets_eq, h.needs_eq, h.penalty_eq]

theorem mem_candidatesOf (h : SameLinks limit m m') {a t : EntityId} :
    t ∈ (FactorGraph.build m limit).candidatesOf a ↔
      t ∈ (FactorGraph.build m' limit).candidatesOf a := by
  rw [← FactorGraph.toTarget_mem_edges, ← FactorGraph.toTarget_mem_edges, h.edges_perm.mem_iff]

/-- The agents linked to a target are listed in matrix order, which is the same. -/
theorem neighboursOf_eq (h : SameLinks limit m m') (t : EntityId) :
    (FactorGraph.build m limit).neighboursOf t = (FactorGraph.build m' limit).neighboursOf t := by
  rw [FactorGraph.neighboursOf_build, FactorGraph.neighboursOf_build, ← h.agents_eq]
  apply List.filter_congr
  intro a ha
  have hlinked := h.mem_candidatesOf (a := a) (t := t)
  rw [FactorGraph.candidatesOf_build ha, FactorGraph.candidatesOf_build (h.agents_eq ▸ ha)]
    at hlinked
  exact decide_eq_decide.2 hlinked

/-- An agent with the same row considers the same targets in the same order. -/
theorem candidatesOf_eq (h : SameLinks limit m m') {a : EntityId} (ha : a ∈ m.agents)
    (hrow : SameRow m m' a) :
    (FactorGraph.build m limit).candidatesOf a = (FactorGraph.build m' limit).candidatesOf a := by
  rw [FactorGraph.candidatesOf_build ha, FactorGraph.candidatesOf_build (h.agents_eq ▸ ha),
    hrow.considered_eq h.targets_eq]

end SameLinks

end Matrices

namespace MaxSum

/-! ## One round -/

section Rounds
variable {α : Type} [Scalar α] {limit : Option Nat} {m m' : UtilityMatrix α} {v v' : Edge → α}

/-- A variable says the same if its agent has the same row and it has heard the same. -/
theorem reply_toTarget_congr (h : SameLinks limit m m') {a : EntityId} (ha : a ∈ m.agents)
    (hrow : SameRow m m' a)
    (hv : ∀ s ∈ (FactorGraph.build m limit).candidatesOf a,
      v (.toAgent s a) = v' (.toAgent s a)) (t : EntityId) :
    reply m (.build m limit) v (.toTarget a t) = reply m' (.build m' limit) v' (.toTarget a t) := by
  have hutilities : ((FactorGraph.build m limit).candidatesOf a).map (m.utility a) =
      ((FactorGraph.build m limit).candidatesOf a).map (m'.utility a) :=
    List.map_congr_left fun s hs => hrow s (FactorGraph.mem_targets_of_candidatesOf hs)
  have hheard := List.map_congr_left hv
  show gainOf _ (choiceGains _ _) t = gainOf _ (choiceGains _ _) t
  rw [hutilities, hheard, h.candidatesOf_eq ha hrow]

/-- A function says the same if it has heard the same, whoever hosts it. -/
theorem reply_toAgent_congr (h : SameLinks limit m m') {t : EntityId}
    (hv : ∀ b ∈ (FactorGraph.build m limit).neighboursOf t,
      v (.toTarget b t) = v' (.toTarget b t)) (a : EntityId) :
    reply m (.build m limit) v (.toAgent t a) = reply m' (.build m' limit) v' (.toAgent t a) := by
  have hcongestion : m.congestion t = m'.congestion t := funext (h.congestion_eq t)
  have hheard := List.map_congr_left hv
  show gainOf _ (loadGains _ _) a = gainOf _ (loadGains _ _) a
  rw [hcongestion, hheard, h.neighboursOf_eq t]

end Rounds

/-! ## Runs -/

section Runs
variable {α : Type} [Scalar α] {settings : Settings α} {m m' : UtilityMatrix α}

/-- What a node says in round `n` is settled by the rows of the agents fewer than `n` links away. -/
theorem values_congr (h : SameLinks settings.maxTargets m m') {n : Nat} {e : Edge}
    (he : e ∈ (FactorGraph.build m settings.maxTargets).edges)
    (hrows : SameWithin settings.maxTargets m m' n e.source) :
    values settings m n e = values settings m' n e := by
  -- by rounds, over all edges: what the source has heard came over one link, so that one round less
  -- leaves the rows within one link less of the node that said it
  induction n generalizing e with
  | zero => rfl
  | succ n ih =>
    have hreply : reply m (.build m settings.maxTargets) (values settings m n) e =
        reply m' (.build m' settings.maxTargets) (values settings m' n) e := by
      obtain ⟨a, t, ht, rfl | rfl⟩ := FactorGraph.mem_edges.1 he
      · have ha := (FactorGraph.mem_candidatesOf.1 ht).1
        refine reply_toTarget_congr h ha (hrows.row ha) (fun s hs => ?_) t
        exact ih (FactorGraph.toAgent_mem_edges.2 hs)
          (hrows.next (FactorGraph.adj_of_mem_edges (FactorGraph.toTarget_mem_edges.2 hs)))
      · refine reply_toAgent_congr h (fun b hb => ?_) a
        have hs := FactorGraph.mem_neighboursOf.1 hb
        exact ih (FactorGraph.toTarget_mem_edges.2 hs)
          (hrows.next (FactorGraph.adj_of_mem_edges (FactorGraph.toAgent_mem_edges.2 hs)))
    rw [values_succ, values_succ, ih he hrows.mono, hreply]

open Solver

variable [OrderedScalar α] {solver solver' : Solver.Settings α}
  {surroundings surroundings' : Surroundings α} {n : Nat} {a : EntityId}

/-- No round up to the `n`-th fails. -/
def Passes (settings : Settings α) (m : UtilityMatrix α) (solver : Solver.Settings α)
    (surroundings : Surroundings α) (n : Nat) : Prop :=
  ∀ k < n, ∃ outcome, (playRound solver surroundings (k + 1)
    (after solver surroundings (agents settings m) k)).answer = .ok outcome

omit [OrderedScalar α] in
theorem Passes.mono {k : Nat} (h : Passes settings m solver surroundings n) (hk : k ≤ n) :
    Passes settings m solver surroundings k :=
  fun j hj => h j (by omega)

omit [OrderedScalar α] in
/-- Before the first round nobody has a target. -/
theorem held_start (settings : Settings α) (m : UtilityMatrix α) (a : EntityId) :
    (held (agents settings m)).get? a = none := by
  have hids := (Population.start settings m).nodup_ids
  refine Option.eq_none_iff_forall_ne_some.2 fun t ht => ?_
  obtain ⟨b, hb, -, htarget⟩ := (get?_held hids).1 ht
  obtain ⟨id, -, rfl⟩ := List.mem_map.1 hb
  cases htarget

theorem held_congr (h : SameLinks settings.maxTargets m m') (ha : a ∈ m.agents)
    (hrows : SameWithin settings.maxTargets m m' n (.ofAgent a))
    (hpass : Passes settings m solver surroundings n)
    (hpass' : Passes settings m' solver' surroundings' n) :
    (held (after solver surroundings (agents settings m) n)).get? a =
      (held (after solver' surroundings' (agents settings m') n)).get? a := by
  cases n with
  | zero => exact (held_start settings m a).trans (held_start settings m' a).symm
  | succ n =>
    -- a round chooses by what the round before has said
    have hrow := hrows.row ha
    have hbest := held_best (fun k hk => hpass k (Nat.lt_succ_of_le hk)) ha
    have hbest' := held_best (fun k hk => hpass' k (Nat.lt_succ_of_le hk)) (h.agents_eq ▸ ha)
    rw [← h.candidatesOf_eq ha hrow] at hbest'
    refine EarliestBest.unique (hbest.congr fun t ht => ?_) hbest'
    rw [hrow t (FactorGraph.mem_targets_of_candidatesOf ht),
      values_congr h (FactorGraph.toAgent_mem_edges.2 ht)
        (hrows.next (FactorGraph.adj_of_mem_edges (FactorGraph.toTarget_mem_edges.2 ht)))]

theorem sent_congr (h : SameLinks settings.maxTargets m m')
    (hrows : SameWithin settings.maxTargets m m' n (.ofAgent a))
    (hpass : Passes settings m solver surroundings n)
    (hpass' : Passes settings m' solver' surroundings' n) (t : EntityId) (x : α) :
    ⟨.toTarget a t, x⟩ ∈ sent (after solver surroundings (agents settings m) n) ↔
      ⟨.toTarget a t, x⟩ ∈ sent (after solver' surroundings' (agents settings m') n) := by
  rw [(population_after hpass).toTarget_sent, (population_after hpass').toTarget_sent,
    h.mem_candidatesOf]
  refine and_congr_right fun _ => and_congr_right fun ht => ?_
  rw [values_congr h (FactorGraph.toTarget_mem_edges.2 (h.mem_candidatesOf.2 ht)) hrows]

/-- An agent behaves the same in two runs: it has the same target after round `n`, and its variable
has sent the same values up to then. -/
structure BehavesAlike (a : EntityId) (run run' : Nat → List (Agent α)) (n : Nat) : Prop where
  target_eq : (held (run n)).get? a = (held (run' n)).get? a
  sent_iff : ∀ k ≤ n, ∀ t x,
    ⟨.toTarget a t, x⟩ ∈ sent (run k) ↔ ⟨.toTarget a t, x⟩ ∈ sent (run' k)

/-- If two matrices of the same links have the same rows for all agents fewer than `n` links away
from an agent's variable, the agent behaves the same in `n` rounds without errors on either. An
agent in another component makes no difference ever. -/
theorem news_travels_one_link_a_round (settings : Settings α) {m m' : UtilityMatrix α}
    (h : SameLinks settings.maxTargets m m') (solver solver' : Solver.Settings α)
    (surroundings surroundings' : Surroundings α) {a : EntityId} (ha : a ∈ m.agents) :
    let links := (FactorGraph.build m settings.maxTargets).links
    let run := after solver surroundings (agents settings m)
    let run' := after solver' surroundings' (agents settings m')
    (∀ n : Nat,
      (∀ b ∈ m.agents, links.edist (.ofAgent a) (.ofAgent b) < n → SameRow m m' b) →
      Passes settings m solver surroundings n → Passes settings m' solver' surroundings' n →
        BehavesAlike a run run' n) ∧
    ((∀ b ∈ m.agents, links.Reachable (.ofAgent a) (.ofAgent b) → SameRow m m' b) →
      ∀ n, Passes settings m solver surroundings n →
        Passes settings m' solver' surroundings' n → BehavesAlike a run run' n) := by
  intro links run run'
  have hnear : ∀ n, SameWithin settings.maxTargets m m' n (.ofAgent a) →
      Passes settings m solver surroundings n → Passes settings m' solver' surroundings' n →
        BehavesAlike a run run' n := by
    intro n hrows hpass hpass'
    refine ⟨held_congr h ha hrows hpass hpass', fun k hk => ?_⟩
    have hcloser : SameWithin settings.maxTargets m m' k (.ofAgent a) :=
      fun b hb hdist => hrows b hb (hdist.trans_le (Nat.cast_le.2 hk))
    exact sent_congr h hcloser (hpass.mono hk) (hpass'.mono hk)
  refine ⟨hnear, fun hrows n => hnear n fun b hb hdist => hrows b hb ?_⟩
  exact SimpleGraph.edist_ne_top_iff_reachable.1 (hdist.trans (ENat.natCast_lt_top n)).ne

end Runs

/-- Three agents in a row, each of which shares a target with the next, and one apart. The third one
likes the target it shares as given. -/
def row (liking : Rat) : UtilityMatrix Rat where
  agents := [.ofNat 1, .ofNat 2, .ofNat 3, .ofNat 4]
  targets := [.ofNat 5, .ofNat 6, .ofNat 7, .ofNat 8, .ofNat 9, .ofNat 10]
  locations := .empty
  values := #[7, 9, 0, 0, 0, 0,
              0, 9, 8, 0, 0, 0,
              0, 0, liking, 5, 0, 0,
              0, 0, 0, 0, 9, 8]
  needs := #[1, 1, 1, 1, 1, 1]
  penalty := 3
  agents_nodup := by decide
  targets_nodup := by decide
  values_size := rfl
  needs_size := rfl
  values_finite := fun _ _ => rfl
  penalty_finite := rfl
  penalty_nonneg := by decide +kernel

/-- How far a node is along the row. -/
def rowLevel : Node → Nat
  | .ofAgent a => if a = .ofNat 2 then 2 else if a = .ofNat 3 then 4 else 0
  | .ofTarget t => if t = .ofNat 7 then 3 else if t = .ofNat 8 then 5 else 1

/-- The third agent of the row is four links away from the first, which does not hear in four rounds
how much the third likes the target it shares. The fourth agent never does. -/
theorem row_hears_late :
    let links := (FactorGraph.build (row 6) (some 2)).links
    let run := Solver.after Solver.Settings.default .still (agents ⟨0, some 2⟩ (row 6))
    let run' := Solver.after Solver.Settings.default .still (agents ⟨0, some 2⟩ (row 9))
    SameLinks (some 2) (row 6) (row 9) ∧ .ofNat 1 ∈ (row 6).agents ∧ .ofNat 4 ∈ (row 6).agents ∧
    (∀ b ∈ (row 6).agents, links.edist (.ofAgent (.ofNat 1)) (.ofAgent b) < (4 : Nat) →
      SameRow (row 6) (row 9) b) ∧
    (∀ b ∈ (row 6).agents, links.Reachable (.ofAgent (.ofNat 4)) (.ofAgent b) →
      SameRow (row 6) (row 9) b) ∧
    (∀ n, Passes ⟨0, some 2⟩ (row 6) Solver.Settings.default .still n ∧
      Passes ⟨0, some 2⟩ (row 9) Solver.Settings.default .still n) ∧
    BehavesAlike (.ofNat 1) run run' 4 ∧ ∀ n, BehavesAlike (.ofNat 4) run run' n := by
  intro links run run'
  have hlinks : SameLinks (some 2) (row 6) (row 9) :=
    ⟨rfl, rfl, rfl, rfl, by decide +kernel⟩
  have hfirst : .ofNat 1 ∈ (row 6).agents := by decide
  have hfourth : .ofNat 4 ∈ (row 6).agents := by decide
  have hrows : ∀ b ∈ (row 6).agents, b ≠ .ofNat 3 → SameRow (row 6) (row 9) b := by
    unfold SameRow
    decide +kernel
  have hnear : ∀ b ∈ (row 6).agents,
      links.edist (.ofAgent (.ofNat 1)) (.ofAgent b) < (4 : Nat) → SameRow (row 6) (row 9) b := by
    intro b hb hdist
    refine hrows b hb ?_
    rintro rfl
    have hlevel : (4 : ℕ∞) ≤ 0 + links.edist (.ofAgent (.ofNat 1)) (.ofAgent (.ofNat 3)) :=
      FactorGraph.level_le_edist rowLevel (by decide +kernel)
    rw [zero_add] at hlevel
    exact absurd hdist (not_lt.2 hlevel)
  have hapart : ∀ b ∈ (row 6).agents,
      links.Reachable (.ofAgent (.ofNat 4)) (.ofAgent b) → SameRow (row 6) (row 9) b := by
    intro b hb hreach
    refine hrows b hb ?_
    rintro rfl
    let apart : List Node := [.ofAgent (.ofNat 4), .ofTarget (.ofNat 9), .ofTarget (.ofNat 10)]
    have hsame := FactorGraph.eq_of_reachable (fun x => decide (x ∈ apart)) (by decide +kernel)
      hreach
    exact absurd hsame (by decide)
  have hpass : ∀ w n, Passes ⟨0, some 2⟩ (row w) Solver.Settings.default .still n :=
    fun w n k _ => rounds_succeed (fun _ => rfl) k
  refine ⟨hlinks, hfirst, hfourth, hnear, hapart, fun n => ⟨hpass 6 n, hpass 9 n⟩, ?_, fun n => ?_⟩
  · exact (news_travels_one_link_a_round ⟨0, some 2⟩ hlinks _ _ _ _ hfirst).1 4 hnear (hpass 6 4)
      (hpass 9 4)
  · exact (news_travels_one_link_a_round ⟨0, some 2⟩ hlinks _ _ _ _ hfourth).2 hapart n (hpass 6 n)
      (hpass 9 n)

/-- In the fifth round the first agent makes way. -/
example : (Solver.held (Solver.after Solver.Settings.default .still
      (agents ⟨0, some 2⟩ (row 6)) 5)).get? (.ofNat 1) = some (.ofNat 6) ∧
    (Solver.held (Solver.after Solver.Settings.default .still
      (agents ⟨0, some 2⟩ (row 9)) 5)).get? (.ofNat 1) = some (.ofNat 5) := by
  decide +kernel

end MaxSum

end Dispatch
