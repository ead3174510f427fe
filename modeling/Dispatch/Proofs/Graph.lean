import Mathlib
import Dispatch.FactorGraph
import Dispatch.Message
import Dispatch.Proofs.Headcount
/-!
# The edges of a factor graph

A link between an agent and a target it considers carries an edge each way. The graph of a matrix
knows each link from both of its ends (`mem_neighboursOf`), gives every linked target a host among
its neighbours (`exists_owner`), and so leaves every edge to exactly one agent
(`edges_perm`).
-/

namespace Dispatch

variable {α : Type} [Scalar α]

namespace Edge

/-- From the variable of an agent to the function of a target. -/
def toTarget (a t : EntityId) : Edge := ⟨.ofAgent a, .ofTarget t⟩

/-- From the function of a target to the variable of an agent. -/
def toAgent (t a : EntityId) : Edge := ⟨.ofTarget t, .ofAgent a⟩

@[simp] theorem toTarget_inj {a b s t : EntityId} :
    toTarget a s = toTarget b t ↔ a = b ∧ s = t := by
  simp [toTarget]

@[simp] theorem toAgent_inj {a b s t : EntityId} :
    toAgent s a = toAgent t b ↔ s = t ∧ a = b := by
  simp [toAgent]

@[simp] theorem toTarget_ne_toAgent {a b s t : EntityId} : toTarget a s ≠ toAgent t b := by
  simp [toTarget, toAgent]

@[simp] theorem toAgent_ne_toTarget {a b s t : EntityId} : toAgent t b ≠ toTarget a s := by
  simp [toTarget, toAgent]

/-- The edge joins an agent's variable with a target's function, one way or the other. -/
def Joins (e : Edge) : Prop := ∃ a t, e = .toTarget a t ∨ e = .toAgent t a

end Edge

/-! ## Candidates -/

theorem UtilityMatrix.ranked_perm (score : EntityId → α) (ids : List EntityId) :
    (ranked score ids).Perm ids := by
  refine ((perm_sortBy _ _).map _).trans ?_
  rw [List.map_map]
  exact .of_eq (List.map_id _)

namespace FactorGraph
variable (m : UtilityMatrix α) (limit : Option Nat)

theorem nodup_considered (a : EntityId) : (considered m limit a).Nodup := by
  unfold considered
  split
  · exact ((UtilityMatrix.ranked_perm _ _).nodup_iff.2 m.targets_nodup).sublist
      (List.take_sublist _ _)
  · exact m.targets_nodup

theorem mem_targets_of_considered {a t : EntityId} (h : t ∈ considered m limit a) :
    t ∈ m.targets := by
  unfold considered at h
  split at h
  · exact (UtilityMatrix.ranked_perm _ _).mem_iff.1 (List.mem_of_mem_take h)
  · exact h

variable {m limit}

theorem get?_candidates {a : EntityId} {ts : List EntityId} :
    (build m limit).candidates.get? a = some ts ↔ a ∈ m.agents ∧ ts = considered m limit a := by
  have hnodup : ((m.agents.map fun a => (a, considered m limit a)).map Prod.fst).Nodup := by
    rw [List.map_map]
    exact (List.map_id _).symm ▸ m.agents_nodup
  rw [build, SortedMap.get?_ofList hnodup, List.mem_map]
  constructor
  · rintro ⟨b, hb, heq⟩
    obtain ⟨rfl, rfl⟩ := Prod.mk.inj heq
    exact ⟨hb, rfl⟩
  · rintro ⟨ha, rfl⟩
    exact ⟨a, ha, rfl⟩

theorem candidatesOf_build {a : EntityId} (ha : a ∈ m.agents) :
    (build m limit).candidatesOf a = considered m limit a := by
  rw [candidatesOf, SortedMap.getD, get?_candidates.2 ⟨ha, rfl⟩, Option.getD_some]

theorem mem_candidatesOf {a t : EntityId} :
    t ∈ (build m limit).candidatesOf a ↔ a ∈ m.agents ∧ t ∈ considered m limit a := by
  constructor
  · intro h
    rw [candidatesOf, SortedMap.getD] at h
    cases hget : (build m limit).candidates.get? a with
    | none =>
      rw [hget] at h
      cases h
    | some ts =>
      obtain ⟨ha, rfl⟩ := get?_candidates.1 hget
      rw [hget] at h
      exact ⟨ha, h⟩
  · rintro ⟨ha, ht⟩
    rwa [candidatesOf_build ha]

theorem mem_targets_of_candidatesOf {a t : EntityId} (h : t ∈ (build m limit).candidatesOf a) :
    t ∈ m.targets :=
  mem_targets_of_considered m limit (mem_candidatesOf.1 h).2

theorem candidatesOf_of_not_mem {a : EntityId} (ha : a ∉ m.agents) :
    (build m limit).candidatesOf a = [] :=
  List.eq_nil_iff_forall_not_mem.2 fun _ ht => ha (mem_candidatesOf.1 ht).1

theorem nodup_candidatesOf (a : EntityId) : ((build m limit).candidatesOf a).Nodup := by
  by_cases ha : a ∈ m.agents
  · rw [candidatesOf_build ha]
    exact nodup_considered m limit a
  · rw [candidatesOf_of_not_mem ha]
    exact List.nodup_nil

/-! ## Functions and their hosts -/

theorem foldl_fitter_mem (t : EntityId) (agents : List EntityId) (best : EntityId) :
    agents.foldl (fitter m t) best ∈ best :: agents := by
  induction agents generalizing best with
  | nil => exact List.mem_cons_self
  | cons b rest ih =>
    rw [List.foldl_cons]
    rcases List.mem_cons.1 (ih (fitter m t best b)) with h | h
    · rw [h, fitter]
      split
      · exact List.mem_cons_of_mem _ List.mem_cons_self
      · exact List.mem_cons_self
    · exact List.mem_cons_of_mem _ (List.mem_cons_of_mem _ h)

theorem functionNode?_eq_some {t : EntityId} {f : FunctionNode}
    (h : functionNode? m limit t = some f) :
    f.target = t ∧ f.neighbours = m.agents.filter (fun a => t ∈ considered m limit a) ∧
      f.owner ∈ f.neighbours := by
  unfold functionNode? at h
  split at h
  · cases h
  · rename_i first rest hlinked
    cases h
    exact ⟨rfl, hlinked.symm, foldl_fitter_mem t rest first⟩

theorem functionNode?_eq_none {t : EntityId} (h : functionNode? m limit t = none) :
    m.agents.filter (fun a => t ∈ considered m limit a) = [] := by
  unfold functionNode? at h
  split at h
  · assumption
  · cases h

theorem mem_functions {f : FunctionNode} :
    f ∈ (build m limit).functions ↔
      f.target ∈ m.targets ∧ functionNode? m limit f.target = some f := by
  rw [build, List.mem_filterMap]
  constructor
  · rintro ⟨t, ht, hf⟩
    obtain ⟨rfl, -⟩ := functionNode?_eq_some hf
    exact ⟨ht, hf⟩
  · rintro ⟨ht, hf⟩
    exact ⟨_, ht, hf⟩

theorem functionOf?_eq_some {t : EntityId} {f : FunctionNode} :
    (build m limit).functionOf? t = some f ↔ f ∈ (build m limit).functions ∧ f.target = t := by
  have hfound : ∀ {t f}, (build m limit).functionOf? t = some f →
      f ∈ (build m limit).functions ∧ f.target = t := by
    intro t f h
    exact ⟨List.mem_of_find?_eq_some h, by simpa using List.find?_some h⟩
  refine ⟨hfound, ?_⟩
  rintro ⟨hf, rfl⟩
  cases hfind : (build m limit).functionOf? f.target with
  | none => exact absurd (decide_eq_true rfl) (List.find?_eq_none.1 hfind f hf)
  | some g =>
    obtain ⟨hg, htarget⟩ := hfound hfind
    have hnode := (mem_functions.1 hg).2
    rw [htarget, (mem_functions.1 hf).2] at hnode
    rw [Option.some.inj hnode]

/-- The links as seen from the targets. -/
theorem neighboursOf_build (t : EntityId) :
    (build m limit).neighboursOf t = m.agents.filter fun a => t ∈ considered m limit a := by
  unfold neighboursOf
  split
  · rename_i f hfind
    obtain ⟨hf, rfl⟩ := functionOf?_eq_some.1 hfind
    exact (functionNode?_eq_some (mem_functions.1 hf).2).2.1
  · rename_i hnone
    by_cases ht : t ∈ m.targets
    · cases hf : functionNode? m limit t with
      | none => exact (functionNode?_eq_none hf).symm
      | some f =>
        obtain ⟨rfl, -⟩ := functionNode?_eq_some hf
        rw [functionOf?_eq_some.2 ⟨mem_functions.2 ⟨ht, hf⟩, rfl⟩] at hnone
        cases hnone
    · refine (List.filter_eq_nil_iff.2 fun a _ h => ht ?_).symm
      exact mem_targets_of_considered m limit (of_decide_eq_true h)

theorem nodup_neighboursOf (t : EntityId) : ((build m limit).neighboursOf t).Nodup := by
  rw [neighboursOf_build]
  exact m.agents_nodup.filter _

/-- A link has the same ends from either of them. -/
theorem mem_neighboursOf {a t : EntityId} :
    a ∈ (build m limit).neighboursOf t ↔ t ∈ (build m limit).candidatesOf a := by
  rw [neighboursOf_build, List.mem_filter, decide_eq_true_eq, mem_candidatesOf]

theorem owner?_eq_some {a t : EntityId} :
    (build m limit).owner? t = some a ↔
      ∃ f ∈ (build m limit).functions, f.target = t ∧ f.owner = a := by
  rw [owner?, Option.map_eq_some_iff]
  simp only [functionOf?_eq_some, and_assoc]

theorem mem_neighboursOf_of_owner {a t : EntityId} (h : (build m limit).owner? t = some a) :
    a ∈ (build m limit).neighboursOf t := by
  obtain ⟨f, hf, rfl, rfl⟩ := owner?_eq_some.1 h
  obtain ⟨-, hneighbours, howner⟩ := functionNode?_eq_some (mem_functions.1 hf).2
  rwa [neighboursOf_build, ← hneighbours]

/-- Every target that somebody considers has a host. -/
theorem exists_owner {a t : EntityId} (h : t ∈ (build m limit).candidatesOf a) :
    ∃ o, (build m limit).owner? t = some o := by
  obtain ⟨ha, ht⟩ := mem_candidatesOf.1 h
  cases hf : functionNode? m limit t with
  | none =>
    have hin : a ∈ m.agents.filter fun a => t ∈ considered m limit a :=
      List.mem_filter.2 ⟨ha, decide_eq_true ht⟩
    rw [functionNode?_eq_none hf] at hin
    cases hin
  | some f =>
    obtain ⟨rfl, -⟩ := functionNode?_eq_some hf
    refine ⟨f.owner, owner?_eq_some.2 ⟨f, mem_functions.2 ⟨?_, hf⟩, rfl, rfl⟩⟩
    exact mem_targets_of_considered m limit ht

theorem mem_hostedBy {a t : EntityId} :
    t ∈ (build m limit).hostedBy a ↔ (build m limit).owner? t = some a := by
  rw [owner?_eq_some, hostedBy, List.mem_map]
  simp only [List.mem_filter, decide_eq_true_eq]
  constructor
  · rintro ⟨f, ⟨hf, ha⟩, ht⟩
    exact ⟨f, hf, ht, ha⟩
  · rintro ⟨f, hf, ht, ha⟩
    exact ⟨f, ⟨hf, ha⟩, ht⟩

theorem nodup_hostedBy (a : EntityId) : ((build m limit).hostedBy a).Nodup := by
  rw [hostedBy, List.Nodup, List.pairwise_map]
  refine List.Pairwise.filter _ ?_
  rw [build, List.pairwise_filterMap]
  apply m.targets_nodup.imp
  intro s t hne f hf g hg
  rw [(functionNode?_eq_some hf).1, (functionNode?_eq_some hg).1]
  exact hne

/-! ## Edges -/

/-- The directed edges of a graph: both ways along every link. -/
def edges (g : FactorGraph) : List Edge :=
  g.candidates.toList.flatMap fun p => p.2.flatMap fun t => [.toTarget p.1 t, .toAgent t p.1]

/-- The edges that start in the nodes an agent hosts, as it sends along them. -/
def edgesFrom (g : FactorGraph) (a : EntityId) : List Edge :=
  (g.candidatesOf a).map (.toTarget a) ++
    (g.hostedBy a).flatMap fun t => (g.neighboursOf t).map (.toAgent t)

theorem mem_edges {e : Edge} :
    e ∈ (build m limit).edges ↔
      ∃ a, ∃ t ∈ (build m limit).candidatesOf a, e = .toTarget a t ∨ e = .toAgent t a := by
  simp only [edges, List.mem_flatMap, List.mem_pair]
  constructor
  · rintro ⟨⟨a, ts⟩, hin, t, ht, he⟩
    obtain ⟨ha, rfl⟩ := get?_candidates.1 ((SortedMap.get?_eq_some_iff _ _ _).2 hin)
    exact ⟨a, t, mem_candidatesOf.2 ⟨ha, ht⟩, he⟩
  · rintro ⟨a, t, ht, he⟩
    obtain ⟨ha, ht⟩ := mem_candidatesOf.1 ht
    exact ⟨(a, _), (SortedMap.get?_eq_some_iff _ _ _).1 (get?_candidates.2 ⟨ha, rfl⟩), t, ht, he⟩

theorem toTarget_mem_edges {a t : EntityId} :
    .toTarget a t ∈ (build m limit).edges ↔ t ∈ (build m limit).candidatesOf a := by
  rw [mem_edges]
  constructor
  · rintro ⟨b, s, hs, he⟩
    obtain ⟨rfl, rfl⟩ := Edge.toTarget_inj.1 (he.resolve_right Edge.toTarget_ne_toAgent)
    exact hs
  · exact fun ht => ⟨a, t, ht, .inl rfl⟩

theorem toAgent_mem_edges {a t : EntityId} :
    .toAgent t a ∈ (build m limit).edges ↔ t ∈ (build m limit).candidatesOf a := by
  rw [mem_edges]
  constructor
  · rintro ⟨b, s, hs, he⟩
    obtain ⟨rfl, rfl⟩ := Edge.toAgent_inj.1 (he.resolve_left Edge.toAgent_ne_toTarget)
    exact hs
  · exact fun ht => ⟨a, t, ht, .inr rfl⟩

theorem joins_of_mem_edges {e : Edge} (h : e ∈ (build m limit).edges) : e.Joins := by
  obtain ⟨a, t, -, he⟩ := mem_edges.1 h
  exact ⟨a, t, he⟩

theorem nodup_edges : (build m limit).edges.Nodup := by
  have hkeys := (build m limit).candidates.nodup_keys
  rw [SortedMap.keys, List.Nodup, List.pairwise_map] at hkeys
  refine List.nodup_flatMap.2 ⟨fun p hp => ?_, hkeys.imp fun {p q} hne e he he' => hne ?_⟩
  · obtain ⟨-, hts⟩ := get?_candidates.1 ((SortedMap.get?_eq_some_iff _ _ _).2 hp)
    have hnodup : p.2.Nodup := hts ▸ nodup_considered m limit p.1
    refine List.nodup_flatMap.2 ⟨fun t _ => by simp, hnodup.imp fun {s t} hne e he he' => hne ?_⟩
    rcases List.mem_pair.1 he with rfl | rfl <;> rcases List.mem_pair.1 he' with h | h <;>
      simp_all
  · obtain ⟨s, -, he⟩ := List.mem_flatMap.1 he
    obtain ⟨t, -, he'⟩ := List.mem_flatMap.1 he'
    rcases List.mem_pair.1 he with rfl | rfl <;> rcases List.mem_pair.1 he' with h | h <;>
      simp_all

/-- An agent sends along the edges whose sources it hosts. -/
theorem mem_edgesFrom {a : EntityId} {e : Edge} :
    e ∈ (build m limit).edgesFrom a ↔
      e ∈ (build m limit).edges ∧ (build m limit).host? e.source = some a := by
  rw [edgesFrom, List.mem_append, mem_edges]
  simp only [List.mem_map, List.mem_flatMap]
  constructor
  · rintro (⟨t, ht, rfl⟩ | ⟨t, ht, b, hb, rfl⟩)
    · exact ⟨⟨a, t, ht, .inl rfl⟩, rfl⟩
    · exact ⟨⟨b, t, mem_neighboursOf.1 hb, .inr rfl⟩, mem_hostedBy.1 ht⟩
  · rintro ⟨⟨b, t, ht, rfl | rfl⟩, hhost⟩
    · obtain rfl := Option.some.inj hhost
      exact .inl ⟨t, ht, rfl⟩
    · exact .inr ⟨t, mem_hostedBy.2 hhost, b, mem_neighboursOf.2 ht, rfl⟩

theorem nodup_edgesFrom (a : EntityId) : ((build m limit).edgesFrom a).Nodup := by
  refine List.nodup_append.2 ⟨(nodup_candidatesOf a).map fun s t h => (Edge.toTarget_inj.1 h).2,
    List.nodup_flatMap.2 ⟨fun t _ => (nodup_neighboursOf t).map fun b c h =>
      (Edge.toAgent_inj.1 h).2, (nodup_hostedBy a).imp fun {s t} hne e he he' => hne ?_⟩, ?_⟩
  · intro e he f hf
    obtain ⟨t, -, rfl⟩ := List.mem_map.1 he
    obtain ⟨s, -, hf⟩ := List.mem_flatMap.1 hf
    obtain ⟨b, -, rfl⟩ := List.mem_map.1 hf
    exact Edge.toTarget_ne_toAgent
  · obtain ⟨b, -, rfl⟩ := List.mem_map.1 he
    obtain ⟨c, -, h⟩ := List.mem_map.1 he'
    exact (Edge.toAgent_inj.1 h).1.symm

theorem mem_agents_of_host {e : Edge} (he : e ∈ (build m limit).edges) :
    (∃ a ∈ m.agents, (build m limit).host? e.source = some a) ∧
      ∃ a ∈ m.agents, (build m limit).host? e.dest = some a := by
  obtain ⟨a, t, ht, he⟩ := mem_edges.1 he
  obtain ⟨o, ho⟩ := exists_owner ht
  have ha := (mem_candidatesOf.1 ht).1
  have hom := (mem_candidatesOf.1 (mem_neighboursOf.1 (mem_neighboursOf_of_owner ho))).1
  rcases he with rfl | rfl
  · exact ⟨⟨a, ha, rfl⟩, o, hom, ho⟩
  · exact ⟨⟨o, hom, ho⟩, a, ha, rfl⟩

/-- Between them the agents send along every edge, each along its own. -/
theorem edges_perm : (m.agents.flatMap (build m limit).edgesFrom).Perm (build m limit).edges := by
  rw [List.perm_ext_iff_of_nodup _ nodup_edges]
  · intro e
    simp only [List.mem_flatMap, mem_edgesFrom]
    constructor
    · rintro ⟨a, -, he, -⟩
      exact he
    · intro he
      obtain ⟨⟨a, ha, hhost⟩, -⟩ := mem_agents_of_host he
      exact ⟨a, ha, he, hhost⟩
  · refine List.nodup_flatMap.2 ⟨fun a _ => nodup_edgesFrom a,
      m.agents_nodup.imp fun {a b} hne e he he' => hne ?_⟩
    exact Option.some.inj ((mem_edgesFrom.1 he).2.symm.trans (mem_edgesFrom.1 he').2)

end FactorGraph

end Dispatch
