import Mathlib
import Dispatch.Proofs.Accounts
import Dispatch.Proofs.Gains
import Dispatch.Proofs.Tables
/-!
# Relabelled problems

One matrix relabels another if it says the same of the same agents and targets under other names,
and lists its agents in any order (`Relabels`). The identifiers' numbers decide
nothing but in which order things are listed, so its factor graph is the renamed one
(`Relabels.edges_perm`), although other agents may host its functions, and Max-Sum sends the same
values along it (`Relabels.values_rename`).
-/

namespace Dispatch

variable {α : Type} [Scalar α] {F G : Equiv.Perm EntityId}

/-! ## Renamed edges -/

/-- The node under its new name. -/
def Node.rename (F G : EntityId → EntityId) : Node → Node
  | .ofAgent a => .ofAgent (F a)
  | .ofTarget t => .ofTarget (G t)

/-- The edge between the same nodes under their new names. -/
def Edge.rename (F G : EntityId → EntityId) (e : Edge) : Edge :=
  ⟨e.source.rename F G, e.dest.rename F G⟩

namespace Edge

theorem rename_injective : Function.Injective (Edge.rename F G) := by
  have hnode : ∀ {x y : Node}, x.rename F G = y.rename F G → x = y := by
    intro x y h
    cases x <;> cases y <;> simp_all [Node.rename]
  rintro ⟨source, dest⟩ ⟨source', dest'⟩ h
  obtain ⟨hsource, hdest⟩ := Edge.mk.inj h
  exact congrArg₂ Edge.mk (hnode hsource) (hnode hdest)

end Edge

/-! ## Renamed assignments -/

namespace Assignment

/-- The same agents work on the same targets, under their new names. -/
def Mirrors (F G : EntityId → EntityId) (x y : Assignment) : Prop :=
  ∀ a, y.get? (F a) = (x.get? a).map G

theorem mirrors_refl_iff {x y : Assignment} :
    Mirrors (Equiv.refl _) (Equiv.refl _) x y ↔ y = x := by
  simp only [Mirrors, Equiv.coe_refl, id_eq, Option.map_id]
  exact ⟨fun h => ext_get? h, fun h a => h ▸ rfl⟩

/-- The entries of mirror images are each other's, up to their order. -/
theorem Mirrors.toList_perm {x y : Assignment} (h : x.Mirrors F G y) :
    y.toList.Perm (x.toList.map fun p => (F p.1, G p.2)) := by
  refine SortedMap.toList_perm _ ?_ fun a t => ?_
  · rw [List.map_map]
    have hagents := x.nodup_agents.map F.injective
    rwa [List.map_map] at hagents
  · obtain ⟨a, rfl⟩ := F.surjective a
    change y.get? (F a) = some t ↔ _
    rw [h a, Option.map_eq_some_iff, List.mem_map]
    constructor
    · rintro ⟨s, hs, rfl⟩
      exact ⟨(a, s), mem_toList.2 hs, rfl⟩
    · rintro ⟨⟨b, s⟩, hin, heq⟩
      obtain ⟨hb, hs⟩ := Prod.mk.inj heq
      obtain rfl := F.injective hb
      exact ⟨s, mem_toList.1 hin, hs⟩

theorem Mirrors.count_eq {x y : Assignment} (h : x.Mirrors F G y) (t : EntityId) :
    y.count (G t) = x.count t := by
  have htargets : (y.toList.map Prod.snd).Perm ((x.toList.map Prod.snd).map G) := by
    refine (h.toList_perm.map Prod.snd).trans (.of_eq ?_)
    rw [List.map_map, List.map_map]
    rfl
  rw [Assignment.count_eq, htargets.count_eq, Assignment.count_eq,
    List.count_map_of_injective _ G G.injective]

theorem Mirrors.unassign {x y : Assignment} (h : x.Mirrors F G y) (a : EntityId) :
    (x.unassign a).Mirrors F G (y.unassign (F a)) := by
  intro b
  rw [get?_unassign, get?_unassign, h b]
  simp only [F.injective.eq_iff]
  split <;> rfl

theorem Mirrors.assign {x y : Assignment} (h : x.Mirrors F G y) (a t : EntityId) :
    (x.assign a t).Mirrors F G (y.assign (F a) (G t)) := by
  intro b
  rw [get?_assign, get?_assign, h b]
  simp only [F.injective.eq_iff]
  split <;> rfl

theorem Mirrors.othersOn_eq {x y : Assignment} (h : x.Mirrors F G y) (a t : EntityId) :
    y.othersOn (F a) (G t) = x.othersOn a t := (h.unassign a).count_eq t

end Assignment

/-! ## Relabelled matrices -/

theorem MaxSum.gainOf_map {rename : EntityId → EntityId} (h : rename.Injective)
    (ids : List EntityId) (gains : List α) (id : EntityId) :
    gainOf (ids.map rename) gains (rename id) = gainOf ids gains id := by
  have hlookup : ((ids.map rename).zip gains).lookup (rename id) = (ids.zip gains).lookup id := by
    induction ids generalizing gains with
    | nil => rfl
    | cons b rest ih =>
      cases gains with
      | nil => rfl
      | cons v gains =>
        have hsame : (rename id == rename b) = (id == b) :=
          Bool.eq_iff_iff.2 (by rw [beq_iff_eq, beq_iff_eq, h.eq_iff])
        rw [List.map_cons, List.zip_cons_cons, List.zip_cons_cons, List.lookup_cons,
          List.lookup_cons, hsame, ih]
  rw [gainOf, gainOf, hlookup]

theorem UtilityMatrix.ranked_map {score score' : EntityId → α} (h : ∀ t, score' (G t) = score t)
    (ids : List EntityId) : ranked score' (ids.map G) = (ranked score ids).map G := by
  have hscored : (ids.map G).map (fun id => (id, score' id)) =
      (ids.map fun id => (id, score id)).map (Prod.map G id) := by
    rw [List.map_map, List.map_map]
    exact List.map_congr_left fun t _ => Prod.ext rfl (h t)
  rw [ranked, ranked, hscored, sortBy_map (fun _ _ => rfl), List.map_map, List.map_map]
  rfl

/-- The second matrix is the first one under other names, with its agents in any order. -/
structure Relabels (F G : Equiv.Perm EntityId) (m m' : UtilityMatrix α) : Prop where
  agents_perm : m'.agents.Perm (m.agents.map F)
  targets_eq : m'.targets = m.targets.map G
  utility_eq : ∀ a t, m'.utility (F a) (G t) = m.utility a t
  need_eq : ∀ t, m'.need (G t) = m.need t
  penalty_eq : m'.penalty = m.penalty

namespace Relabels
variable {m m' : UtilityMatrix α} (h : Relabels F G m m')
include h

theorem mem_agents {a : EntityId} : F a ∈ m'.agents ↔ a ∈ m.agents := by
  rw [h.agents_perm.mem_iff, List.mem_map_of_injective F.injective]

theorem congestion_eq (t : EntityId) : m'.congestion (G t) = m.congestion t := by
  funext assigned
  rw [UtilityMatrix.congestion, UtilityMatrix.congestion, h.need_eq, h.penalty_eq]

/-! ### Factor graphs -/

open FactorGraph
variable (limit : Option Nat)

theorem considered_eq (a : EntityId) :
    considered m' limit (F a) = (considered m limit a).map G := by
  cases limit with
  | none => exact h.targets_eq
  | some n =>
    show (UtilityMatrix.ranked (m'.utility (F a)) m'.targets).take n = _
    rw [h.targets_eq, UtilityMatrix.ranked_map (h.utility_eq a), ← List.map_take]
    rfl

theorem mem_considered {a t : EntityId} :
    G t ∈ considered m' limit (F a) ↔ t ∈ considered m limit a := by
  rw [h.considered_eq, List.mem_map_of_injective G.injective]

theorem candidatesOf_eq (a : EntityId) :
    (build m' limit).candidatesOf (F a) = ((build m limit).candidatesOf a).map G := by
  by_cases ha : a ∈ m.agents
  · rw [candidatesOf_build ha, candidatesOf_build (h.mem_agents.2 ha), h.considered_eq]
  · rw [candidatesOf_of_not_mem ha, candidatesOf_of_not_mem (mt h.mem_agents.1 ha), List.map_nil]

theorem neighboursOf_perm (t : EntityId) :
    ((build m' limit).neighboursOf (G t)).Perm (((build m limit).neighboursOf t).map F) := by
  rw [neighboursOf_build, neighboursOf_build]
  refine (h.agents_perm.filter _).trans (.of_eq ?_)
  rw [List.filter_map]
  exact congrArg _ (List.filter_congr fun a _ => decide_eq_decide.2 (h.mem_considered limit))

theorem edges_perm : (build m' limit).edges.Perm ((build m limit).edges.map (Edge.rename F G)) := by
  rw [List.perm_ext_iff_of_nodup nodup_edges (nodup_edges.map Edge.rename_injective)]
  intro e
  simp only [List.mem_map, mem_edges]
  constructor
  · rintro ⟨a, t, ht, he⟩
    obtain ⟨a, rfl⟩ := F.surjective a
    rw [h.candidatesOf_eq] at ht
    obtain ⟨s, hs, rfl⟩ := List.mem_map.1 ht
    rcases he with rfl | rfl
    · exact ⟨.toTarget a s, ⟨a, s, hs, .inl rfl⟩, rfl⟩
    · exact ⟨.toAgent s a, ⟨a, s, hs, .inr rfl⟩, rfl⟩
  · rintro ⟨e, ⟨a, t, ht, he⟩, rfl⟩
    refine ⟨F a, G t, ?_, ?_⟩
    · rw [h.candidatesOf_eq]
      exact List.mem_map_of_mem ht
    · rcases he with rfl | rfl
      · exact .inl rfl
      · exact .inr rfl

theorem forall_edges {P : Edge → Prop} :
    (∀ e ∈ (build m' limit).edges, P e) ↔ ∀ e ∈ (build m limit).edges, P (e.rename F G) := by
  simp only [(h.edges_perm limit).mem_iff, List.forall_mem_map]

theorem linkCount_eq : (build m' limit).linkCount = (build m limit).linkCount := by
  have hlength := (h.edges_perm limit).length_eq
  rw [List.length_map, length_edges, length_edges] at hlength
  omega

/-! ### The recurrence -/

open MaxSum

theorem reply_rename [SortingScalar α] {v v' : Edge → α} (hv : ∀ e, v' (e.rename F G) = v e)
    (e : Edge) :
    reply m' (build m' limit) v' (e.rename F G) = reply m (build m limit) v e := by
  obtain ⟨a | t, b | s⟩ := e
  · rfl
  · have hutility : (((build m limit).candidatesOf a).map G).map (m'.utility (F a)) =
        ((build m limit).candidatesOf a).map (m.utility a) := by
      rw [List.map_map]
      exact List.map_congr_left fun t _ => h.utility_eq a t
    have hincoming : (((build m limit).candidatesOf a).map G).map (fun t => v' (.toAgent t (F a))) =
        ((build m limit).candidatesOf a).map fun t => v (.toAgent t a) := by
      rw [List.map_map]
      exact List.map_congr_left fun t _ => hv (.toAgent t a)
    show gainOf ((build m' limit).candidatesOf (F a)) (choiceGains _ _) (G s) = _
    rw [h.candidatesOf_eq, hutility, hincoming, gainOf_map G.injective]
    rfl
  · show gainOf _ (loadGains _ (m'.congestion (G t))) (F b) = _
    rw [h.congestion_eq]
    exact gainOf_loadGains_map (nodup_neighboursOf t) F.injective (h.neighboursOf_perm limit t)
      (fun a _ => hv (.toTarget a t)) _ b
  · rfl

/-- Max-Sum sends the same values along the renamed edges. -/
theorem values_rename [SortingScalar α] (settings : Settings α) (n : Nat) (e : Edge) :
    values settings m' n (e.rename F G) = values settings m n e := by
  induction n generalizing e with
  | zero => rfl
  | succ n ih => rw [values_succ, values_succ, ih, h.reply_rename _ ih]

/-- Agents score their candidates as they do under the old names. -/
theorem earliestBest_map [SortingScalar α] {settings : Settings α} {n : Nat} {a : EntityId}
    {choice choice' : Option EntityId}
    (hchoice : EarliestBest (fun t => m.utility a t + values settings m n (.toAgent t a))
      ((build m limit).candidatesOf a) choice)
    (hchoice' : EarliestBest (fun t => m'.utility (F a) t +
      values settings m' n (.toAgent t (F a))) ((build m' limit).candidatesOf (F a)) choice') :
    choice' = choice.map G := by
  rw [h.candidatesOf_eq] at hchoice'
  refine hchoice'.unique (hchoice.map fun t _ => ?_)
  rw [h.utility_eq, ← h.values_rename settings n (.toAgent t a)]
  rfl

end Relabels

/-- In exact arithmetic mirror images are worth the same. -/
theorem Relabels.totalUtility_eq {m m' : UtilityMatrix Rat} (h : Relabels F G m m')
    {x y : Assignment} (hxy : x.Mirrors F G y) : m'.totalUtility y = m.totalUtility x := by
  rw [m'.totalUtility_eq, m.totalUtility_eq, (hxy.toList_perm.map _).sum_eq, List.map_map]
  exact congrArg List.sum (List.map_congr_left fun p _ => h.utility_eq p.1 p.2)

/-- Without new names they are in any arithmetic. -/
theorem Relabels.totalUtility_eq_of_refl {m m' : UtilityMatrix α}
    (h : Relabels (.refl _) (.refl _) m m') {x y : Assignment}
    (hxy : x.Mirrors (Equiv.refl _) (Equiv.refl _) y) : m'.totalUtility y = m.totalUtility x := by
  rw [Assignment.mirrors_refl_iff.1 hxy]
  exact congrArg Scalar.sum (List.map_congr_left fun p _ => h.utility_eq p.1 p.2)

/-! ## Relabelled problems -/

/-- The second problem is the first one under other names, with its agents in any order. -/
structure Instance.Relabels (F G : Equiv.Perm EntityId) (inst : Instance) (oracle : Oracle α)
    (inst' : Instance) (oracle' : Oracle α) : Prop where
  agents_perm : inst'.agents.Perm (inst.agents.map F)
  targets_eq : inst'.targets = inst.targets.map G
  utility_eq : ∀ a ∈ inst.agents, ∀ t ∈ inst.targets,
    oracle'.utility (F a) (G t) = oracle.utility a t
  need_eq : ∀ t ∈ inst.targets, oracle'.need (G t) = oracle.need t

namespace Instance.Relabels
variable {inst inst' : Instance} {oracle oracle' : Oracle α}
  (h : inst.Relabels F G oracle inst' oracle')
include h

omit [Scalar α] in
theorem mem_agents {a : EntityId} : F a ∈ inst'.agents ↔ a ∈ inst.agents := by
  rw [h.agents_perm.mem_iff, List.mem_map_of_injective F.injective]

omit [Scalar α] in
theorem mem_targets {t : EntityId} : G t ∈ inst'.targets ↔ t ∈ inst.targets := by
  rw [h.targets_eq, List.mem_map_of_injective G.injective]

theorem accepts_iff {settings : Solver.Settings α} :
    Solver.Accepts settings oracle' inst' ↔ Solver.Accepts settings oracle inst := by
  have hagents : inst'.agents.Nodup ↔ inst.agents.Nodup := by
    rw [h.agents_perm.nodup_iff, List.nodup_map_iff F.injective]
  have htargets : inst'.targets.Nodup ↔ inst.targets.Nodup := by
    rw [h.targets_eq, List.nodup_map_iff G.injective]
  constructor
  · rintro ⟨hvalid, hnodup, hnodup', hfinite⟩
    refine ⟨hvalid, hagents.1 hnodup, htargets.1 hnodup', fun a ha t ht => ?_⟩
    rw [← h.utility_eq a ha t ht]
    exact hfinite _ (h.mem_agents.2 ha) _ (h.mem_targets.2 ht)
  · rintro ⟨hvalid, hnodup, hnodup', hfinite⟩
    refine ⟨hvalid, hagents.2 hnodup, htargets.2 hnodup', fun a ha t ht => ?_⟩
    obtain ⟨a, rfl⟩ := F.surjective a
    obtain ⟨t, rfl⟩ := G.surjective t
    rw [h.mem_agents] at ha
    rw [h.mem_targets] at ht
    rw [h.utility_eq a ha t ht]
    exact hfinite a ha t ht

/-- So are the matrices built of them. -/
theorem matrix {penalty : α} {m m' : UtilityMatrix α}
    (hbuild : UtilityMatrix.build inst oracle penalty = .ok m)
    (hbuild' : UtilityMatrix.build inst' oracle' penalty = .ok m') :
    Dispatch.Relabels F G m m' := by
  obtain ⟨hagents, htargets⟩ := UtilityMatrix.build_eq_ok hbuild
  obtain ⟨hagents', htargets'⟩ := UtilityMatrix.build_eq_ok hbuild'
  refine ⟨?_, ?_, fun a t => ?_, fun t => ?_, ?_⟩
  · rw [hagents, hagents']
    exact h.agents_perm
  · rw [htargets, htargets']
    exact h.targets_eq
  · rw [UtilityMatrix.utility_build hbuild, UtilityMatrix.utility_build hbuild']
    simp only [h.mem_agents, h.mem_targets]
    exact ite_congr rfl (fun hin => h.utility_eq a hin.1 t hin.2) fun _ => rfl
  · rw [UtilityMatrix.need_build hbuild, UtilityMatrix.need_build hbuild']
    simp only [h.mem_targets]
    exact ite_congr rfl (fun hin => h.need_eq t hin) fun _ => rfl
  · rw [(UtilityMatrix.tabulates_of_build hbuild).penalty_eq,
      (UtilityMatrix.tabulates_of_build hbuild').penalty_eq]

end Instance.Relabels

end Dispatch
