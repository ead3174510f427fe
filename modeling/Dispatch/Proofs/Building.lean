import Mathlib
import Dispatch.Matrix
/-!
# What a matrix is built from

`UtilityMatrix.build` makes the tables of a problem that it admits (`Admits`, `Tabulates`), and
names the first fault of any other (`Fault`). `UtilityMatrix.build_outcome` says that it does one or
the other; nothing else opens the definition. A fault is stated without the scan that finds it: the
first repeated identifier as a place in a list (`FirstRepeated`), the first bad pair as a place
among the agents and one among the targets (`FirstUndefined`).
-/

namespace Dispatch

/-! ## The first repeated identifier -/

/-- The identifier is the first one in the list that has occurred before. -/
def FirstRepeated (id : EntityId) (ids : List EntityId) : Prop :=
  ∃ before after, ids = before ++ id :: after ∧ before.Nodup ∧ id ∈ before

theorem firstRepeatFrom_eq_some_iff {seen ids : List EntityId} {id : EntityId} :
    firstRepeatFrom seen ids = some id ↔
      ∃ before after, ids = before ++ id :: after ∧ before.Nodup ∧ (∀ x ∈ before, x ∉ seen) ∧
        (id ∈ before ∨ id ∈ seen) := by
  induction ids generalizing seen with
  | nil => simp [firstRepeatFrom]
  | cons first rest ih =>
    rw [firstRepeatFrom]
    split
    · rename_i hseen
      constructor
      · intro h
        cases h
        exact ⟨[], rest, rfl, List.nodup_nil, by simp, .inr hseen⟩
      · rintro ⟨before, after, heq, -, hfresh, -⟩
        cases before with
        | nil => rw [(List.cons.inj heq).1]
        | cons x before =>
          obtain ⟨rfl, -⟩ := List.cons.inj heq
          exact absurd hseen (hfresh first List.mem_cons_self)
    · rename_i hfirst
      rw [ih]
      constructor
      · rintro ⟨before, after, rfl, hnodup, hfresh, hin⟩
        refine ⟨first :: before, after, rfl, List.nodup_cons.2 ⟨fun h => ?_, hnodup⟩,
          List.forall_mem_cons.2 ⟨hfirst, fun x hx hseen => ?_⟩, ?_⟩
        · exact hfresh first h List.mem_cons_self
        · exact hfresh x hx (List.mem_cons_of_mem _ hseen)
        · simp only [List.mem_cons] at hin ⊢
          tauto
      · rintro ⟨before, after, heq, hnodup, hfresh, hin⟩
        cases before with
        | nil =>
          obtain ⟨rfl, -⟩ := List.cons.inj heq
          exact absurd hin (by simp [hfirst])
        | cons x before =>
          obtain ⟨rfl, rfl⟩ := List.cons.inj heq
          obtain ⟨hx, hnodup⟩ := List.nodup_cons.1 hnodup
          obtain ⟨-, hfresh⟩ := List.forall_mem_cons.1 hfresh
          refine ⟨before, after, rfl, hnodup, fun y hy => ?_, ?_⟩
          · rw [List.mem_cons, not_or]
            exact ⟨fun h => hx (h ▸ hy), hfresh y hy⟩
          · simp only [List.mem_cons] at hin ⊢
            tauto

theorem firstRepeat_eq_some_iff {ids : List EntityId} {id : EntityId} :
    firstRepeat ids = some id ↔ FirstRepeated id ids := by
  rw [firstRepeat, firstRepeatFrom_eq_some_iff, FirstRepeated]
  simp

theorem FirstRepeated.duplicate {ids : List EntityId} {id : EntityId} (h : FirstRepeated id ids) :
    List.Duplicate id ids := by
  obtain ⟨before, after, rfl, -, hin⟩ := h
  rw [List.duplicate_iff_two_le_count, List.count_append, List.count_cons_self]
  have := List.count_pos_iff.2 hin
  omega

/-! ## The first bad pair -/

variable {α : Type} [Scalar α]

/-- The pair is the first one without a finite utility, if the agents are gone through in turn and
with each agent the targets. -/
def FirstUndefined (inst : Instance) (oracle : Oracle α) (a t : EntityId) : Prop :=
  ∃ agents agents' targets targets',
    inst.agents = agents ++ a :: agents' ∧ inst.targets = targets ++ t :: targets' ∧
    (∀ b ∈ agents, ∀ s ∈ inst.targets, Scalar.isFinite (oracle.utility b s) = true) ∧
    (∀ s ∈ targets, Scalar.isFinite (oracle.utility a s) = true) ∧
    Scalar.isFinite (oracle.utility a t) = false

theorem FirstUndefined.mem {inst : Instance} {oracle : Oracle α} {a t : EntityId}
    (h : FirstUndefined inst oracle a t) :
    a ∈ inst.agents ∧ t ∈ inst.targets ∧ Scalar.isFinite (oracle.utility a t) = false := by
  obtain ⟨agents, agents', targets, targets', hagents, htargets, -, -, hbad⟩ := h
  exact ⟨by simp [hagents], by simp [htargets], hbad⟩

theorem Instance.find?_pairs_eq_some_iff {inst : Instance} {oracle : Oracle α} {a t : EntityId} :
    inst.pairs.find? (fun p => !Scalar.isFinite (oracle.utility p.1 p.2)) = some (a, t) ↔
      FirstUndefined inst oracle a t := by
  rw [pairs, List.find?_flatMap, List.findSome?_eq_some_iff, FirstUndefined]
  simp only [List.find?_map, Option.map_eq_some_iff, Option.map_eq_none_iff,
    List.find?_eq_some_iff_append, List.find?_eq_none, Function.comp_apply, Prod.mk.injEq,
    Bool.not_eq_true', Bool.not_not, Bool.not_eq_false]
  constructor
  · rintro ⟨agents, b, agents', hagents, ⟨s, ⟨hbad, targets, targets', htargets, hrow⟩, rfl, rfl⟩,
      hrows⟩
    exact ⟨agents, agents', targets, targets', hagents, htargets, hrows, hrow, hbad⟩
  · rintro ⟨agents, agents', targets, targets', hagents, htargets, hrows, hrow, hbad⟩
    exact ⟨agents, a, agents', hagents, ⟨t, ⟨hbad, targets, targets', htargets, hrow⟩, rfl, rfl⟩,
      hrows⟩

/-! ## Building -/

namespace UtilityMatrix

/-- Nothing speaks against a matrix of the problem. -/
structure Admits (inst : Instance) (oracle : Oracle α) (penalty : α) : Prop where
  isAmount_penalty : Scalar.IsAmount penalty
  agents_nodup : inst.agents.Nodup
  targets_nodup : inst.targets.Nodup
  isFinite_utility : ∀ a ∈ inst.agents, ∀ t ∈ inst.targets,
    Scalar.isFinite (oracle.utility a t) = true

/-- The first thing that speaks against it, as a failure. -/
inductive Fault (inst : Instance) (oracle : Oracle α) (penalty : α) : Error α → Prop
  | penalty (h : ¬ Scalar.IsAmount penalty) :
      Fault inst oracle penalty (.configuration (.matrixPenalty penalty))
  | agent {id : EntityId} (hpenalty : Scalar.IsAmount penalty)
      (h : FirstRepeated id inst.agents) : Fault inst oracle penalty (.invalidIdentifier id)
  | target {id : EntityId} (hpenalty : Scalar.IsAmount penalty) (hagents : inst.agents.Nodup)
      (h : FirstRepeated id inst.targets) : Fault inst oracle penalty (.invalidIdentifier id)
  | utility {a t : EntityId} (hpenalty : Scalar.IsAmount penalty) (hagents : inst.agents.Nodup)
      (htargets : inst.targets.Nodup) (h : FirstUndefined inst oracle a t) :
      Fault inst oracle penalty (.nonFiniteUtility a t (oracle.utility a t))

/-- The tables of the matrix are those of the problem. -/
structure Tabulates (inst : Instance) (oracle : Oracle α) (penalty : α) (m : UtilityMatrix α) :
    Prop where
  agents_eq : m.agents = inst.agents
  targets_eq : m.targets = inst.targets
  locations_eq : m.locations = inst.locations
  values_eq : m.values = (inst.pairs.map fun p => oracle.utility p.1 p.2).toArray
  needs_eq : m.needs = (inst.targets.map oracle.need).toArray
  penalty_eq : m.penalty = penalty

variable {inst : Instance} {oracle : Oracle α} {penalty : α} {m : UtilityMatrix α} {e : Error α}

/-- A matrix of a problem that admits one, or the first fault of one that does not. -/
theorem build_outcome (inst : Instance) (oracle : Oracle α) (penalty : α) :
    (Admits inst oracle penalty ∧
      ∃ m, build inst oracle penalty = .ok m ∧ Tabulates inst oracle penalty m) ∨
    ∃ e, build inst oracle penalty = .error e ∧ Fault inst oracle penalty e := by
  unfold build
  split
  · rename_i hpenalty
    split
    · rename_i id hagent
      exact .inr ⟨_, rfl, .agent hpenalty (firstRepeat_eq_some_iff.1 hagent)⟩
    · rename_i hagents
      replace hagents := firstRepeat_eq_none.1 hagents
      split
      · rename_i id htarget
        exact .inr ⟨_, rfl, .target hpenalty hagents (firstRepeat_eq_some_iff.1 htarget)⟩
      · rename_i htargets
        replace htargets := firstRepeat_eq_none.1 htargets
        split
        · rename_i p hpair
          exact .inr ⟨_, rfl,
            .utility hpenalty hagents htargets (Instance.find?_pairs_eq_some_iff.1 hpair)⟩
        · rename_i hpairs
          refine .inl ⟨⟨hpenalty, hagents, htargets, fun a ha t ht => ?_⟩, _, rfl,
            ⟨rfl, rfl, rfl, rfl, rfl, rfl⟩⟩
          have hin : (a, t) ∈ inst.pairs := by simp [Instance.pairs, ha, ht]
          simpa using List.find?_eq_none.1 hpairs (a, t) hin
  · rename_i hpenalty
    exact .inr ⟨_, rfl, .penalty hpenalty⟩

theorem Fault.not_admits (h : Fault inst oracle penalty e) : ¬ Admits inst oracle penalty := by
  intro hadmits
  cases h with
  | penalty h => exact h hadmits.isAmount_penalty
  | agent _ h => exact h.duplicate.not_nodup hadmits.agents_nodup
  | target _ _ h => exact h.duplicate.not_nodup hadmits.targets_nodup
  | utility _ _ _ h =>
    obtain ⟨ha, ht, hbad⟩ := h.mem
    rw [hadmits.isFinite_utility _ ha _ ht] at hbad
    cases hbad

/-- There is only one first fault. -/
theorem Fault.unique {e' : Error α} (h : Fault inst oracle penalty e)
    (h' : Fault inst oracle penalty e') : e = e' := by
  have hrepeated : ∀ {ids : List EntityId} {id id' : EntityId},
      FirstRepeated id ids → FirstRepeated id' ids → id = id' := by
    intro ids id id' hid hid'
    rw [← firstRepeat_eq_some_iff] at hid hid'
    exact Option.some.inj (hid.symm.trans hid')
  cases h with
  | penalty h =>
    cases h' with
    | penalty => rfl
    | agent hp | target hp | utility hp => exact absurd hp h
  | agent hp h =>
    cases h' with
    | penalty hp' => exact absurd hp hp'
    | agent _ h' => rw [hrepeated h h']
    | target _ hn | utility _ hn => exact absurd hn h.duplicate.not_nodup
  | target hp ha h =>
    cases h' with
    | penalty hp' => exact absurd hp hp'
    | agent _ h' => exact absurd ha h'.duplicate.not_nodup
    | target _ _ h' => rw [hrepeated h h']
    | utility _ _ hn => exact absurd hn h.duplicate.not_nodup
  | utility hp ha ht h =>
    cases h' with
    | penalty hp' => exact absurd hp hp'
    | agent _ h' => exact absurd ha h'.duplicate.not_nodup
    | target _ _ h' => exact absurd ht h'.duplicate.not_nodup
    | utility _ _ _ h' =>
      rw [← Instance.find?_pairs_eq_some_iff] at h h'
      obtain ⟨rfl, rfl⟩ := Prod.mk.inj (Option.some.inj (h.symm.trans h'))
      rfl

theorem build_eq_error_iff :
    build inst oracle penalty = .error e ↔ Fault inst oracle penalty e := by
  rcases build_outcome inst oracle penalty with ⟨hadmits, m, hok, -⟩ | ⟨e', herror, hfault⟩
  · simp only [hok, reduceCtorEq, false_iff]
    exact fun hfault => hfault.not_admits hadmits
  · rw [herror, Except.error.injEq]
    exact ⟨fun h => h ▸ hfault, hfault.unique⟩

theorem build_succeeds_iff :
    (∃ m, build inst oracle penalty = .ok m) ↔ Admits inst oracle penalty := by
  rcases build_outcome inst oracle penalty with ⟨hadmits, m, hok, -⟩ | ⟨e, herror, hfault⟩
  · exact ⟨fun _ => hadmits, fun _ => ⟨m, hok⟩⟩
  · simp only [herror, reduceCtorEq, exists_false, false_iff]
    exact hfault.not_admits

theorem tabulates_of_build (h : build inst oracle penalty = .ok m) :
    Tabulates inst oracle penalty m := by
  rcases build_outcome inst oracle penalty with ⟨-, m', hok, htables⟩ | ⟨e, herror, -⟩
  · cases hok.symm.trans h
    exact htables
  · cases herror.symm.trans h

/-- A matrix has the agents and the targets of its problem. -/
theorem build_eq_ok (h : build inst oracle penalty = .ok m) :
    m.agents = inst.agents ∧ m.targets = inst.targets :=
  ⟨(tabulates_of_build h).agents_eq, (tabulates_of_build h).targets_eq⟩

end UtilityMatrix

end Dispatch
