import Mathlib
import Dispatch.Outlook
/-!
# Entries and headcounts

The entries of a map are, up to their order, any list without repeated keys that has the same
lookups (`SortedMap.toList_perm`). From this follow the two facts that all counting rests on:
assigning one more agent adds one entry to an assignment (`Assignment.toList_assign`), and
`Counts.ofTargets` counts (`Counts.of_ofTargets`).
-/

namespace Dispatch

/-! ## Keyed lists -/

section Keyed
variable {ι κ β : Type} {key : ι → κ} {value : ι → Option β} {l : List ι}

theorem mem_keyed {k : κ} {v : β} :
    (k, v) ∈ (l.filterMap fun i => (value i).map fun v => (key i, v)) ↔
      ∃ i ∈ l, key i = k ∧ value i = some v := by
  simp only [List.mem_filterMap, Option.map_eq_some_iff, Prod.mk.injEq]
  constructor
  · rintro ⟨i, hi, w, hw, rfl, rfl⟩
    exact ⟨i, hi, rfl, hw⟩
  · rintro ⟨i, hi, rfl, hv⟩
    exact ⟨i, hi, v, hv, rfl, rfl⟩

/-- Leaving out what has no value repeats no key. -/
theorem nodup_keyed (h : (l.map key).Nodup) :
    ((l.filterMap fun i => (value i).map fun v => (key i, v)).map Prod.fst).Nodup := by
  rw [List.Nodup, List.pairwise_map, List.pairwise_filterMap]
  rw [List.Nodup, List.pairwise_map] at h
  refine h.imp fun {i j} hne e he f hf heq => hne ?_
  obtain ⟨_, -, rfl⟩ := Option.map_eq_some_iff.1 he
  obtain ⟨_, -, rfl⟩ := Option.map_eq_some_iff.1 hf
  exact heq

end Keyed

/-- A sum may leave out what counts for nothing. -/
theorem sum_map_filter_of_zero {ι : Type} {p : ι → Bool} {f : ι → Nat} {l : List ι}
    (h : ∀ x ∈ l, p x = false → f x = 0) : ((l.filter p).map f).sum = (l.map f).sum := by
  induction l with
  | nil => rfl
  | cons x rest ih =>
    obtain ⟨hx, hrest⟩ := List.forall_mem_cons.1 h
    cases hp : p x with
    | true => rw [List.filter_cons_of_pos hp, List.map_cons, List.map_cons, List.sum_cons,
        List.sum_cons, ih hrest]
    | false => rw [List.filter_cons_of_neg (by simp [hp]), List.map_cons, List.sum_cons, hx hp,
        Nat.zero_add, ih hrest]

/-! ## Entries of a map -/

namespace SortedMap
variable {κ β : Type} [Ranked κ]

theorem nodup_keys (m : SortedMap κ β) : m.keys.Nodup :=
  List.pairwise_map.2 (m.sorted.imp fun {_ _} h e => absurd (congrArg rank e) (Nat.ne_of_lt h))

theorem nodup_toList (m : SortedMap κ β) : m.toList.Nodup := .of_map _ m.nodup_keys

/-- A list without repeated keys that has the same lookups is a reordering of the entries. -/
theorem toList_perm (m : SortedMap κ β) {l : List (κ × β)} (hl : (l.map Prod.fst).Nodup)
    (h : ∀ k v, m.get? k = some v ↔ (k, v) ∈ l) : m.toList.Perm l := by
  rw [List.perm_ext_iff_of_nodup m.nodup_toList (.of_map _ hl)]
  rintro ⟨k, v⟩
  rw [← get?_eq_some_iff, h]

theorem get?_foldl_insert {l : List (κ × β)} (hl : (l.map Prod.fst).Nodup) (m : SortedMap κ β)
    (k : κ) (v : β) :
    (l.foldl (fun m e => m.insert e.1 e.2) m).get? k = some v ↔
      (k, v) ∈ l ∨ k ∉ l.map Prod.fst ∧ m.get? k = some v := by
  induction l generalizing m with
  | nil => simp
  | cons e rest ih =>
    obtain ⟨hfresh, hrest⟩ := List.nodup_cons.1 hl
    rw [List.foldl_cons, ih hrest, get?_insert]
    by_cases hk : e.1 = k
    · subst hk
      simp [hfresh, Prod.ext_iff, eq_comm]
      exact or_comm
    · have hrank : rank e.1 ≠ rank k := fun h => hk (rank_inj h)
      simp [hrank, Prod.ext_iff, Ne.symm hk]

/-- Setting keys to what one function says of them leaves no trace of their order. -/
theorem get?_foldl_insert_view {ι : Type} [DecidableEq κ] (key : ι → κ) (view : κ → β) (l : List ι)
    (m : SortedMap κ β) (k : κ) :
    (l.foldl (fun m i => m.insert (key i) (view (key i))) m).get? k =
      if k ∈ l.map key then some (view k) else m.get? k := by
  induction l generalizing m with
  | nil => rfl
  | cons i rest ih =>
    rw [List.foldl_cons, ih, get?_insert]
    simp only [rank_eq_iff, List.map_cons, List.mem_cons]
    by_cases hk : k ∈ rest.map key
    · rw [if_pos hk, if_pos (.inr hk)]
    · by_cases hi : key i = k
      · rw [if_neg hk, if_pos hi, if_pos (.inl hi.symm), hi]
      · rw [if_neg hk, if_neg hi, if_neg (by simp [hk, Ne.symm hi])]

theorem get?_ofList {l : List (κ × β)} (hl : (l.map Prod.fst).Nodup) {k : κ} {v : β} :
    (ofList l).get? k = some v ↔ (k, v) ∈ l := by
  simp [ofList, get?_foldl_insert hl]

end SortedMap

/-! ## Entries of an assignment -/

namespace Assignment

theorem mem_toList {x : Assignment} {a t : EntityId} : (a, t) ∈ x.toList ↔ x.get? a = some t :=
  (SortedMap.get?_eq_some_iff x.targets a t).symm

theorem nodup_agents (x : Assignment) : (x.toList.map Prod.fst).Nodup := x.targets.nodup_keys

theorem count_eq (x : Assignment) (t : EntityId) : x.count t = (x.toList.map Prod.snd).count t :=
  rfl

/-- Assigning an agent without a target adds one entry. -/
theorem toList_assign {x : Assignment} {a : EntityId} (t : EntityId) (h : x.get? a = none) :
    (x.assign a t).toList.Perm ((a, t) :: x.toList) := by
  refine SortedMap.toList_perm _ (List.nodup_cons.2 ⟨fun hin => ?_, x.nodup_agents⟩) fun b s => ?_
  · obtain ⟨⟨b, s⟩, hbs, rfl⟩ := List.mem_map.1 hin
    rw [mem_toList, h] at hbs
    cases hbs
  · change (x.assign a t).get? b = some s ↔ _
    rw [get?_assign, List.mem_cons, mem_toList, Prod.mk.injEq]
    by_cases hab : a = b
    · subst hab
      simp [h, eq_comm]
    · simp [hab, Ne.symm hab]

theorem assign_of_get? {x : Assignment} {a t : EntityId} (h : x.get? a = some t) :
    x.assign a t = x := by
  apply ext_get?
  intro b
  rw [get?_assign]
  split
  · rename_i hab
    rw [← hab, h]
  · rfl

/-- What an agent worked on before does not matter to its next target. -/
theorem unassign_assign (x : Assignment) (a t : EntityId) :
    (x.unassign a).assign a t = x.assign a t := by
  apply ext_get?
  intro b
  rw [get?_assign, get?_assign, get?_unassign]
  split <;> rfl

theorem unassign_of_get? {x : Assignment} {a : EntityId} (h : x.get? a = none) :
    x.unassign a = x := by
  apply ext_get?
  intro b
  rw [get?_unassign]
  split
  · rename_i hab
    rw [← hab, h]
  · rfl

theorem count_assign {x : Assignment} {a : EntityId} (t s : EntityId) (h : x.get? a = none) :
    (x.assign a t).count s = x.count s + if t = s then 1 else 0 := by
  rw [count_eq, ((toList_assign t h).map _).count_eq, List.map_cons, List.count_cons, count_eq]
  simp only [beq_iff_eq]

/-- How many agents other than the given one work on a target. -/
def othersOn (x : Assignment) (a t : EntityId) : Nat := (x.unassign a).count t

theorem count_eq_othersOn (x : Assignment) (a t : EntityId) :
    x.count t = x.othersOn a t + if x.get? a = some t then 1 else 0 := by
  rcases hx : x.get? a with _ | s
  · simp [othersOn, unassign_of_get? hx]
  · conv_lhs => rw [← assign_of_get? hx, ← unassign_assign]
    rw [count_assign _ _ (by rw [get?_unassign, if_pos rfl]), othersOn]
    simp

/-- The others on a target are fewer than the agents there are. -/
theorem othersOn_lt {x : Assignment} {agents : List EntityId}
    (hx : ∀ b t, x.get? b = some t → b ∈ agents) {a : EntityId} (ha : a ∈ agents) (t : EntityId) :
    x.othersOn a t < agents.length := by
  have hothers : ((x.unassign a).toList.map Prod.fst).Subperm (agents.erase a) := by
    refine List.subperm_of_subset (x.unassign a).nodup_agents fun b hb => ?_
    obtain ⟨⟨b, s⟩, hin, rfl⟩ := List.mem_map.1 hb
    have hget := mem_toList.1 hin
    rw [get?_unassign] at hget
    split at hget
    · cases hget
    · rename_i hne
      exact (List.mem_erase_of_ne (Ne.symm hne)).2 (hx b s hget)
  have hcount : x.othersOn a t ≤ (agents.erase a).length := by
    have hlength := hothers.length_le
    rw [List.length_map] at hlength
    rw [othersOn, count_eq]
    exact List.count_le_length.trans (by rwa [List.length_map])
  rw [List.length_erase_of_mem ha] at hcount
  have := List.length_pos_of_mem ha
  omega

end Assignment

/-! ## Counts -/

namespace Counts

theorem of_increase (c : Counts) (s t : EntityId) :
    (c.increase s).of t = c.of t + if s = t then 1 else 0 := by
  simp only [of, increase, SortedMap.getD, SortedMap.get?_insert, rank_eq_iff]
  split
  · rename_i h
    rw [h]
    rfl
  · rfl

theorem of_decrease (c : Counts) (s t : EntityId) :
    (c.decrease s).of t = c.of t - if s = t then 1 else 0 := by
  unfold decrease
  rcases hs : c.get? s with _ | n
  · simp only
    split
    · rename_i h
      rw [← h]
      simp [of, SortedMap.getD, hs]
    · rfl
  · simp only [of, SortedMap.getD, SortedMap.get?_insert, rank_eq_iff]
    split
    · rename_i h
      rw [← h, hs]
      rfl
    · rfl

theorem of_foldl_increase (targets : List EntityId) (c : Counts) (t : EntityId) :
    (targets.foldl increase c).of t = c.of t + targets.count t := by
  induction targets generalizing c with
  | nil => rfl
  | cons s rest ih =>
    rw [List.foldl_cons, ih, of_increase, List.count_cons]
    simp only [beq_iff_eq]
    omega

@[simp] theorem of_ofTargets (targets : List EntityId) (t : EntityId) :
    (ofTargets targets).of t = targets.count t := by
  rw [ofTargets, of_foldl_increase]
  exact Nat.zero_add _

end Counts

end Dispatch
