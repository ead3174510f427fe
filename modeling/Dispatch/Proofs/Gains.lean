import Mathlib
import Dispatch.FactorGraph.Gains
import Dispatch.Proofs.Recurrence
/-!
# Gains

What a node says along an edge is the difference of two maxima. A variable compares the candidate
with the best of the others, in whatever arithmetic numbers are ordered (`gainOf_choiceGains_isTop`,
for exact numbers `gainOf_choiceGains`). For a function they are over all sets of other neighbours,
although it only tries the prefixes of one sorted list (`gainOf_loadGains`). That holds in exact
arithmetic; in any other, what a function says still does not depend on how its neighbours are
listed and named (`gainOf_loadGains_map`).
-/

namespace Dispatch

/-! ## Variables -/

theorem getElem?_concat {β : Type} {l : List β} {v w : β} {j : Nat} :
    (l ++ [v])[j]? = some w ↔ l[j]? = some w ∨ j = l.length ∧ w = v := by
  rcases lt_trichotomy j l.length with h | rfl | h
  · rw [List.getElem?_append_left h]
    exact ⟨.inl, fun hw => hw.resolve_right fun hj => by omega⟩
  · simp [eq_comm]
  · rw [List.getElem?_append_right h.le, List.getElem?_eq_none h.le,
      List.getElem?_eq_none (by simpa using by omega)]
    simp [h.ne']

namespace Lead

theorem scan_append {α : Type} [Scalar α] (lead : Option (Lead α)) (i : Nat) (l k : List α) :
    scan lead i (l ++ k) = scan (scan lead i l) (i + l.length) k := by
  induction l generalizing lead i with
  | nil => rfl
  | cons v rest ih =>
    rw [List.cons_append, scan, ih, scan, List.length_cons]
    congr 1
    omega

section Ordered
variable {α : Type} [Scalar α]

/-- One of the values, and below none of them. -/
def IsTop (S : Set α) (x : α) : Prop := x ∈ S ∧ ∀ y ∈ S, ¬ x < y

theorem isTop_rat_iff {S : Set Rat} {x : Rat} : IsTop S x ↔ IsGreatest S x :=
  and_congr_right fun _ => forall₂_congr fun _ _ => not_lt (α := ℚ)

/-- The values at the other positions of a list. -/
def others (l : List α) (i : Nat) : Set α := {w | ∃ j : Nat, j ≠ i ∧ l[j]? = some w}

omit [Scalar α] in
theorem others_concat {l : List α} {i : Nat} (hi : i < l.length) (v : α) :
    others (l ++ [v]) i = insert v (others l i) := by
  ext w
  simp only [others, getElem?_concat, Set.mem_insert_iff, Set.mem_ofPred_eq]
  constructor
  · rintro ⟨j, hj, hw | ⟨-, rfl⟩⟩
    · exact .inr ⟨j, hj, hw⟩
    · exact .inl rfl
  · rintro (rfl | ⟨j, hj, hw⟩)
    · exact ⟨l.length, hi.ne', .inr ⟨rfl, rfl⟩⟩
    · exact ⟨j, hj, .inl hw⟩

omit [Scalar α] in
theorem others_of_length_one {l : List α} {i : Nat} (hi : i < l.length) (h : l.length = 1) :
    others l i = ∅ := by
  apply Set.eq_empty_of_forall_notMem
  rintro w ⟨j, hj, hw⟩
  obtain ⟨hj', -⟩ := List.getElem?_eq_some_iff.1 hw
  omega

/-- The lead of a list: its greatest value, where that stands, and the greatest of the others. -/
structure Leads (l : List α) (lead : Lead α) : Prop where
  value_eq : l[lead.index]? = some lead.value
  not_lt : ∀ (j : Nat) v, l[j]? = some v → ¬ lead.value < v
  length_eq : lead.runnerUp = none → l.length = 1
  runnerUp_top : ∀ r, lead.runnerUp = some r → IsTop (others l lead.index) r

variable [OrderedScalar α]

/-- The greater of the greatest and one more. -/
theorem IsTop.insert {S : Set α} {x v : α} (h : IsTop S x) (hx : Scalar.IsNumber x)
    (hv : Scalar.IsNumber v) : IsTop (insert v S) (Scalar.max x v) := by
  rw [OrderedScalar.max_eq hx hv]
  split
  · rename_i hlt
    refine ⟨Set.mem_insert v S, Set.forall_mem_insert.2 ⟨OrderedScalar.lt_irrefl v, ?_⟩⟩
    exact fun y hy hvy => h.2 y hy (OrderedScalar.lt_trans hlt hvy)
  · rename_i hnlt
    exact ⟨Set.mem_insert_of_mem v h.1, Set.forall_mem_insert.2 ⟨hnlt, h.2⟩⟩

namespace Leads
variable {l : List α} {lead : Lead α} (h : Leads l lead) (hl : ∀ w ∈ l, Scalar.IsNumber w)
  {v : α} (hv : Scalar.IsNumber v)
include h hl hv

/-- A value that does not beat the lead joins the others, whose greatest is now the greater of the
two. -/
theorem keep (hle : v ≤ lead.value) :
    ∃ r, Lead.update (some lead) l.length v = some ⟨lead.index, lead.value, some r⟩ ∧
      Leads (l ++ [v]) ⟨lead.index, lead.value, some r⟩ := by
  obtain ⟨hindex, -⟩ := List.getElem?_eq_some_iff.1 h.value_eq
  have hvalue := hl _ (List.mem_of_getElem? h.value_eq)
  refine ⟨_, if_pos hle, getElem?_concat.2 (.inl h.value_eq), fun j w hw => ?_, ?_, ?_⟩
  · rcases getElem?_concat.1 hw with hw | ⟨-, rfl⟩
    · exact h.not_lt j w hw
    · exact (OrderedScalar.le_iff_not_lt hv hvalue).1 hle
  · intro hnone
    cases hnone
  · rintro r ⟨⟩
    rw [others_concat hindex]
    cases hrunner : lead.runnerUp with
    | none =>
      rw [others_of_length_one hindex (h.length_eq hrunner), insert_empty_eq]
      exact ⟨rfl, fun y hy => hy ▸ OrderedScalar.lt_irrefl v⟩
    | some r =>
      have htop := h.runnerUp_top r hrunner
      obtain ⟨j, -, hj⟩ := htop.1
      exact htop.insert (hl r (List.mem_of_getElem? hj)) hv

omit hl hv in
/-- A value that beats the lead takes its place, and the lead becomes the greatest of the others. -/
theorem replace (hlt : lead.value < v) : Leads (l ++ [v]) ⟨l.length, v, some lead.value⟩ := by
  obtain ⟨hindex, -⟩ := List.getElem?_eq_some_iff.1 h.value_eq
  refine ⟨getElem?_concat.2 (.inr ⟨rfl, rfl⟩), fun j w hw => ?_, ?_, ?_⟩
  · rcases getElem?_concat.1 hw with hw | ⟨-, rfl⟩
    · exact fun hvw => h.not_lt j w hw (OrderedScalar.lt_trans hlt hvw)
    · exact OrderedScalar.lt_irrefl w
  · intro hnone
    cases hnone
  · rintro r ⟨⟩
    refine ⟨⟨lead.index, hindex.ne, getElem?_concat.2 (.inl h.value_eq)⟩, ?_⟩
    rintro w ⟨j, hj, hw⟩
    rcases getElem?_concat.1 hw with hw | ⟨rfl, -⟩
    · exact h.not_lt j w hw
    · exact absurd rfl hj

theorem update :
    ∃ next, Lead.update (some lead) l.length v = some next ∧ Leads (l ++ [v]) next := by
  by_cases hle : v ≤ lead.value
  · obtain ⟨r, hupdate, hleads⟩ := h.keep hl hv hle
    exact ⟨_, hupdate, hleads⟩
  · have hvalue := hl _ (List.mem_of_getElem? h.value_eq)
    have hlt := not_not.1 (mt (OrderedScalar.le_iff_not_lt hv hvalue).2 hle)
    exact ⟨_, if_neg hle, h.replace hlt⟩

end Leads

theorem exists_leads {l : List α} (h : l ≠ []) (hl : ∀ w ∈ l, Scalar.IsNumber w) :
    ∃ lead, scan none 0 l = some lead ∧ Leads l lead := by
  induction l using List.reverseRecOn with
  | nil => exact absurd rfl h
  | append_singleton l v ih =>
    obtain ⟨hrest, hv⟩ := List.forall_mem_append.1 hl
    rw [scan_append, Nat.zero_add]
    cases l with
    | nil =>
      refine ⟨⟨0, v, none⟩, rfl, rfl, fun j w hw => ?_, fun _ => rfl, fun r hr => by cases hr⟩
      obtain ⟨-, rfl⟩ := (getElem?_concat.1 hw).resolve_left (by simp)
      exact OrderedScalar.lt_irrefl w
    | cons w rest =>
      obtain ⟨lead, hscan, hleads⟩ := ih (List.cons_ne_nil _ _) hrest
      rw [hscan]
      exact hleads.update hrest (hv v (List.mem_singleton_self v))

/-- Among two or more values the alternative to one is the greatest of the others. -/
theorem isTop_alternative {l : List α} (h : 2 ≤ l.length) (hl : ∀ w ∈ l, Scalar.IsNumber w)
    (i : Nat) : IsTop (others l i) (alternative (scan none 0 l) i) := by
  have hne : l ≠ [] := by
    rintro rfl
    cases h
  obtain ⟨lead, hscan, hleads⟩ := exists_leads hne hl
  rw [hscan, alternative]
  split
  · rename_i hi
    cases hrunner : lead.runnerUp with
    | none => exact absurd (hleads.length_eq hrunner) (by omega)
    | some r =>
      rw [← hi]
      exact hleads.runnerUp_top r hrunner
  · rename_i hi
    refine ⟨⟨lead.index, hi, hleads.value_eq⟩, ?_⟩
    rintro w ⟨j, -, hw⟩
    exact hleads.not_lt j w hw

end Ordered

end Lead

/-! ## Functions -/

theorem setOf_take_concat (f : Nat → Rat) (l : List Rat) (v : Rat) :
    {w | ∃ j ≤ (l ++ [v]).length, w = f j + ((l ++ [v]).take j).sum} =
      insert (f (l.length + 1) + (l.sum + v)) {w | ∃ j ≤ l.length, w = f j + (l.take j).sum} := by
  ext w
  simp only [List.length_append, List.length_singleton, Set.mem_insert_iff, Set.mem_ofPred_eq]
  constructor
  · rintro ⟨j, hj, rfl⟩
    rcases hj.lt_or_eq with hlt | rfl
    · exact .inr ⟨j, by omega, by rw [List.take_append_of_le_length (by omega)]⟩
    · refine .inl ?_
      rw [List.take_of_length_le (by simp), List.sum_append, List.sum_singleton]
  · rintro (rfl | ⟨j, hj, rfl⟩)
    · refine ⟨l.length + 1, le_rfl, ?_⟩
      rw [List.take_of_length_le (by simp), List.sum_append, List.sum_singleton]
    · exact ⟨j, by omega, by rw [List.take_append_of_le_length hj]⟩

namespace Best

/-- The best worths over the prefixes of a list. -/
structure Over (c : Nat → Rat) (l : List Rat) (b : Best Rat) : Prop where
  total_eq : b.total = l.sum
  load_eq : b.load = l.length
  inside_greatest : IsGreatest {w | ∃ j ≤ l.length, w = c (j + 1) + (l.take j).sum} b.inside
  outside_greatest : IsGreatest {w | ∃ j ≤ l.length, w = c j + (l.take j).sum} b.outside

theorem over_foldl (c : Nat → Rat) (l : List Rat) :
    Over c l (l.foldl (add c) ⟨c 1, c 0, Scalar.zero, 0⟩) := by
  induction l using List.reverseRecOn with
  | nil =>
    refine ⟨rfl, rfl, ?_, ?_⟩
    · exact ⟨⟨0, le_rfl, (add_zero _).symm⟩, by rintro w ⟨j, hj, rfl⟩; simp_all⟩
    · exact ⟨⟨0, le_rfl, (add_zero _).symm⟩, by rintro w ⟨j, hj, rfl⟩; simp_all⟩
  | append_singleton l v ih =>
    rw [List.foldl_append, List.foldl_cons, List.foldl_nil]
    generalize l.foldl (add c) ⟨c 1, c 0, Scalar.zero, 0⟩ = b at ih
    refine ⟨?_, ?_, ?_, ?_⟩
    · rw [List.sum_append, List.sum_singleton, ← ih.total_eq]
      rfl
    · rw [List.length_append, List.length_singleton, ← ih.load_eq]
      rfl
    · have hinside : (b.add c v).inside = max (c (l.length + 1 + 1) + (l.sum + v)) b.inside := by
        rw [max_comm, ← ih.total_eq, ← ih.load_eq]
        rfl
      rw [setOf_take_concat fun j => c (j + 1), hinside]
      exact ih.inside_greatest.insert _
    · have houtside : (b.add c v).outside = max (c (l.length + 1) + (l.sum + v)) b.outside := by
        rw [max_comm, ← ih.total_eq, ← ih.load_eq]
        rfl
      rw [setOf_take_concat c, houtside]
      exact ih.outside_greatest.insert _

end Best

/-- Putting a greatest value in front does not lower the sum of a prefix. -/
theorem sum_take_le_cons {l : List Rat} {v : Rat} (h : (v :: l).Pairwise (· ≥ ·)) {j : Nat}
    (hj : j ≤ l.length) : (l.take j).sum ≤ ((v :: l).take j).sum := by
  induction l generalizing v j with
  | nil =>
    obtain rfl : j = 0 := by simpa using hj
    exact le_rfl
  | cons w rest ih =>
    cases j with
    | zero => exact le_rfl
    | succ j =>
      obtain ⟨hv, hrest⟩ := List.pairwise_cons.1 h
      rw [List.take_succ_cons, List.take_succ_cons, List.sum_cons, List.sum_cons]
      exact add_le_add (hv w List.mem_cons_self) (ih hrest (by simpa using hj))

/-- Nothing taken from a descending list is worth more than a prefix of the same length. -/
theorem sum_le_sum_take {l k : List Rat} (h : k.Sublist l) (hl : l.Pairwise (· ≥ ·)) :
    k.sum ≤ (l.take k.length).sum := by
  induction h with
  | slnil => exact le_rfl
  | cons v hsub ih =>
    exact (ih (List.pairwise_cons.1 hl).2).trans (sum_take_le_cons hl hsub.length_le)
  | cons_cons v hsub ih =>
    rw [List.length_cons, List.take_succ_cons, List.sum_cons, List.sum_cons]
    exact add_le_add_right (ih (List.pairwise_cons.1 hl).2) v

theorem isGreatest_subperm {f : Nat → Rat} {l : List Rat} (hl : l.Pairwise (· ≥ ·)) {x : Rat}
    (h : IsGreatest {w | ∃ j ≤ l.length, w = f j + (l.take j).sum} x) :
    IsGreatest {w | ∃ k : List Rat, k.Subperm l ∧ w = f k.length + k.sum} x := by
  obtain ⟨⟨j, hj, rfl⟩, hle⟩ := h
  refine ⟨⟨l.take j, (List.take_sublist j l).subperm, ?_⟩, ?_⟩
  · rw [List.length_take_of_le hj]
  · rintro w ⟨k, ⟨k', hperm, hsub⟩, rfl⟩
    rw [← hperm.length_eq, ← hperm.sum_eq]
    exact (add_le_add_right (sum_le_sum_take hsub hl) _).trans
      (hle ⟨k'.length, hsub.length_le, rfl⟩)

/-! ## Descending values -/

section Descending
variable {α : Type} [Scalar α]

theorem descending_perm (l : List α) :
    (descending l).Perm (l.mapIdx fun i v => (i, v)) := perm_sortBy _ _

theorem mem_descending {l : List α} {e : Nat × α} :
    e ∈ descending l ↔ l[e.1]? = some e.2 := by
  rw [(descending_perm l).mem_iff, List.mem_mapIdx]
  constructor
  · rintro ⟨j, hj, rfl⟩
    exact List.getElem?_eq_getElem hj
  · intro he
    obtain ⟨hj, hv⟩ := List.getElem?_eq_some_iff.1 he
    exact ⟨e.1, hj, by rw [hv]⟩

theorem nodup_descending (l : List α) : (descending l).Nodup := by
  have hfst : (l.mapIdx fun j w => (j, w)).map Prod.fst = List.range l.length := by
    apply List.ext_getElem?
    intro j
    by_cases hj : j < l.length <;> simp [hj]
  rw [(descending_perm l).nodup_iff]
  apply List.Nodup.of_map Prod.fst
  rw [hfst]
  exact List.nodup_range

theorem map_snd_descending (l : List α) : ((descending l).map (·.2)).Perm l := by
  have hsnd : (l.mapIdx fun j w => (j, w)).map Prod.snd = l := by
    apply List.ext_getElem?
    intro j
    by_cases hj : j < l.length <;> simp [hj]
  exact ((descending_perm l).map Prod.snd).trans (.of_eq hsnd)

/-- Only one of the values stands at a position. -/
theorem filter_descending {l : List α} {i : Nat} {v : α} (hi : l[i]? = some v) :
    ((i, v) :: (descending l).filter fun e => e.1 ≠ i).Perm (descending l) := by
  classical
  have hrest : (descending l).filter (fun e => e.1 ≠ i) = (descending l).erase (i, v) := by
    rw [(nodup_descending l).erase_eq_filter]
    apply List.filter_congr
    intro e he
    rw [Bool.eq_iff_iff, decide_eq_true_eq, bne_iff_ne]
    refine not_congr ⟨fun h => ?_, fun h => by rw [h]⟩
    have hv : some e.2 = some v := by rw [← mem_descending.1 he, h, hi]
    exact Prod.ext h (Option.some.inj hv)
  rw [hrest]
  exact (List.perm_cons_erase (mem_descending.2 hi)).symm

variable [SortingScalar α]

theorem pairwise_descending (l : List α) :
    (descending l).Pairwise fun a b => Scalar.totalLE b.2 a.2 = true := by
  apply pairwise_sortBy
  · exact fun _ _ _ hab hbc => SortingScalar.totalLE_trans hbc hab
  · exact fun a b => SortingScalar.totalLE_total b.2 a.2

/-- The values other than the one at a position, in descending order. -/
theorem descending_others {l : List α} {i : Nat} {v : α} (hi : l[i]? = some v) :
    (((descending l).filter fun e => e.1 ≠ i).map (·.2)).Pairwise
        (fun x y => Scalar.totalLE y x = true) ∧
      (v :: ((descending l).filter fun e => e.1 ≠ i).map (·.2)).Perm l := by
  refine ⟨?_, ((filter_descending hi).map Prod.snd).trans (map_snd_descending l)⟩
  rw [List.pairwise_map]
  exact (pairwise_descending l).filter _

end Descending

/-! ## What the nodes say -/

namespace MaxSum

theorem gainOf_of_not_mem {α : Type} [Scalar α] {ids : List EntityId} {gains : List α}
    {id : EntityId} (h : id ∉ ids) : gainOf ids gains id = Scalar.zero := by
  have hnone : (ids.zip gains).lookup id = none := by
    rw [List.lookup_eq_none_iff]
    intro p hin
    refine bne_iff_ne.2 fun e => h ?_
    rw [e]
    exact (List.of_mem_zip hin).1
  rw [gainOf, hnone, Option.getD_none]

/-- The gain of a candidate is its utility less what the best other candidate promises. -/
theorem gainOf_choiceGains_isTop {α : Type} [Scalar α] [OrderedScalar α] {ids : List EntityId}
    (hids : ids.Nodup) (h : 2 ≤ ids.length) {u r : EntityId → α}
    (hnumber : ∀ s ∈ ids, Scalar.IsNumber (u s + r s)) {t : EntityId} (ht : t ∈ ids) :
    ∃ best, Lead.IsTop {w | ∃ s ∈ ids, s ≠ t ∧ w = u s + r s} best ∧
      gainOf ids (choiceGains (ids.map u) (ids.map r)) t = u t - best := by
  obtain ⟨i, hi⟩ := List.mem_iff_getElem?.1 ht
  have htop := Lead.isTop_alternative (l := ids.map fun s => u s + r s)
    (by rwa [List.length_map]) (List.forall_mem_map.2 hnumber) i
  refine ⟨Lead.alternative (Lead.scan none 0 (ids.map fun s => u s + r s)) i, ?_,
    gainOf_eq hids hi ?_⟩
  · convert htop using 1
    ext w
    constructor
    · rintro ⟨s, hs, hne, rfl⟩
      obtain ⟨j, hj⟩ := List.mem_iff_getElem?.1 hs
      refine ⟨j, ?_, by rw [List.getElem?_map, hj, Option.map_some]⟩
      rintro rfl
      exact hne (Option.some.inj (hj.symm.trans hi))
    · rintro ⟨j, hj, hw⟩
      rw [List.getElem?_map] at hw
      obtain ⟨s, hs, rfl⟩ := Option.map_eq_some_iff.1 hw
      refine ⟨s, List.mem_of_getElem? hs, ?_, rfl⟩
      rintro rfl
      obtain ⟨hlt, -⟩ := List.getElem?_eq_some_iff.1 hs
      exact hj ((List.getElem?_inj hlt hids).1 (hs.trans hi.symm))
  · rw [choiceGains, List.getElem?_mapIdx, List.getElem?_map, hi, List.zipWith_map,
      List.zipWith_self]
    rfl

/-- In exact arithmetic there is a greatest one. -/
theorem gainOf_choiceGains {ids : List EntityId} (hids : ids.Nodup) (h : 2 ≤ ids.length)
    {u r : EntityId → Rat} {t : EntityId} (ht : t ∈ ids) :
    ∃ best, IsGreatest {w | ∃ s ∈ ids, s ≠ t ∧ w = u s + r s} best ∧
      gainOf ids (choiceGains (ids.map u) (ids.map r)) t = u t - best := by
  obtain ⟨best, htop, hgain⟩ :=
    gainOf_choiceGains_isTop hids h (u := u) (r := r) (fun s _ => le_refl (α := ℚ) (u s + r s)) ht
  exact ⟨best, Lead.isTop_rat_iff.1 htop, hgain⟩

/-- An only candidate is compared with nothing. -/
theorem gainOf_choiceGains_only {α : Type} [Scalar α] (u r : EntityId → α) (t : EntityId) :
    gainOf [t] (choiceGains ([t].map u) ([t].map r)) t = u t - Scalar.zero := by
  simp [gainOf, choiceGains, Lead.scan, Lead.update, Lead.alternative]

/-- What a function is worth under a set of agents, each of which adds its value. -/
def worthOf (potential : Nat → Rat) (q : EntityId → Rat) (crew : Finset EntityId) : Rat :=
  potential crew.card + ∑ b ∈ crew, q b

section Crews
variable {ι : Type} [DecidableEq ι] {ids : List ι} (hids : ids.Nodup) {q : ι → Rat}
include hids

theorem subperm_map_iff (f : Nat → Rat) (w : Rat) :
    (∃ k : List Rat, k.Subperm (ids.map q) ∧ w = f k.length + k.sum) ↔
      ∃ crew ⊆ ids.toFinset, w = f crew.card + ∑ b ∈ crew, q b := by
  constructor
  · rintro ⟨k, ⟨k', hperm, hsub⟩, rfl⟩
    obtain ⟨taken, htaken, rfl⟩ := List.sublist_map_iff.1 hsub
    have hnodup : taken.Nodup := hids.sublist htaken
    refine ⟨taken.toFinset,
      fun b hb => List.mem_toFinset.2 (htaken.mem (List.mem_toFinset.1 hb)), ?_⟩
    rw [← hperm.length_eq, ← hperm.sum_eq, List.length_map,
      List.toFinset_card_of_nodup hnodup, List.sum_toFinset q hnodup]
  · rintro ⟨crew, hcrew, rfl⟩
    obtain ⟨taken, hperm, hsub⟩ := List.subperm_of_subset crew.nodup_toList
      fun b hb => List.mem_toFinset.1 (hcrew (Finset.mem_toList.1 hb))
    refine ⟨crew.toList.map q, ⟨taken.map q, hperm.map q, hsub.map q⟩, ?_⟩
    rw [List.length_map, Finset.length_toList, Finset.sum_map_toList]

/-- The descending values of the others suffice to find the best worth over all crews with a node
and over all crews without it. -/
theorem loadGain_crews (potential : Nat → Rat) {a : ι} (ha : a ∈ ids) {others : List Rat}
    (hsorted : others.Pairwise fun x y => Scalar.totalLE y x = true)
    (hperm : (q a :: others).Perm (ids.map q)) :
    ∃ inside outside,
      IsGreatest {w | ∃ crew ⊆ ids.toFinset.erase a,
        w = potential (crew.card + 1) + ∑ b ∈ crew, q b} inside ∧
      IsGreatest {w | ∃ crew ⊆ ids.toFinset.erase a,
        w = potential crew.card + ∑ b ∈ crew, q b} outside ∧
      loadGain potential others = inside - outside := by
  have hdescending : others.Pairwise (· ≥ ·) := hsorted.imp fun h => of_decide_eq_true h
  -- the others' values are those of the nodes without `a`
  have herase : others.Perm ((ids.erase a).map q) :=
    (hperm.trans ((List.perm_cons_erase ha).map q)).cons_inv
  have hnodes : (ids.erase a).toFinset = ids.toFinset.erase a := by
    ext b
    rw [List.mem_toFinset, hids.mem_erase_iff, Finset.mem_erase, List.mem_toFinset]
  have hbest := Best.over_foldl potential others
  have hset : ∀ f : Nat → Rat, {w | ∃ k : List Rat, k.Subperm others ∧ w = f k.length + k.sum} =
      {w | ∃ crew ⊆ ids.toFinset.erase a, w = f crew.card + ∑ b ∈ crew, q b} := by
    intro f
    ext w
    rw [Set.mem_ofPred_eq, Set.mem_ofPred_eq, ← hnodes, ← subperm_map_iff (hids.erase a) f w]
    exact exists_congr fun k => and_congr_left' herase.subperm_left
  refine ⟨_, _, ?_, ?_, rfl⟩
  · rw [← hset fun k => potential (k + 1)]
    exact isGreatest_subperm hdescending hbest.inside_greatest
  · rw [← hset potential]
    exact isGreatest_subperm hdescending hbest.outside_greatest

end Crews

section Listing
variable {α : Type} [Scalar α] [SortingScalar α] {ids : List EntityId} {q : EntityId → α}

/-- The gain of a neighbour comes from the values of the others in descending order. -/
theorem gainOf_loadGains_eq (hids : ids.Nodup) (potential : Nat → α) {a : EntityId} (ha : a ∈ ids)
    {others : List α} (hsorted : others.Pairwise fun x y => Scalar.totalLE y x = true)
    (hperm : (q a :: others).Perm (ids.map q)) :
    gainOf ids (loadGains (ids.map q) potential) a = loadGain potential others := by
  obtain ⟨i, hi⟩ := List.mem_iff_getElem?.1 ha
  have hget : (ids.map q)[i]? = some (q a) := by rw [List.getElem?_map, hi, Option.map_some]
  obtain ⟨hsorted', hperm'⟩ := descending_others hget
  have hothers : ((descending (ids.map q)).filter fun e => e.1 ≠ i).map (·.2) = others :=
    (hperm'.trans hperm.symm).cons_inv.eq_of_pairwise
      (fun _ _ _ _ hxy hyx => SortingScalar.totalLE_antisymm hyx hxy) hsorted' hsorted
  refine gainOf_eq hids hi ?_
  rw [loadGains, List.getElem?_mapIdx, hget, Option.map_some, hothers]

theorem exists_descending_others {a : EntityId} (ha : a ∈ ids) :
    ∃ others : List α, others.Pairwise (fun x y => Scalar.totalLE y x = true) ∧
      (q a :: others).Perm (ids.map q) := by
  obtain ⟨i, hi⟩ := List.mem_iff_getElem?.1 ha
  exact ⟨_, descending_others (by rw [List.getElem?_map, hi, Option.map_some])⟩

/-- The gains of a function do not depend on what its neighbours are called and in which order they
are listed. -/
theorem gainOf_loadGains_map (hids : ids.Nodup) {rename : EntityId → EntityId}
    (hrename : rename.Injective) {ids' : List EntityId} (hids' : ids'.Perm (ids.map rename))
    {q' : EntityId → α} (hq : ∀ b ∈ ids, q' (rename b) = q b) (potential : Nat → α)
    (a : EntityId) :
    gainOf ids' (loadGains (ids'.map q') potential) (rename a) =
      gainOf ids (loadGains (ids.map q) potential) a := by
  have hmem : rename a ∈ ids' ↔ a ∈ ids := by
    rw [hids'.mem_iff, List.mem_map_of_injective hrename]
  by_cases ha : a ∈ ids
  · obtain ⟨others, hsorted, hperm⟩ := exists_descending_others (q := q) ha
    have hvalues : (ids'.map q').Perm (ids.map q) := by
      refine (hids'.map q').trans ?_
      rw [List.map_map]
      exact .of_eq (List.map_congr_left hq)
    rw [gainOf_loadGains_eq hids potential ha hsorted hperm]
    refine gainOf_loadGains_eq (hids'.nodup_iff.2 (hids.map hrename)) potential (hmem.2 ha)
      hsorted ?_
    rw [hq a ha]
    exact hperm.trans hvalues.symm
  · rw [gainOf_of_not_mem ha, gainOf_of_not_mem (mt hmem.1 ha)]

end Listing

/-- The gain of a neighbour is the best worth over all crews with it less the best worth over all
crews without it, not counting its own value. -/
theorem gainOf_loadGains {ids : List EntityId} (hids : ids.Nodup) {q : EntityId → Rat}
    (potential : Nat → Rat) {a : EntityId} (ha : a ∈ ids) :
    ∃ inside outside,
      IsGreatest {w | ∃ crew ⊆ ids.toFinset.erase a,
        w = worthOf (fun k => potential (k + 1)) q crew} inside ∧
      IsGreatest {w | ∃ crew ⊆ ids.toFinset.erase a, w = worthOf potential q crew} outside ∧
      gainOf ids (loadGains (ids.map q) potential) a = inside - outside := by
  obtain ⟨others, hsorted, hperm⟩ := exists_descending_others (q := q) ha
  obtain ⟨inside, outside, hinside, houtside, hgain⟩ :=
    loadGain_crews hids potential ha hsorted hperm
  exact ⟨inside, outside, hinside, houtside,
    (gainOf_loadGains_eq hids potential ha hsorted hperm).trans hgain⟩

end MaxSum

end Dispatch
