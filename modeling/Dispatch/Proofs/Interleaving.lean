import Mathlib
import Dispatch.Round.Schedule
/-!
# Interleavings

The posts of a concurrent round arrive in some interleaving of what the agents post
(`Schedule.Interleaves`), and the agents step in some order. Every interleaving and every order is
the course of some schedule: `Schedule.exists_schedule`. Where each queue has a key of its own, an
interleaving keeps the elements of every key as they stood (`Interleaves.filter_eq`), and a stable
sort by key undoes it (`sortBy_eq_of_filter_eq`).
-/

namespace Dispatch

variable {β : Type}

/-! ## Stable sorting -/

section Stable

/-- An element passes only elements it is above, so those that are all at most each other keep
their order. -/
theorem filter_insertBy {le : β → β → Bool} {p : β → Bool}
    (hp : ∀ x y, p x = true → p y = true → le x y = true) (x : β) (l : List β) :
    (insertBy le x l).filter p = (x :: l).filter p := by
  induction l with
  | nil => rfl
  | cons y rest ih =>
    rw [insertBy]
    split
    · rfl
    · rename_i hxy
      rw [List.filter_cons, ih]
      by_cases hx : p x = true
      · have hy : ¬ p y = true := fun hy => hxy (hp x y hx hy)
        simp [hx, hy]
      · simp [List.filter_cons, hx]

theorem filter_sortBy {le : β → β → Bool} {p : β → Bool}
    (hp : ∀ x y, p x = true → p y = true → le x y = true) (l : List β) :
    (sortBy le l).filter p = l.filter p := by
  induction l with
  | nil => rfl
  | cons x rest ih =>
    rw [sortBy, filter_insertBy hp, List.filter_cons, List.filter_cons, ih]

variable {key : β → Nat}

/-- Lists that agree on the elements of each key have the same elements. -/
theorem mem_of_filter_eq {l r : List β}
    (h : ∀ k, l.filter (fun y => key y = k) = r.filter fun y => key y = k) {x : β} (hx : x ∈ l) :
    x ∈ r := by
  have hin : x ∈ l.filter fun y => key y = key x := List.mem_filter.2 ⟨hx, by simp⟩
  rw [h] at hin
  exact (List.mem_filter.1 hin).1

/-- An ascending list is determined by its elements of each key. -/
theorem eq_of_filter_eq {l r : List β} (hl : l.Pairwise (key · ≤ key ·))
    (hr : r.Pairwise (key · ≤ key ·))
    (h : ∀ k, l.filter (fun y => key y = k) = r.filter fun y => key y = k) : l = r := by
  induction l generalizing r with
  | nil =>
    cases r with
    | nil => rfl
    | cons y rest =>
      have hy := mem_of_filter_eq (fun k => (h k).symm) List.mem_cons_self
      exact absurd hy List.not_mem_nil
  | cons x l ih =>
    cases r with
    | nil => exact absurd (mem_of_filter_eq h List.mem_cons_self) (by simp)
    | cons y r =>
      obtain ⟨hx, hl⟩ := List.pairwise_cons.1 hl
      obtain ⟨hy, hrest⟩ := List.pairwise_cons.1 hr
      -- both heads have the least key of either list
      have hkey : key x = key y := by
        refine le_antisymm ?_ ?_
        · have hyin := mem_of_filter_eq (fun k => (h k).symm) List.mem_cons_self
          rcases List.mem_cons.1 hyin with e | e
          · rw [e]
          · exact hx y e
        · rcases List.mem_cons.1 (mem_of_filter_eq h List.mem_cons_self) with e | e
          · rw [e]
          · exact hy x e
      have hhead : x = y := by
        have := h (key x)
        simp only [List.filter_cons, hkey, decide_true, if_true] at this
        exact (List.cons.inj this).1
      subst hhead
      refine congrArg (x :: ·) (ih hl hrest fun k => ?_)
      have := h k
      rw [List.filter_cons, List.filter_cons] at this
      split at this
      · exact (List.cons.inj this).2
      · exact this

/-- A stable sort by key sees no more of a list than its elements of each key. -/
theorem sortBy_eq_of_filter_eq {l r : List β}
    (h : ∀ k, l.filter (fun y => key y = k) = r.filter fun y => key y = k) :
    sortBy (fun a b => decide (key a ≤ key b)) l =
      sortBy (fun a b => decide (key a ≤ key b)) r := by
  have hsorted (l : List β) :
      (sortBy (fun a b => decide (key a ≤ key b)) l).Pairwise (key · ≤ key ·) := by
    refine (pairwise_sortBy (fun a b c hab hbc => ?_) (fun a b => ?_) l).imp of_decide_eq_true
    · exact decide_eq_true ((of_decide_eq_true hab).trans (of_decide_eq_true hbc))
    · simpa using le_total (key a) (key b)
  refine eq_of_filter_eq (hsorted l) (hsorted r) fun k => ?_
  have hp : ∀ x y, decide (key x = k) = true → decide (key y = k) = true →
      decide (key x ≤ key y) = true := by
    simp only [decide_eq_true_eq]
    exact fun x y hx hy => (hx.trans hy.symm).le
  rw [filter_sortBy hp, filter_sortBy hp, h]

end Stable

namespace Schedule

/-! ## Interleavings -/

/-- The list takes the queues apart, one head after the other. -/
inductive Interleaves : List (List β) → List β → Prop
  | nil {queues : List (List β)} (hempty : ∀ queue ∈ queues, queue = []) : Interleaves queues []
  | cons {queues : List (List β)} {i : Nat} {x : β} {queue l : List β}
      (hpick : queues[i]? = some (x :: queue)) (hrest : Interleaves (queues.set i queue) l) :
      Interleaves queues (x :: l)

/-- A picked queue stands between those before and those after it. -/
theorem exists_split {queues : List (List β)} {i : Nat} {picked : List β}
    (h : queues[i]? = some picked) :
    ∃ before after, queues = before ++ picked :: after ∧
      ∀ queue, queues.set i queue = before ++ queue :: after := by
  obtain ⟨hlt, hget⟩ := List.getElem?_eq_some_iff.1 h
  refine ⟨queues.take i, queues.drop (i + 1), ?_, fun queue => ?_⟩
  · rw [← hget, List.cons_getElem_drop_succ, List.take_append_drop]
  · rw [List.set_eq_take_append_cons_drop, if_pos hlt]

namespace Interleaves

theorem cons_nil {queues : List (List β)} {l : List β} (h : Interleaves queues l) :
    Interleaves ([] :: queues) l := by
  induction h with
  | nil hempty => exact .nil (List.forall_mem_cons.2 ⟨rfl, hempty⟩)
  | @cons queues i x queue l hpick _ ih => exact .cons (i := i + 1) hpick ih

/-- Queue by queue is one way to take them apart. -/
theorem flatten (queues : List (List β)) : Interleaves queues queues.flatten := by
  induction queues with
  | nil => exact .nil (by simp)
  | cons queue rest ih =>
    induction queue with
    | nil => exact ih.cons_nil
    | cons x queue ih => exact .cons (i := 0) rfl ih

/-- An interleaving neither loses nor adds anything. -/
theorem perm {queues : List (List β)} {l : List β} (h : Interleaves queues l) :
    l.Perm queues.flatten := by
  induction h with
  | nil hempty => rw [List.flatten_eq_nil_iff.2 hempty]
  | cons hpick _ ih =>
    obtain ⟨before, after, hqueues, hset⟩ := exists_split hpick
    rw [hset] at ih
    refine (ih.cons _).trans ?_
    rw [hqueues]
    simp only [List.flatten_append, List.flatten_cons, List.cons_append]
    exact List.perm_middle.symm

/-- If no two queues share a key, the elements of each key stay as they stood in their queue. -/
theorem filter_eq {κ : Type} [DecidableEq κ] {key : β → κ} {queues : List (List β)} {l : List β}
    (h : Interleaves queues l)
    (hkeys : queues.Pairwise fun p q => ∀ x ∈ p, ∀ y ∈ q, key x ≠ key y) (k : κ) :
    l.filter (fun y => key y = k) = queues.flatten.filter fun y => key y = k := by
  induction h with
  | nil hempty => rw [List.flatten_eq_nil_iff.2 hempty]
  | @cons queues i x queue l hpick _ ih =>
    obtain ⟨before, after, hqueues, hset⟩ := exists_split hpick
    rw [hqueues, List.pairwise_append, List.pairwise_cons] at hkeys
    obtain ⟨hbefore, ⟨hpicked, hafter⟩, hacross⟩ := hkeys
    have hrest : (queues.set i queue).Pairwise fun p q => ∀ x ∈ p, ∀ y ∈ q, key x ≠ key y := by
      rw [hset, List.pairwise_append, List.pairwise_cons]
      refine ⟨hbefore, ⟨fun q hq z hz => hpicked q hq z (List.mem_cons_of_mem x hz), hafter⟩, ?_⟩
      intro p hp q hq
      rcases List.mem_cons.1 hq with rfl | hq
      · exact fun z hz y hy => hacross p hp _ List.mem_cons_self z hz y (List.mem_cons_of_mem x hy)
      · exact hacross p hp q (List.mem_cons_of_mem _ hq)
    rw [List.filter_cons, ih hrest, hset, hqueues, List.flatten_append, List.flatten_append,
      List.filter_append, List.filter_append, List.flatten_cons, List.flatten_cons,
      List.cons_append, List.filter_cons]
    split
    · -- nothing of this key stands in an earlier queue
      rename_i hx
      have hnone : before.flatten.filter (fun y => key y = k) = [] := by
        refine List.filter_eq_nil_iff.2 fun z hz hzk => ?_
        obtain ⟨p, hp, hz⟩ := List.mem_flatten.1 hz
        refine hacross p hp _ List.mem_cons_self z hz x List.mem_cons_self ?_
        rw [of_decide_eq_true hzk, of_decide_eq_true hx]
      rw [hnone, List.nil_append, List.nil_append]
    · rfl

end Interleaves

theorem interleaves_interleave (picks : List Nat) (queues : List (List β)) :
    Interleaves queues (interleave picks queues) := by
  induction picks generalizing queues with
  | nil => exact .flatten queues
  | cons pick picks ih =>
    unfold interleave
    split
    · rename_i hpick
      exact .cons hpick (ih _)
    · exact ih queues

/-- Every interleaving comes about by some picks. -/
theorem exists_picks {queues : List (List β)} {l : List β} (h : Interleaves queues l) :
    ∃ picks, interleave picks queues = l := by
  induction h with
  | nil hempty => exact ⟨[], List.flatten_eq_nil_iff.2 hempty⟩
  | @cons queues i x queue l hpick _ ih =>
    obtain ⟨picks, hpicks⟩ := ih
    exact ⟨i :: picks, by simp only [interleave, hpick, hpicks]⟩

/-! ## Orders -/

theorem nodup_eraseDups (l : List Nat) : l.eraseDups.Nodup := by
  induction hn : l.length using Nat.strong_induction_on generalizing l with
  | _ n ih =>
    cases l with
    | nil => exact List.nodup_nil
    | cons i rest =>
      have hlt : (rest.filter fun j => !j == i).length < n := by
        have := List.length_filter_le (fun j => !j == i) rest
        rw [← hn, List.length_cons]
        omega
      rw [List.eraseDups_cons, List.nodup_cons, List.mem_eraseDups]
      exact ⟨by simp, ih _ hlt _ rfl⟩

theorem eraseDups_of_nodup {l : List Nat} (h : l.Nodup) : l.eraseDups = l := by
  induction l with
  | nil => rfl
  | cons i rest ih =>
    obtain ⟨hi, hrest⟩ := List.nodup_cons.1 h
    have hfilter : rest.filter (fun j => !j == i) = rest := by
      refine List.filter_eq_self.2 fun j hj => ?_
      have hne : j ≠ i := fun e => hi (e ▸ hj)
      simp [hne]
    rw [List.eraseDups_cons, hfilter, ih hrest]

theorem order_perm (picks : List Nat) (n : Nat) : (order picks n).Perm (List.range n) := by
  have hfirst : ∀ i, i ∈ (picks.filter (· < n)).eraseDups → i < n := by
    intro i hi
    rw [List.mem_eraseDups, List.mem_filter] at hi
    exact of_decide_eq_true hi.2
  rw [List.perm_ext_iff_of_nodup _ List.nodup_range]
  · intro i
    simp only [order, List.mem_append, List.mem_filter, List.mem_range, decide_eq_true_eq]
    constructor
    · rintro (hi | ⟨hi, -⟩)
      · exact hfirst i hi
      · exact hi
    · intro hi
      by_cases hin : i ∈ (picks.filter (· < n)).eraseDups
      · exact .inl hin
      · exact .inr ⟨hi, hin⟩
  · refine List.nodup_append.2 ⟨nodup_eraseDups _, List.nodup_range.filter _, ?_⟩
    rintro i hi j hj rfl
    exact of_decide_eq_true (List.mem_filter.1 hj).2 hi

theorem mem_order {picks : List Nat} {n i : Nat} : i ∈ order picks n ↔ i < n := by
  rw [(order_perm picks n).mem_iff, List.mem_range]

/-- An order in which everybody steps once comes about by picking it. -/
theorem order_eq_self {steps : List Nat} {n : Nat} (h : steps.Perm (List.range n)) :
    order steps n = steps := by
  have hrange : ∀ i, i ∈ steps ↔ i < n := fun i => h.mem_iff.trans List.mem_range
  have hfirst : (steps.filter (· < n)).eraseDups = steps := by
    rw [List.filter_eq_self.2 fun i hi => decide_eq_true ((hrange i).1 hi)]
    exact eraseDups_of_nodup (h.nodup_iff.2 List.nodup_range)
  have hrest : (List.range n).filter (· ∉ steps) = [] := by
    refine List.filter_eq_nil_iff.2 fun i hi hout => ?_
    exact of_decide_eq_true hout ((hrange i).2 (List.mem_range.1 hi))
  rw [order, hfirst, hrest, List.append_nil]

/-- Every interleaving of posts, with every order of steps, is the course of some schedule. -/
theorem exists_schedule {queues : List (List β)} {l : List β} (hl : Interleaves queues l)
    {steps : List Nat} {n : Nat} (hsteps : steps.Perm (List.range n)) :
    ∃ schedule : Schedule,
      interleave schedule.posts queues = l ∧ order schedule.steps n = steps := by
  obtain ⟨picks, hpicks⟩ := exists_picks hl
  exact ⟨⟨picks, steps⟩, hpicks, order_eq_self hsteps⟩

end Schedule

end Dispatch
