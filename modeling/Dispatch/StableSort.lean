/-!
# Stable sorting

Insertion sort by a comparison `le`. An element goes before the first one it is not above, so
elements that compare equal keep their order. `perm_sortBy` says that sorting only reorders,
`pairwise_sortBy_stable` that the result ascends and that ties keep their order, and `sortBy_map`
that only the comparison counts.
-/

namespace Dispatch

variable {β : Type}

/-- Puts `x` before the first element it is at most. -/
def insertBy (le : β → β → Bool) (x : β) : List β → List β
  | [] => [x]
  | y :: rest => if le x y then x :: y :: rest else y :: insertBy le x rest

/-- Sorts in ascending order; ties keep their order. -/
def sortBy (le : β → β → Bool) : List β → List β
  | [] => []
  | x :: rest => insertBy le x (sortBy le rest)

theorem perm_insertBy (le : β → β → Bool) (x : β) (l : List β) :
    (insertBy le x l).Perm (x :: l) := by
  induction l with
  | nil => exact .refl _
  | cons y rest ih =>
    rw [insertBy]
    split
    · exact .refl _
    · exact (ih.cons y).trans (.swap x y rest)

theorem perm_sortBy (le : β → β → Bool) (l : List β) : (sortBy le l).Perm l := by
  induction l with
  | nil => exact .refl _
  | cons x rest ih => exact (perm_insertBy le x _).trans (ih.cons x)

@[simp] theorem mem_sortBy {le : β → β → Bool} {x : β} {l : List β} : x ∈ sortBy le l ↔ x ∈ l :=
  (perm_sortBy le l).mem_iff

@[simp] theorem length_sortBy (le : β → β → Bool) (l : List β) : (sortBy le l).length = l.length :=
  (perm_sortBy le l).length_eq

theorem pairwise_insertBy {le : β → β → Bool} (trans : ∀ a b c, le a b → le b c → le a c)
    (total : ∀ a b, le a b ∨ le b a) {before : β → β → Prop} {x : β} {l : List β}
    (hx : ∀ y ∈ l, before x y) (h : l.Pairwise fun y z => le y z ∧ (le z y → before y z)) :
    (insertBy le x l).Pairwise fun y z => le y z ∧ (le z y → before y z) := by
  induction l with
  | nil => simp [insertBy]
  | cons y rest ih =>
    obtain ⟨hy, hrest⟩ := List.pairwise_cons.1 h
    rw [insertBy]
    split
    · rename_i hxy
      refine List.pairwise_cons.2 ⟨fun z hz => ⟨?_, fun _ => hx z hz⟩, h⟩
      rcases List.mem_cons.1 hz with rfl | hz
      · exact hxy
      · exact trans _ _ _ hxy (hy z hz).1
    · rename_i hxy
      have hrest := ih (fun z hz => hx z (List.mem_cons_of_mem _ hz)) hrest
      refine List.pairwise_cons.2 ⟨fun z hz => ?_, hrest⟩
      rcases List.mem_cons.1 ((perm_insertBy le x rest).mem_iff.1 hz) with rfl | hz
      · exact ⟨(total y z).resolve_right hxy, fun hle => absurd hle hxy⟩
      · exact hy z hz

/-- For a total and transitive comparison the result ascends, and ties stand as they stood. -/
theorem pairwise_sortBy_stable {le : β → β → Bool} (trans : ∀ a b c, le a b → le b c → le a c)
    (total : ∀ a b, le a b ∨ le b a) {before : β → β → Prop} {l : List β}
    (h : l.Pairwise before) :
    (sortBy le l).Pairwise fun x y => le x y ∧ (le y x → before x y) := by
  induction l with
  | nil => exact .nil
  | cons x rest ih =>
    obtain ⟨hx, hrest⟩ := List.pairwise_cons.1 h
    refine pairwise_insertBy trans total (fun y hy => hx y ?_) (ih hrest)
    exact mem_sortBy.1 hy

theorem pairwise_sortBy {le : β → β → Bool} (trans : ∀ a b c, le a b → le b c → le a c)
    (total : ∀ a b, le a b ∨ le b a) (l : List β) : (sortBy le l).Pairwise (le · ·) := by
  have hl : l.Pairwise fun _ _ => True := List.pairwise_of_forall fun _ _ => trivial
  exact (pairwise_sortBy_stable trans total hl).imp And.left

section Map
variable {γ : Type} {le : β → β → Bool} {le' : γ → γ → Bool} {f : β → γ}

theorem insertBy_map (h : ∀ a b, le' (f a) (f b) = le a b) (x : β) (l : List β) :
    insertBy le' (f x) (l.map f) = (insertBy le x l).map f := by
  induction l with
  | nil => rfl
  | cons y rest ih =>
    rw [List.map_cons, insertBy, insertBy, h, ih]
    split <;> rfl

/-- Elements that compare alike are sorted alike. -/
theorem sortBy_map (h : ∀ a b, le' (f a) (f b) = le a b) (l : List β) :
    sortBy le' (l.map f) = (sortBy le l).map f := by
  induction l with
  | nil => rfl
  | cons x rest ih => rw [List.map_cons, sortBy, sortBy, ih, insertBy_map h]

end Map

end Dispatch
