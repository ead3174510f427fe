import Dispatch.EntityId
/-!
# Maps kept in key order

A map is the list of its entries in ascending rank of their keys, so two maps with the same
entries are equal. `get?_insert` and `get?_erase` say what an update does to a lookup, and
`ext_get?` that lookups determine the map.
-/

namespace Dispatch

variable {κ β : Type} [Ranked κ]

/-- The rank of the first entry is below the rank of the second. -/
def KeyBefore (a b : κ × β) : Prop := rank a.1 < rank b.1

/-- A finite map from ranked keys. -/
structure SortedMap (κ β : Type) [Ranked κ] where
  entries : List (κ × β)
  sorted : entries.Pairwise KeyBefore

namespace SortedMap

/-! ## Entry lists -/

/-- Puts the entry in its place, over an entry of the same key. -/
def insertEntry (k : κ) (v : β) : List (κ × β) → List (κ × β)
  | [] => [(k, v)]
  | e :: rest =>
    if rank k < rank e.1 then (k, v) :: e :: rest
    else if rank k = rank e.1 then (k, v) :: rest
    else e :: insertEntry k v rest

def lookupEntry (k : κ) : List (κ × β) → Option β
  | [] => none
  | e :: rest => if rank e.1 = rank k then some e.2 else lookupEntry k rest

theorem mem_insertEntry {k : κ} {v : β} {e : κ × β} {l : List (κ × β)} (h : e ∈ insertEntry k v l) :
    e = (k, v) ∨ e ∈ l := by
  induction l with
  | nil => simpa [insertEntry] using h
  | cons d rest ih =>
    rw [insertEntry] at h
    split at h
    · simpa using h
    · split at h
      · rcases List.mem_cons.1 h with h | h
        · exact .inl h
        · exact .inr (List.mem_cons_of_mem _ h)
      · rcases List.mem_cons.1 h with h | h
        · exact .inr (h ▸ List.mem_cons_self)
        · rcases ih h with h | h
          · exact .inl h
          · exact .inr (List.mem_cons_of_mem _ h)

theorem sorted_insertEntry (k : κ) (v : β) {l : List (κ × β)} (h : l.Pairwise KeyBefore) :
    (insertEntry k v l).Pairwise KeyBefore := by
  induction l with
  | nil => simp [insertEntry]
  | cons d rest ih =>
    obtain ⟨hd, hrest⟩ := List.pairwise_cons.1 h
    rw [insertEntry]
    split
    · rename_i hlt
      refine List.pairwise_cons.2 ⟨fun e he => ?_, h⟩
      rcases List.mem_cons.1 he with rfl | he
      · exact hlt
      · exact Nat.lt_trans hlt (hd e he)
    · split
      · rename_i heq
        refine List.pairwise_cons.2 ⟨fun e he => ?_, hrest⟩
        have := hd e he
        simp only [KeyBefore] at this ⊢
        omega
      · rename_i hge hne
        refine List.pairwise_cons.2 ⟨fun e he => ?_, ih hrest⟩
        rcases mem_insertEntry he with rfl | he
        · simp only [KeyBefore]; omega
        · exact hd e he

theorem lookupEntry_insertEntry (k j : κ) (v : β) (l : List (κ × β)) :
    lookupEntry j (insertEntry k v l) = if rank k = rank j then some v else lookupEntry j l := by
  induction l with
  | nil => simp [insertEntry, lookupEntry]
  | cons d rest ih =>
    rw [insertEntry]
    split
    · simp [lookupEntry]
    · split
      · rename_i heq
        simp only [lookupEntry]
        split <;> simp_all
      · simp only [lookupEntry, ih]
        split <;> split <;> simp_all

theorem lookupEntry_eq_none {k : κ} {l : List (κ × β)} (h : ∀ e ∈ l, rank e.1 ≠ rank k) :
    lookupEntry k l = none := by
  induction l with
  | nil => rfl
  | cons d rest ih =>
    rw [lookupEntry, if_neg (h d List.mem_cons_self)]
    exact ih fun e he => h e (List.mem_cons_of_mem _ he)

theorem lookupEntry_eq_some {k : κ} {v : β} {l : List (κ × β)} (h : lookupEntry k l = some v) :
    (k, v) ∈ l := by
  induction l with
  | nil => simp [lookupEntry] at h
  | cons d rest ih =>
    rw [lookupEntry] at h
    split at h
    · rename_i hk
      cases Option.some.inj h
      have := rank_inj hk
      subst this
      exact List.mem_cons_self
    · exact List.mem_cons_of_mem _ (ih h)

theorem lookupEntry_filter (k j : κ) (l : List (κ × β)) :
    lookupEntry j (l.filter fun e => rank e.1 ≠ rank k) =
      if rank k = rank j then none else lookupEntry j l := by
  induction l with
  | nil => simp [lookupEntry]
  | cons d rest ih =>
    by_cases hd : rank d.1 = rank k
    · simp only [List.filter_cons, hd, ne_eq, not_true_eq_false, decide_false, lookupEntry]
      simp only [ne_eq] at ih
      simp only [Bool.false_eq_true, if_false, ih]
      split <;> simp_all
    · simp only [List.filter_cons, ne_eq, hd, not_false_eq_true, decide_true, if_true, lookupEntry]
      simp only [ne_eq] at ih
      rw [ih]
      split <;> split <;> simp_all

/-! ## Maps -/

def empty : SortedMap κ β := ⟨[], .nil⟩

/-- Sets the value of a key. -/
def insert (m : SortedMap κ β) (k : κ) (v : β) : SortedMap κ β :=
  ⟨insertEntry k v m.entries, sorted_insertEntry k v m.sorted⟩

/-- Takes a key out. -/
def erase (m : SortedMap κ β) (k : κ) : SortedMap κ β :=
  ⟨m.entries.filter fun e => rank e.1 ≠ rank k, m.sorted.filter _⟩

def get? (m : SortedMap κ β) (k : κ) : Option β := lookupEntry k m.entries

def getD (m : SortedMap κ β) (k : κ) (fallback : β) : β := (m.get? k).getD fallback

/-- The entries in key order. -/
def toList (m : SortedMap κ β) : List (κ × β) := m.entries

/-- Of entries with one key the last one counts. -/
def ofList (entries : List (κ × β)) : SortedMap κ β :=
  entries.foldl (fun m e => m.insert e.1 e.2) empty

def keys (m : SortedMap κ β) : List κ := m.entries.map (·.1)

def values (m : SortedMap κ β) : List β := m.entries.map (·.2)

def size (m : SortedMap κ β) : Nat := m.entries.length

instance [DecidableEq κ] [DecidableEq β] : DecidableEq (SortedMap κ β) := fun a b =>
  if h : a.entries = b.entries then
    isTrue (by cases a; cases b; simp_all)
  else isFalse (by rintro rfl; exact h rfl)

instance : Inhabited (SortedMap κ β) := ⟨empty⟩

@[simp] theorem get?_empty (k : κ) : (empty : SortedMap κ β).get? k = none := rfl

theorem get?_insert (m : SortedMap κ β) (k j : κ) (v : β) :
    (m.insert k v).get? j = if rank k = rank j then some v else m.get? j :=
  lookupEntry_insertEntry k j v m.entries

@[simp] theorem get?_insert_self (m : SortedMap κ β) (k : κ) (v : β) :
    (m.insert k v).get? k = some v := by
  simp [get?_insert]

theorem get?_insert_of_ne (m : SortedMap κ β) {k j : κ} (v : β) (h : k ≠ j) :
    (m.insert k v).get? j = m.get? j := by
  rw [get?_insert, if_neg fun e => h (rank_inj e)]

theorem get?_erase (m : SortedMap κ β) (k j : κ) :
    (m.erase k).get? j = if rank k = rank j then none else m.get? j :=
  lookupEntry_filter k j m.entries

theorem get?_eq_some_iff (m : SortedMap κ β) (k : κ) (v : β) :
    m.get? k = some v ↔ (k, v) ∈ m.toList := by
  refine ⟨lookupEntry_eq_some, fun h => ?_⟩
  obtain ⟨l, hl⟩ := m
  simp only [get?, toList] at h ⊢
  induction l with
  | nil => cases h
  | cons d rest ih =>
    obtain ⟨hd, hrest⟩ := List.pairwise_cons.1 hl
    rcases List.mem_cons.1 h with rfl | h
    · simp [lookupEntry]
    · have := hd _ h
      simp only [KeyBefore] at this
      rw [lookupEntry, if_neg (by omega)]
      exact ih hrest h

/-- Lookups determine a map. -/
theorem ext_get? {m n : SortedMap κ β} (h : ∀ k, m.get? k = n.get? k) : m = n := by
  obtain ⟨l, hl⟩ := m
  obtain ⟨r, hr⟩ := n
  suffices l = r by subst this; rfl
  simp only [get?] at h
  induction l generalizing r with
  | nil =>
    cases r with
    | nil => rfl
    | cons e rest => have := h e.1; simp [lookupEntry] at this
  | cons d l ih =>
    cases r with
    | nil => have := h d.1; simp [lookupEntry] at this
    | cons e r =>
      obtain ⟨hd, hl'⟩ := List.pairwise_cons.1 hl
      obtain ⟨he, hr'⟩ := List.pairwise_cons.1 hr
      have hk : rank d.1 = rank e.1 := by
        have h1 := h d.1
        have h2 := h e.1
        simp only [lookupEntry, if_true] at h1 h2
        by_cases hde : rank d.1 = rank e.1
        · exact hde
        · rw [if_neg fun hh => hde hh.symm] at h1
          rw [if_neg hde] at h2
          have a1 := he _ (lookupEntry_eq_some h1.symm)
          have a2 := hd _ (lookupEntry_eq_some h2)
          simp only [KeyBefore] at a1 a2
          omega
      have hv : d.2 = e.2 := by
        have h1 := h d.1
        simpa [lookupEntry, hk] using h1
      have hde : d = e := Prod.ext (rank_inj hk) hv
      subst hde
      congr 1
      refine ih hl' r hr' fun k => ?_
      have hk' := h k
      simp only [lookupEntry] at hk'
      by_cases hdk : rank d.1 = rank k
      · rw [lookupEntry_eq_none, lookupEntry_eq_none]
        · intro e he'
          have := he e he'
          simp only [KeyBefore] at this
          omega
        · intro e he'
          have := hd e he'
          simp only [KeyBefore] at this
          omega
      · simpa [hdk] using hk'

end SortedMap

end Dispatch
