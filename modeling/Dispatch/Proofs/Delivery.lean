import Mathlib
import Dispatch.Proofs.Rounds
/-!
# What a mailbox delivers

Posts, drains and clearings follow each other on one mailbox (`Mailbox.Operation`). What is in it
afterwards are the messages accepted and neither taken out nor cleared away since
(`Mailbox.pending_after`), so a drain hands over what its recipient was sent since the last drain or
clearing, and nothing else. `Mailbox.delivers_what_was_posted` adds what a refused message does,
and that only the posts of each sender count, not how those of several senders were mixed.
-/

namespace Dispatch

/-! ## Stable sorts -/

/-- The sorted list has the same elements in ascending order of their keys, and those of one key
stand as they stood. -/
structure StablySorted {β : Type} (key : β → EntityId) (l sorted : List β) : Prop where
  perm : sorted.Perm l
  ascending : sorted.Pairwise fun x y => (key x).toNat ≤ (key y).toNat
  stable : ∀ k, sorted.filter (fun x => key x = k) = l.filter fun x => key x = k

theorem stablySorted_sortBy {β : Type} (key : β → EntityId) (l : List β) :
    StablySorted key l (sortBy (fun x y => decide ((key x).toNat ≤ (key y).toNat)) l) where
  perm := perm_sortBy _ l
  ascending := by
    refine (pairwise_sortBy (fun x y z hxy hyz => ?_) (fun x y => ?_) l).imp of_decide_eq_true
    · exact decide_eq_true ((of_decide_eq_true hxy).trans (of_decide_eq_true hyz))
    · simpa using le_total (key x).toNat (key y).toNat
  stable k := by
    refine filter_sortBy (fun x y hx hy => ?_) l
    rw [of_decide_eq_true hx, of_decide_eq_true hy]
    exact decide_eq_true le_rfl

namespace Mailbox
variable {α : Type} [Scalar α]

/-! ## Posting -/

/-- What is said of a message that is refused. -/
def Refusal (m : Message α) (e : Error α) : Prop :=
  ∃ v, m.payload.value? = some v ∧ Scalar.isFinite v = false ∧
    e = .nonFiniteMessage m.sender m.recipient v

/-- A message is refused if it is not finite, and else comes last in the mailbox. -/
theorem post_cases (box : Mailbox α) (m : Message α) :
    m.isFinite = true ∧ box.post m = .ok ⟨box.pending ++ [m]⟩ ∨
      m.isFinite = false ∧ ∃ e, Refusal m e ∧ box.post m = .error e := by
  cases hm : m.isFinite with
  | true => exact .inl ⟨rfl, box.post_of_isFinite hm⟩
  | false =>
    refine .inr ⟨rfl, ?_⟩
    unfold Message.isFinite at hm
    split at hm
    · rename_i v hv
      refine ⟨_, ⟨v, hv, hm, rfl⟩, ?_⟩
      simp only [post, hv, hm, Bool.false_eq_true, if_false]
    · cases hm

/-- Several messages are posted up to the first that is refused. -/
theorem pending_postAll (box : Mailbox α) (messages : List (Message α)) :
    (box.postAll messages).1.pending = box.pending ++ messages.takeWhile Message.isFinite := by
  induction messages generalizing box with
  | nil => exact (List.append_nil _).symm
  | cons m messages ih =>
    rcases box.post_cases m with ⟨hm, hpost⟩ | ⟨hm, e, -, hpost⟩
    · rw [postAll, hpost, List.takeWhile_cons_of_pos hm]
      exact (ih _).trans (List.append_assoc _ _ _)
    · rw [postAll, hpost, List.takeWhile_cons_of_neg (by simp [hm])]
      exact (List.append_nil _).symm

/-- What is said then is said of the first that is refused. -/
theorem postAll_of_refused (box : Mailbox α) {before rest : List (Message α)}
    {refused : Message α} (hbefore : ∀ m ∈ before, m.isFinite = true)
    (hrefused : refused.isFinite = false) :
    ∃ e, Refusal refused e ∧
      box.postAll (before ++ refused :: rest) = (⟨box.pending ++ before⟩, .error e) := by
  induction before generalizing box with
  | nil =>
    rcases box.post_cases refused with ⟨hfinite, -⟩ | ⟨-, e, he, hpost⟩
    · cases hfinite.symm.trans hrefused
    · exact ⟨e, he, by rw [List.nil_append, postAll, hpost, List.append_nil]⟩
  | cons m before ih =>
    obtain ⟨hm, hbefore⟩ := List.forall_mem_cons.1 hbefore
    obtain ⟨e, he, hall⟩ := ih ⟨box.pending ++ [m]⟩ hbefore
    refine ⟨e, he, ?_⟩
    rw [List.cons_append, postAll, box.post_of_isFinite hm]
    exact hall.trans (by rw [List.append_assoc, List.singleton_append])

/-! ## Operations -/

/-- Something done with a mailbox. -/
inductive Operation (α : Type) where
  | post (m : Message α)
  | postAll (messages : List (Message α))
  | drain (recipient : EntityId)
  | clear

namespace Operation

/-- What becomes of the mailbox. A refused message leaves it as it was. -/
def perform (box : Mailbox α) : Operation α → Mailbox α
  | post m =>
    match box.post m with
    | .ok next => next
    | .error _ => box
  | postAll messages => (box.postAll messages).1
  | drain recipient => (box.drain recipient).2
  | clear => .empty

/-- The messages it posts with success. -/
def accepted : Operation α → List (Message α)
  | post m => [m].filter Message.isFinite
  | postAll messages => messages.takeWhile Message.isFinite
  | drain _ => []
  | clear => []

/-- Nothing for the recipient is left after it. -/
def empties (op : Operation α) (recipient : EntityId) : Bool :=
  match op with
  | post _ => false
  | postAll _ => false
  | drain other => decide (other = recipient)
  | clear => true

/-- An operation takes away what it empties, and then posts what it accepts. -/
theorem pending_perform (box : Mailbox α) (op : Operation α) :
    (op.perform box).pending =
      box.pending.filter (fun m => !op.empties m.recipient) ++ op.accepted := by
  cases op with
  | post m =>
    rcases box.post_cases m with ⟨hm, hpost⟩ | ⟨hm, e, -, hpost⟩
    · simp [perform, hpost, accepted, empties, hm]
    · simp [perform, hpost, accepted, empties, hm]
  | postAll messages =>
    simp only [perform, pending_postAll, accepted, empties, Bool.not_false, List.filter_true]
  | drain recipient =>
    simp only [perform, Mailbox.drain, accepted, empties, List.append_nil]
    refine List.filter_congr fun m _ => ?_
    simp [eq_comm]
  | clear => simp [perform, empty, accepted, empties]

end Operation

/-! ## Histories -/

/-- The mailbox after these operations on an empty one. -/
def after (ops : List (Operation α)) : Mailbox α := ops.foldl Operation.perform .empty

/-- The messages posted with success that no later operation has taken out or cleared away. -/
def outstanding : List (Operation α) → List (Message α)
  | [] => []
  | op :: later =>
    (op.accepted.filter fun m => later.all fun other => !other.empties m.recipient) ++
      outstanding later

/-- What a recipient was sent with success since its mail was last taken out or cleared away. -/
def waiting (ops : List (Operation α)) (recipient : EntityId) : List (Message α) :=
  ((ops.rtakeWhile fun op => !op.empties recipient).flatMap Operation.accepted).filter
    fun m => m.recipient = recipient

theorem outstanding_append (ops later : List (Operation α)) :
    outstanding (ops ++ later) =
      (outstanding ops).filter (fun m => later.all fun op => !op.empties m.recipient) ++
        outstanding later := by
  induction ops with
  | nil => simp [outstanding]
  | cons op ops ih =>
    simp only [List.cons_append, outstanding, ih, List.all_append, List.filter_append,
      List.filter_filter, List.append_assoc]
    congr 2
    funext m
    exact Bool.and_comm _ _

/-- One operation more. -/
theorem outstanding_concat (ops : List (Operation α)) (op : Operation α) :
    outstanding (ops ++ [op]) =
      (outstanding ops).filter (fun m => !op.empties m.recipient) ++ op.accepted := by
  rw [outstanding_append]
  simp [outstanding]

theorem pending_after (ops : List (Operation α)) : (after ops).pending = outstanding ops := by
  induction ops using List.reverseRecOn with
  | nil => rfl
  | append_singleton ops op ih =>
    rw [outstanding_concat, ← ih, ← Operation.pending_perform, after, List.foldl_append]
    rfl

theorem waiting_eq (ops : List (Operation α)) (recipient : EntityId) :
    waiting ops recipient = (outstanding ops).filter fun m => m.recipient = recipient := by
  induction ops using List.reverseRecOn with
  | nil => rfl
  | append_singleton ops op ih =>
    rw [outstanding_concat, List.filter_append]
    cases hop : op.empties recipient with
    | true =>
      -- it leaves nothing of the earlier messages, and it is a drain or a clearing itself
      have haccepted : op.accepted = [] := by
        cases op with
        | post m => cases hop
        | postAll messages => cases hop
        | drain other => rfl
        | clear => rfl
      rw [waiting, List.rtakeWhile_concat_neg _ _ _ (by simp [hop]), haccepted]
      simp only [List.flatMap_nil, List.filter_nil, List.append_nil, List.filter_filter]
      refine (List.filter_eq_nil_iff.2 fun m _ => ?_).symm
      by_cases hm : m.recipient = recipient
      · simp [hm, hop]
      · simp [hm]
    | false =>
      rw [waiting, List.rtakeWhile_concat_pos _ _ _ (by simp [hop]), List.flatMap_append,
        List.filter_append, List.filter_filter]
      congr 1
      · refine ih.trans (List.filter_congr fun m _ => ?_)
        by_cases hm : m.recipient = recipient
        · simp [hm, hop]
        · simp [hm]
      · simp

/-- A drain hands over what waits for its recipient. -/
theorem drain_after (ops : List (Operation α)) (recipient : EntityId) :
    StablySorted Message.sender (waiting ops recipient) ((after ops).drain recipient).1 := by
  rw [waiting_eq, ← pending_after]
  exact stablySorted_sortBy _ _

/-! ## Posts of several senders -/

/-- Posts take nothing away. -/
theorem outstanding_append_posts (ops : List (Operation α)) (posts : List (Message α)) :
    outstanding (ops ++ posts.map .post) = outstanding ops ++ posts.filter Message.isFinite := by
  induction posts generalizing ops with
  | nil => simp
  | cons m rest ih =>
    rw [List.map_cons, ← List.singleton_append, ← List.append_assoc, ih, outstanding_concat,
      List.append_assoc, Operation.accepted, ← List.filter_append, List.singleton_append]
    simp [Operation.empties]

/-- Posts that are the same sender by sender leave everybody the same mail, whatever was done
before them and is done after them. -/
theorem drain_after_posts (before later : List (Operation α)) {posts others : List (Message α)}
    (h : ∀ s, posts.filter (fun m => m.sender = s) = others.filter fun m => m.sender = s)
    (recipient : EntityId) :
    ((after (before ++ posts.map .post ++ later)).drain recipient).1 =
      ((after (before ++ others.map .post ++ later)).drain recipient).1 := by
  simp only [drain, pending_after, outstanding_append _ later, outstanding_append_posts]
  refine sortBy_eq_of_filter_eq fun k => ?_
  -- only the posts in the middle differ, and not in those of one sender
  have hposts : posts.filter (fun m => m.sender.toNat = k) =
      others.filter fun m => m.sender.toNat = k := by
    by_cases hk : ∃ s : EntityId, s.toNat = k
    · obtain ⟨s, rfl⟩ := hk
      simpa only [EntityId.toNat_inj] using h s
    · have hnone : ∀ m : Message α, ¬ m.sender.toNat = k := fun m hm => hk ⟨_, hm⟩
      simp [hnone]
  simp only [List.filter_append,
    List.filter_comm (fun m : Message α => decide (m.sender.toNat = k)), hposts]

/-! ## Delivery -/

/-- However a mailbox has been used, a drain hands over all messages posted with success to its
recipient since the last clearing or the last drain of the same recipient, each once, by ascending
sender and those of one sender in the order of their posts; and as many are pending as were posted
with success and neither taken out nor cleared away. A message that is not finite is refused and
changes nothing; several messages are posted up to the first such one. Posts that are the same
sender by sender leave every recipient the same mail. -/
theorem delivers_what_was_posted :
    (∀ ops : List (Operation α),
      (∀ recipient,
        StablySorted Message.sender (waiting ops recipient) ((after ops).drain recipient).1) ∧
      (after ops).size = (outstanding ops).length) ∧
    (∀ (box : Mailbox α) (m : Message α),
      (m.isFinite = true → box.post m = .ok ⟨box.pending ++ [m]⟩) ∧
      (m.isFinite = false →
        (∃ e, Refusal m e ∧ box.post m = .error e) ∧ (Operation.post m).perform box = box)) ∧
    (∀ (box : Mailbox α) (messages : List (Message α)),
      ((∀ m ∈ messages, m.isFinite = true) →
        box.postAll messages = (⟨box.pending ++ messages⟩, .ok ())) ∧
      ∀ before refused rest, messages = before ++ refused :: rest →
        (∀ m ∈ before, m.isFinite = true) → refused.isFinite = false →
          ∃ e, Refusal refused e ∧
            box.postAll messages = (⟨box.pending ++ before⟩, .error e)) ∧
    ∀ (before later : List (Operation α)) (posts others : List (Message α)),
      (∀ s, posts.filter (fun m => m.sender = s) = others.filter fun m => m.sender = s) →
        ∀ recipient, ((after (before ++ posts.map .post ++ later)).drain recipient).1 =
          ((after (before ++ others.map .post ++ later)).drain recipient).1 := by
  refine ⟨fun ops => ⟨drain_after ops, ?_⟩,
    fun box m => ⟨box.post_of_isFinite, fun hm => ?_⟩,
    fun box messages => ⟨box.postAll_of_isFinite, fun before refused rest hmessages => ?_⟩,
    fun before later posts others h => drain_after_posts before later h⟩
  · rw [size, pending_after]
  · rcases box.post_cases m with ⟨hfinite, -⟩ | ⟨-, e, he, hpost⟩
    · cases hfinite.symm.trans hm
    · exact ⟨⟨e, he, hpost⟩, by simp only [Operation.perform, hpost]⟩
  · rw [hmessages]
    exact box.postAll_of_refused

def letter (sender recipient : Nat) (v : Float) : Message Float :=
  ⟨.ofNat sender, .ofNat recipient, .value v⟩

/-- A message whose value is undefined. -/
def blot : Message Float := letter 2 1 (0 / 0)

/-- The first message is taken out before the others come, and the last of these is not posted. -/
def correspondence : List (Operation Float) :=
  [.post (letter 3 1 1), .drain (.ofNat 1), .post (letter 3 9 2), .post blot,
    .postAll [letter 3 1 3, letter 2 1 4, letter 3 1 5, blot, letter 2 1 6]]

/-- Of two senders' posts it does not matter which of them come first. -/
theorem correspondence_is_delivered :
    blot.isFinite = false ∧
    (∃ e, Refusal blot e ∧ (after correspondence).post blot = .error e) ∧
    StablySorted Message.sender [letter 3 1 3, letter 2 1 4, letter 3 1 5]
      ((after correspondence).drain (.ofNat 1)).1 ∧
    (after correspondence).size = 4 ∧
    ((after (correspondence ++ [letter 2 1 7, letter 3 1 8].map .post)).drain (.ofNat 1)).1 =
      ((after (correspondence ++ [letter 3 1 8, letter 2 1 7].map .post)).drain (.ofNat 1)).1 := by
  have hblot : blot.isFinite = false := by decide
  obtain ⟨hdrain, hpost, -, hposts⟩ := delivers_what_was_posted (α := Float)
  have hsenders : ∀ s, [letter 2 1 7, letter 3 1 8].filter (fun m => m.sender = s) =
      [letter 3 1 8, letter 2 1 7].filter fun m => m.sender = s := by
    intro s
    by_cases h2 : EntityId.ofNat 2 = s
    · subst h2
      rfl
    · simp [letter, List.filter_cons, h2]
  refine ⟨hblot, ((hpost _ blot).2 hblot).1, (hdrain correspondence).1 (.ofNat 1),
    (hdrain correspondence).2.trans rfl, ?_⟩
  simpa using hposts correspondence [] _ _ hsenders (.ofNat 1)

end Mailbox

end Dispatch
