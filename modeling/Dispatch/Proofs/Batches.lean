import Mathlib
import Dispatch.MaxSum.Outbox
import Dispatch.Proofs.ScalarOrder
/-!
# What an outbox remembers

Values are sent and batches handed over on one outbox in any order (`Outbox.Operation`). Three
lemmas say what one operation does to the memory, the queue and the flag; what a whole history has
left in each of them follows by induction on its last operation. The memory outlives the batches,
the queue and the flag begin anew with each: `Outbox.remembers_every_batch`.
-/

namespace Dispatch

namespace Outbox
variable {α : Type}

/-- The last of the values on an edge. -/
def lastOn? (edge : Edge) (values : List (EdgeValue α)) : Option α :=
  (values.filter fun x => x.edge = edge).getLast?.map EdgeValue.value

theorem lastOn?_append (edge : Edge) (values later : List (EdgeValue α)) :
    lastOn? edge (values ++ later) = (lastOn? edge later).or (lastOn? edge values) := by
  rw [lastOn?, List.filter_append, List.getLast?_append, Option.map_or, lastOn?, lastOn?]

variable [Scalar α]

/-- Finite values that do not differ are at most the tolerance apart. -/
theorem differ_eq_false_iff [MeasuringScalar α] {x y : α} (hx : Scalar.isFinite x = true)
    (hy : Scalar.isFinite y = true) :
    differ x y = false ↔ Scalar.abs (x - y) ≤ Scalar.epsilon := by
  rw [differ, decide_eq_false_iff_not, OrderedScalar.le_iff_not_lt
    (MeasuringScalar.isNumber_abs_sub hx hy) MeasuringScalar.isNumber_epsilon]

/-- A value is queued and remembered if it is finite, and else refused. -/
theorem send_cases (o : Outbox α) (edge : Edge) (v : α) :
    Scalar.isFinite v = true ∧ o.send edge v =
        .ok ⟨o.queue ++ [⟨edge, v⟩], o.memory.insert edge v, o.settled && o.repeats edge v⟩ ∨
      Scalar.isFinite v = false ∧ o.send edge v = .error (.divergentFactorGraph edge v) := by
  unfold send
  cases Scalar.isFinite v with
  | true => exact .inl ⟨rfl, rfl⟩
  | false => exact .inr ⟨rfl, rfl⟩

/-! ## Operations -/

/-- Something done with an outbox. -/
inductive Operation (α : Type) where
  | send (edge : Edge) (v : α)
  | flush

namespace Operation

/-- What becomes of the outbox. A refused value leaves it as it was. -/
def perform (o : Outbox α) : Operation α → Outbox α
  | send edge v =>
    match o.send edge v with
    | .ok next => next
    | .error _ => o
  | flush => o.flush.2

/-- The values it sends with success. -/
def accepted : Operation α → List (EdgeValue α)
  | send edge v => [⟨edge, v⟩].filter fun x => Scalar.isFinite x.value
  | flush => []

/-- It hands the batch over. -/
def endsBatch : Operation α → Bool
  | send _ _ => false
  | flush => true

/-- What is accepted supersedes what was remembered on its edge. -/
theorem previous_perform (o : Outbox α) (op : Operation α) (edge : Edge) :
    (op.perform o).previous edge = (lastOn? edge op.accepted).or (o.previous edge) := by
  cases op with
  | flush => rfl
  | send other v =>
    rcases o.send_cases other v with ⟨hv, hsend⟩ | ⟨hv, hsend⟩
    · rcases eq_or_ne other edge with rfl | hedge
      · simp [perform, hsend, previous, accepted, hv, lastOn?]
      · simp only [perform, hsend, previous, SortedMap.get?_insert_of_ne _ _ hedge]
        simp [accepted, hv, lastOn?, hedge]
    · simp [perform, hsend, accepted, hv, lastOn?]

/-- What is accepted comes last in the queue, unless the queue is handed over. -/
theorem queue_perform (o : Outbox α) (op : Operation α) :
    (op.perform o).queue = if op.endsBatch then [] else o.queue ++ op.accepted := by
  cases op with
  | flush => rfl
  | send edge v =>
    rcases o.send_cases edge v with ⟨hv, hsend⟩ | ⟨hv, hsend⟩
    · simp [perform, hsend, accepted, endsBatch, hv]
    · simp [perform, hsend, accepted, endsBatch, hv]

/-- The batch stays settled if all that is accepted repeats what is remembered. -/
theorem settled_perform (o : Outbox α) (op : Operation α) :
    (op.perform o).settled =
      (op.endsBatch || o.settled && op.accepted.all fun x => o.repeats x.edge x.value) := by
  cases op with
  | flush => rfl
  | send edge v =>
    rcases o.send_cases edge v with ⟨hv, hsend⟩ | ⟨hv, hsend⟩
    · simp [perform, hsend, accepted, endsBatch, hv]
    · simp [perform, hsend, accepted, endsBatch, hv]

end Operation

/-- Nothing else is accepted than finite values. -/
theorem Operation.isFinite_of_accepted {op : Operation α} {x : EdgeValue α} (h : x ∈ op.accepted) :
    Scalar.isFinite x.value = true := by
  cases op with
  | send edge v => exact (List.mem_filter.1 h).2
  | flush => cases h

/-! ## Histories -/

/-- The outbox after these operations on an empty one. -/
def after (ops : List (Operation α)) : Outbox α := ops.foldl Operation.perform .empty

/-- All values sent with success. -/
def sent (ops : List (Operation α)) : List (EdgeValue α) := ops.flatMap Operation.accepted

/-- The values sent with success since the last batch was handed over. -/
def batch (ops : List (Operation α)) : List (EdgeValue α) :=
  sent (ops.rtakeWhile fun op => !op.endsBatch)

/-- The value joined the batch that `ops` leave when `before` had been done. -/
def Joined (ops before : List (Operation α)) (x : EdgeValue α) : Prop :=
  ∃ op later, ops = before ++ op :: later ∧ x ∈ op.accepted ∧
    ∀ other ∈ later, other.endsBatch = false

theorem after_concat (ops : List (Operation α)) (op : Operation α) :
    after (ops ++ [op]) = op.perform (after ops) := by
  rw [after, List.foldl_append]
  rfl

theorem sent_concat (ops : List (Operation α)) (op : Operation α) :
    sent (ops ++ [op]) = sent ops ++ op.accepted := by
  rw [sent, List.flatMap_append, List.flatMap_singleton, sent]

/-- The memory holds the last value sent on each edge, whatever has been handed over. -/
theorem previous_after (ops : List (Operation α)) (edge : Edge) :
    (after ops).previous edge = lastOn? edge (sent ops) := by
  induction ops using List.reverseRecOn with
  | nil => rfl
  | append_singleton ops op ih =>
    rw [after_concat, Operation.previous_perform, ih, sent_concat, lastOn?_append]

theorem isFinite_of_lastOn?_sent {ops : List (Operation α)} {edge : Edge} {v : α}
    (h : lastOn? edge (sent ops) = some v) : Scalar.isFinite v = true := by
  obtain ⟨x, hlast, rfl⟩ := Option.map_eq_some_iff.1 h
  obtain ⟨op, -, hx⟩ := List.mem_flatMap.1 (List.mem_filter.1 (List.mem_of_getLast? hlast)).1
  exact Operation.isFinite_of_accepted hx

/-- What repeats: there is a value to repeat, and it is not too far away. -/
theorem repeats_after_iff [MeasuringScalar α] (ops : List (Operation α)) (edge : Edge) {v : α}
    (hv : Scalar.isFinite v = true) :
    (after ops).repeats edge v = true ↔
      ∃ old, lastOn? edge (sent ops) = some old ∧ Scalar.abs (old - v) ≤ Scalar.epsilon := by
  rw [repeats, previous_after]
  cases hlast : lastOn? edge (sent ops) with
  | none => simp
  | some old =>
    rw [Bool.not_eq_true', differ_eq_false_iff (isFinite_of_lastOn?_sent hlast) hv]
    simp

theorem queue_after (ops : List (Operation α)) : (after ops).queue = batch ops := by
  induction ops using List.reverseRecOn with
  | nil => rfl
  | append_singleton ops op ih =>
    rw [after_concat, Operation.queue_perform, ih, batch, batch]
    cases hop : op.endsBatch with
    | true =>
      rw [List.rtakeWhile_concat_neg _ _ _ (by simp [hop])]
      rfl
    | false =>
      rw [List.rtakeWhile_concat_pos _ _ _ (by simp [hop]), sent_concat]
      rfl

/-- One operation more: it joins the batch itself, or leaves it as it was. -/
theorem joined_concat {ops before : List (Operation α)} {op : Operation α} {x : EdgeValue α} :
    Joined (ops ++ [op]) before x ↔
      op.endsBatch = false ∧ Joined ops before x ∨ before = ops ∧ x ∈ op.accepted := by
  constructor
  · rintro ⟨other, later, hops, hx, hlater⟩
    rcases List.eq_nil_or_concat later with rfl | ⟨later, last, rfl⟩
    · obtain ⟨rfl, hlast⟩ := List.append_inj' hops rfl
      obtain rfl := (List.cons.inj hlast).1
      exact .inr ⟨rfl, hx⟩
    · rw [List.concat_eq_append, ← List.cons_append, ← List.append_assoc] at hops
      obtain ⟨rfl, hlast⟩ := List.append_inj' hops rfl
      obtain rfl := (List.cons.inj hlast).1
      simp only [List.concat_eq_append, List.forall_mem_append, List.forall_mem_singleton] at hlater
      exact .inl ⟨hlater.2, other, later, rfl, hx, hlater.1⟩
  · rintro (⟨hop, other, later, rfl, hx, hlater⟩ | ⟨rfl, hx⟩)
    · refine ⟨other, later ++ [op], by simp, hx, ?_⟩
      exact List.forall_mem_append.2 ⟨hlater, List.forall_mem_singleton.2 hop⟩
    · exact ⟨op, [], rfl, hx, by simp⟩

/-- The flag says of every value of the batch that it repeated what had been sent before. -/
theorem settled_after_iff (ops : List (Operation α)) :
    (after ops).settled = true ↔
      ∀ before x, Joined ops before x → (after before).repeats x.edge x.value = true := by
  induction ops using List.reverseRecOn with
  | nil =>
    refine iff_of_true rfl ?_
    rintro before x ⟨op, later, hops, -⟩
    simp at hops
  | append_singleton ops op ih =>
    rw [after_concat, Operation.settled_perform]
    cases hop : op.endsBatch with
    | true =>
      refine iff_of_true rfl fun before x hjoined => ?_
      rcases joined_concat.1 hjoined with ⟨hfalse, -⟩ | ⟨-, hx⟩
      · cases hop.symm.trans hfalse
      · -- only a flush ends a batch, and it accepts nothing
        cases op with
        | send edge v => cases hop
        | flush => cases hx
    | false =>
      rw [Bool.false_or, Bool.and_eq_true, ih, List.all_eq_true]
      constructor
      · rintro ⟨hbefore, hnow⟩ before x hjoined
        rcases joined_concat.1 hjoined with ⟨-, hold⟩ | ⟨rfl, hx⟩
        · exact hbefore before x hold
        · exact hnow x hx
      · intro h
        exact ⟨fun before x hold => h before x (joined_concat.2 (.inl ⟨hop, hold⟩)),
          fun x hx => h ops x (joined_concat.2 (.inr ⟨rfl, hx⟩))⟩

/-! ## The memory of an outbox -/

/-- However an outbox has been used, it remembers the last value sent with success on each edge,
across all batches, and hands over the values sent with success since the last batch, each once and
in order. It is settled exactly if each of these values found an earlier one on its own edge and is
within the tolerance of the latest such one. A value that is not finite is refused and changes
nothing. -/
theorem remembers_every_batch [MeasuringScalar α] :
    (∀ ops : List (Operation α),
      (∀ edge, (after ops).previous edge = lastOn? edge (sent ops)) ∧
      (after ops).flush.1 = batch ops ∧
      ((after ops).settled = true ↔ ∀ before x, Joined ops before x →
        ∃ old, lastOn? x.edge (sent before) = some old ∧
          Scalar.abs (old - x.value) ≤ Scalar.epsilon)) ∧
    ∀ (o : Outbox α) (edge : Edge) (v : α),
      (Scalar.isFinite v = true → ∃ next, o.send edge v = .ok next) ∧
      (Scalar.isFinite v = false →
        o.send edge v = .error (.divergentFactorGraph edge v) ∧
          (Operation.send edge v).perform o = o) := by
  refine ⟨fun ops => ⟨previous_after ops, queue_after ops, ?_⟩, fun o edge v => ?_⟩
  · rw [settled_after_iff]
    refine forall₃_congr fun before x hjoined => ?_
    obtain ⟨op, -, -, hx, -⟩ := hjoined
    exact repeats_after_iff before x.edge (Operation.isFinite_of_accepted hx)
  · rcases o.send_cases edge v with ⟨hv, hsend⟩ | ⟨hv, hsend⟩
    · exact ⟨fun _ => ⟨_, hsend⟩, fun hnot => absurd hv (by simp [hnot])⟩
    · exact ⟨fun hfinite => absurd hfinite (by simp [hv]),
        fun _ => ⟨hsend, by simp only [Operation.perform, hsend]⟩⟩

/-- From one agent to its two targets. -/
def road (t : Nat) : Edge := ⟨.ofAgent (.ofNat 1), .ofTarget (.ofNat t)⟩

/-- Both roads carry values in the first batch, the first one two of them. In the second batch it
carries two that hardly move, and the other one an undefined value. -/
def traffic : List (Operation Float) :=
  [.send (road 10) 4, .send (road 20) 1, .send (road 10) 2, .flush,
    .send (road 10) 2.000001, .send (road 20) (0 / 0), .send (road 10) 2]

/-- The undefined value is forgotten, and what is left of the batch repeats. -/
theorem traffic_is_remembered :
    (after traffic).previous (road 10) = some 2 ∧ (after traffic).previous (road 20) = some 1 ∧
    (after traffic).flush.1 = [⟨road 10, 2.000001⟩, ⟨road 10, 2⟩] ∧
    (∀ before x, Joined traffic before x → ∃ old, lastOn? x.edge (sent before) = some old ∧
      Scalar.abs (old - x.value) ≤ Scalar.epsilon) ∧
    (after traffic).send (road 20) (0 / 0) = .error (.divergentFactorGraph (road 20) (0 / 0)) := by
  obtain ⟨hops, hsend⟩ := remembers_every_batch (α := Float)
  obtain ⟨hprevious, hflush, hsettled⟩ := hops traffic
  refine ⟨(hprevious _).trans ?_, (hprevious _).trans ?_, hflush.trans ?_, hsettled.1 ?_,
    ((hsend _ _ _).2 ?_).1⟩
  all_goals decide +kernel

end Outbox

end Dispatch
