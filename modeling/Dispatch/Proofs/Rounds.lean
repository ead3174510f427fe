import Mathlib
import Dispatch.Proofs.Headcount
import Dispatch.Proofs.Interleaving
import Dispatch.Solver.Course
/-!
# Rounds in lockstep

A round in which nothing fails comes to the same as all agents sending at once and then all agents
stepping at once, each on the messages posted to it (`Round.Lockstep`): `Round.run_lockstep` for a
round in turn and `Round.runConcurrent_lockstep` for any course of a concurrent one. The posts
reach the mailbox in some order; nothing is lost and nothing comes twice.
-/

namespace Dispatch

variable {α σ β : Type}

/-- It has succeeded: this is its answer, and these are the agents afterwards. -/
def Progress.EndsWith (progress : Progress α σ β) (answer : β) (agents : List σ) : Prop :=
  progress.answer = .ok answer ∧ progress.agents = agents

/-! ## Mailboxes -/

namespace Mailbox

/-- The messages that wait for a recipient, as it takes them out. -/
def inbox (box : Mailbox α) (id : EntityId) : List (Message α) := (box.drain id).1

theorem mem_inbox {box : Mailbox α} {id : EntityId} {m : Message α} :
    m ∈ box.inbox id ↔ m ∈ box.pending ∧ m.recipient = id := by
  simp [inbox, drain]

/-- Taking out one inbox leaves the others as they are. -/
theorem inbox_drain (box : Mailbox α) {i j : EntityId} (h : i ≠ j) :
    (box.drain i).2.inbox j = box.inbox j := by
  show sortBy _ _ = sortBy _ _
  congr 1
  rw [drain, List.filter_filter]
  apply List.filter_congr
  intro m _
  by_cases hm : m.recipient = j
  · simp [hm, Ne.symm h]
  · simp [hm]

theorem filter_drain (box : Mailbox α) (id : EntityId) (ids : List EntityId) :
    (box.drain id).2.pending.filter (fun m => m.recipient ∉ ids) =
      box.pending.filter fun m => m.recipient ∉ id :: ids := by
  rw [drain, List.filter_filter]
  apply List.filter_congr
  intro m _
  by_cases hm : m.recipient = id <;> simp [hm]

variable [Scalar α]

theorem post_of_isFinite (box : Mailbox α) {m : Message α} (h : m.isFinite = true) :
    box.post m = .ok ⟨box.pending ++ [m]⟩ := by
  unfold post
  unfold Message.isFinite at h
  split at h <;> simp_all

theorem postAll_of_isFinite (box : Mailbox α) {messages : List (Message α)}
    (h : ∀ m ∈ messages, m.isFinite = true) :
    box.postAll messages = (⟨box.pending ++ messages⟩, .ok ()) := by
  induction messages generalizing box with
  | nil => simp [postAll]
  | cons m rest ih =>
    obtain ⟨hm, hrest⟩ := List.forall_mem_cons.1 h
    simp only [postAll, box.post_of_isFinite hm, ih _ hrest, List.append_assoc,
      List.singleton_append]

/-- Posting succeeds only if no message is refused. -/
theorem isFinite_of_postAll {box : Mailbox α} {messages : List (Message α)}
    (h : (box.postAll messages).2 = .ok ()) : ∀ m ∈ messages, m.isFinite = true := by
  induction messages generalizing box with
  | nil => simp
  | cons m rest ih =>
    by_cases hm : m.isFinite = true
    · simp only [postAll, box.post_of_isFinite hm] at h
      exact List.forall_mem_cons.2 ⟨hm, ih h⟩
    · have hrefused : ∃ e, box.post m = .error e := by
        unfold post
        unfold Message.isFinite at hm
        split at hm <;> simp_all
      obtain ⟨e, he⟩ := hrefused
      simp only [postAll, he] at h
      cases h

end Mailbox

namespace Round

/-! ## Sending -/

theorem map_eq_ok {ε γ : Type} {f : β → γ} {x : Except ε β} {y : γ} (h : x.map f = .ok y) :
    ∃ z, x = .ok z ∧ f z = y := by
  cases x with
  | error e => cases h
  | ok z => exact ⟨z, rfl, Except.ok.inj h⟩

theorem mapM_eq_ok_iff {ε γ δ : Type} {f : γ → Except ε δ} {l : List γ} {r : List δ} :
    l.mapM f = .ok r ↔ l.map f = r.map .ok := by
  induction l generalizing r with
  | nil =>
    show Except.ok [] = Except.ok r ↔ _
    cases r <;> simp
  | cons x rest ih =>
    rw [List.mapM_cons, List.map_cons]
    constructor
    · intro h
      cases hx : f x with
      | error e =>
        rw [hx] at h
        cases h
      | ok y =>
        cases hrest : rest.mapM f with
        | error e =>
          rw [hx, hrest] at h
          cases h
        | ok ys =>
          rw [hx, hrest] at h
          cases h
          rw [ih.1 hrest, List.map_cons]
    · intro h
      cases r with
      | nil => cases h
      | cons y ys =>
        obtain ⟨hx, hrest⟩ := List.cons.inj h
        rw [hx, ih.2 hrest]
        rfl

section Sending
variable [Scalar α] [Agent α σ]

/-- Nothing stands in the way when the agents send: they post finite values only, and account for
these messages. -/
structure Sends (agents : List σ) (sent : List (List (Message α))) : Prop where
  reported_eq : agents.map (fun a => (Agent.send a).reported) = sent.map .ok
  finite : ∀ a ∈ agents, ∀ m ∈ (Agent.send a).posts, m.isFinite = true

/-- The agent posts finite values only and accounts for all of them. -/
def SendsFreely (a : σ) : Prop :=
  (Agent.send a).reported = .ok (Agent.send a).posts ∧
    ∀ m ∈ (Agent.send a).posts, m.isFinite = true

theorem sends_of_sendsFreely {agents : List σ} (h : ∀ a ∈ agents, SendsFreely a) :
    Sends agents (agents.map fun a => (Agent.send a).posts) where
  reported_eq := by
    rw [List.map_map]
    exact List.map_congr_left fun a ha => (h a ha).1
  finite := fun a ha => (h a ha).2

theorem sendAll_of_sends (box : Mailbox α) {agents : List σ} {sent : List (List (Message α))}
    (h : Sends agents sent) :
    sendAll box agents = ⟨agents.map fun a => (Agent.send a).agent,
      ⟨box.pending ++ agents.flatMap fun a => (Agent.send a).posts⟩,
      agents.flatMap fun a => (Agent.send a).notes ++ Mailbox.postEvents (Agent.send a).posts,
      .ok sent⟩ := by
  induction agents generalizing box sent with
  | nil =>
    obtain rfl : sent = [] := List.map_eq_nil_iff.1 h.reported_eq.symm
    simp [sendAll]
  | cons a rest ih =>
    obtain ⟨messages, tail, rfl, hreported, htail⟩ := List.map_eq_cons_iff.1 h.reported_eq.symm
    obtain ⟨hfinite, hrest⟩ := List.forall_mem_cons.1 h.finite
    simp only [sendAll, deliver, box.postAll_of_isFinite hfinite, ← hreported,
      ih _ ⟨htail.symm, hrest⟩, List.append_assoc, List.map_cons, List.flatMap_cons, Except.map]

/-- If the agents get through their sending in turn, nothing stood in their way. -/
theorem sends_of_sendAll {box : Mailbox α} {agents : List σ} {sent : List (List (Message α))}
    (h : (sendAll box agents).answer = .ok sent) : Sends agents sent := by
  induction agents generalizing box sent with
  | nil =>
    cases h
    exact ⟨rfl, by simp⟩
  | cons a rest ih =>
    simp only [sendAll, deliver] at h
    cases hposted : (box.postAll (Agent.send a).posts).2 with
    | error e =>
      rw [hposted] at h
      cases h
    | ok _ =>
      rw [hposted] at h
      cases hreported : (Agent.send a).reported with
      | error e =>
        simp only [hreported] at h
        cases h
      | ok messages =>
        simp only [hreported] at h
        obtain ⟨tail, htail, rfl⟩ := map_eq_ok h
        obtain ⟨hrest, hfinite⟩ := ih htail
        exact ⟨by rw [List.map_cons, List.map_cons, hreported, hrest],
          List.forall_mem_cons.2 ⟨Mailbox.isFinite_of_postAll hposted, hfinite⟩⟩

/-- The posts of all agents, in the interleaving of the picks. -/
def interleaved (picks : List Nat) (agents : List σ) : Mailbox α :=
  ⟨Schedule.interleave picks (agents.map fun a => (Agent.send a).posts)⟩

omit [Scalar α] in
theorem interleaved_perm (picks : List Nat) (agents : List σ) :
    (interleaved picks agents).pending.Perm (agents.flatMap fun a => (Agent.send a).posts) := by
  rw [List.flatMap_def]
  exact (Schedule.interleaves_interleave _ _).perm

theorem sendInterleaved_of_sends (picks : List Nat) {agents : List σ}
    {sent : List (List (Message α))} (h : Sends agents sent) :
    sendInterleaved picks agents = ⟨agents.map fun a => (Agent.send a).agent,
      interleaved picks agents,
      agents.flatMap (fun a => (Agent.send a).notes) ++
        Mailbox.postEvents (interleaved picks agents).pending, .ok sent⟩ := by
  have hfinite : ∀ m ∈ (interleaved picks agents).pending, m.isFinite = true := by
    intro m hm
    obtain ⟨a, ha, hm⟩ := List.mem_flatMap.1 ((interleaved_perm picks agents).mem_iff.1 hm)
    exact h.finite a ha m hm
  have hreported : (agents.map Agent.send).mapM (·.reported) = .ok sent := by
    rw [mapM_eq_ok_iff, List.map_map]
    exact h.reported_eq
  have hposts : Mailbox.empty.postAll
      (Schedule.interleave picks (agents.map ((·.posts) ∘ Agent.send))) =
        (interleaved picks agents, .ok ()) := Mailbox.empty.postAll_of_isFinite hfinite
  simp only [sendInterleaved, List.map_map, List.flatMap_map, hreported, hposts]
  rfl

/-- If the agents get through their sending in some interleaving, nothing stood in their way. -/
theorem sends_of_sendInterleaved {picks : List Nat} {agents : List σ}
    {sent : List (List (Message α))} (h : (sendInterleaved picks agents).answer = .ok sent) :
    Sends agents sent := by
  simp only [sendInterleaved, List.map_map] at h
  split at h
  · rename_i hposted
    have hfinite := Mailbox.isFinite_of_postAll hposted
    rw [mapM_eq_ok_iff, List.map_map] at h
    refine ⟨h, fun a ha m hm => hfinite m ?_⟩
    exact (interleaved_perm picks agents).mem_iff.2 (List.mem_flatMap.2 ⟨a, ha, hm⟩)
  · cases h

end Sending

/-! ## Stepping -/

section Stepping
variable [Agent α σ]

/-- What an agent makes of the messages that wait for it. -/
def replyTo (box : Mailbox α) (a : σ) : Reply α σ Bool :=
  Agent.step a (box.inbox (Agent.id a))

theorem inbox_next {box current : Mailbox α} {a : σ} {rest : List σ}
    (hids : ((a :: rest).map Agent.id).Nodup)
    (hbox : ∀ b ∈ a :: rest, current.inbox (Agent.id b) = box.inbox (Agent.id b)) :
    ∀ b ∈ rest, (current.drain (Agent.id a)).2.inbox (Agent.id b) = box.inbox (Agent.id b) := by
  intro b hb
  have hne : Agent.id a ≠ Agent.id b := fun h =>
    (List.nodup_cons.1 hids).1 (h ▸ List.mem_map_of_mem hb)
  rw [current.inbox_drain hne, hbox b (List.mem_cons_of_mem a hb)]

/-- Agents with distinct identifiers that step in turn all step on the mailbox as it was. -/
theorem stepAll_of_ok {box current : Mailbox α} {agents : List σ}
    (hids : (agents.map Agent.id).Nodup)
    (hbox : ∀ a ∈ agents, current.inbox (Agent.id a) = box.inbox (Agent.id a)) {flags : List Bool}
    (h : (stepAll current agents).answer = .ok flags) :
    stepAll current agents = ⟨agents.map fun a => (replyTo box a).agent,
        ⟨current.pending.filter fun m => m.recipient ∉ agents.map Agent.id⟩,
        agents.flatMap fun a => (replyTo box a).notes, .ok flags⟩ ∧
      agents.map (fun a => (replyTo box a).answer) = flags.map .ok := by
  induction agents generalizing current flags with
  | nil =>
    cases h
    simp [stepAll]
  | cons a rest ih =>
    -- whoever stepped before has left this agent's mail alone
    have hreply : Agent.step a (current.drain (Agent.id a)).1 = replyTo box a :=
      congrArg (Agent.step a) (hbox a List.mem_cons_self)
    simp only [stepAll, hreply] at h ⊢
    cases hanswer : (replyTo box a).answer with
    | error e =>
      rw [hanswer] at h
      cases h
    | ok again =>
      rw [hanswer] at h
      obtain ⟨tail, htail, rfl⟩ := map_eq_ok h
      obtain ⟨hrun, hflags⟩ := ih (List.nodup_cons.1 hids).2 (inbox_next hids hbox) htail
      refine ⟨?_, by rw [List.map_cons, hanswer, hflags, List.map_cons]⟩
      simp only [hrun, List.map_cons, List.flatMap_cons, Except.map, Mailbox.filter_drain]

/-- If every agent can step, all do. -/
theorem stepAll_succeeds (box current : Mailbox α) (agents : List σ)
    (hids : (agents.map Agent.id).Nodup)
    (hbox : ∀ a ∈ agents, current.inbox (Agent.id a) = box.inbox (Agent.id a))
    (h : ∀ a ∈ agents, ∃ again, (replyTo box a).answer = .ok again) :
    ∃ flags, (stepAll current agents).answer = .ok flags := by
  induction agents generalizing current with
  | nil => exact ⟨[], rfl⟩
  | cons a rest ih =>
    have hreply : Agent.step a (current.drain (Agent.id a)).1 = replyTo box a :=
      congrArg (Agent.step a) (hbox a List.mem_cons_self)
    obtain ⟨again, hanswer⟩ := h a List.mem_cons_self
    obtain ⟨flags, hflags⟩ := ih _ (List.nodup_cons.1 hids).2 (inbox_next hids hbox)
      fun b hb => h b (List.mem_cons_of_mem a hb)
    refine ⟨again :: flags, ?_⟩
    simp only [stepAll, hreply, hanswer, hflags]
    rfl

theorem id_ne_of_getElem? {agents : List σ} (hids : (agents.map Agent.id).Nodup) {i j : Nat}
    {a b : σ} (ha : agents[i]? = some a) (hb : agents[j]? = some b) (h : i ≠ j) :
    Agent.id a ≠ Agent.id b := by
  intro hid
  obtain ⟨hi, -⟩ := List.getElem?_eq_some_iff.1 ha
  refine h ((List.getElem?_inj (by rwa [List.length_map]) hids).1 ?_)
  rw [List.getElem?_map, List.getElem?_map, ha, hb, Option.map_some, Option.map_some, hid]

/-- The agents at the positions of an order have yet to step: they stand as they did before, and
all their mail waits for them. -/
structure Waiting (box : Mailbox α) (before : List σ) (current : Mailbox α) (agents : List σ)
    (order : List Nat) : Prop where
  nodup_ids : (before.map Agent.id).Nodup
  nodup_order : order.Nodup
  in_range : ∀ i ∈ order, i < before.length
  agent_eq : ∀ i ∈ order, agents[i]? = before[i]?
  inbox_eq : ∀ i ∈ order, ∀ a, before[i]? = some a →
    current.inbox (Agent.id a) = box.inbox (Agent.id a)

section Order
variable {box current : Mailbox α} {before agents : List σ} {order rest : List Nat} {i : Nat}

theorem Waiting.first (h : Waiting box before current agents (i :: rest)) :
    ∃ a, before[i]? = some a ∧ agents[i]? = some a ∧
      Agent.step a (current.drain (Agent.id a)).1 = replyTo box a := by
  have hget := List.getElem?_eq_getElem (h.in_range i List.mem_cons_self)
  refine ⟨_, hget, (h.agent_eq i List.mem_cons_self).trans hget, ?_⟩
  exact congrArg (Agent.step _) (h.inbox_eq i List.mem_cons_self _ hget)

/-- Once the first agent of an order has stepped, the later ones still wait. -/
theorem Waiting.next (h : Waiting box before current agents (i :: rest)) {a : σ}
    (ha : before[i]? = some a) (next : σ) :
    Waiting box before (current.drain (Agent.id a)).2 (agents.set i next) rest := by
  obtain ⟨hi, hrest⟩ := List.nodup_cons.1 h.nodup_order
  have hother : ∀ j ∈ rest, i ≠ j := fun j hj e => hi (e ▸ hj)
  refine ⟨h.nodup_ids, hrest, fun j hj => h.in_range j (List.mem_cons_of_mem i hj),
    fun j hj => ?_, fun j hj b hb => ?_⟩
  · rw [List.getElem?_set_ne (hother j hj), h.agent_eq j (List.mem_cons_of_mem i hj)]
  · rw [current.inbox_drain (id_ne_of_getElem? h.nodup_ids ha hb (hother j hj)),
      h.inbox_eq j (List.mem_cons_of_mem i hj) b hb]

theorem stepInOrder_cons {a : σ} (ha : agents[i]? = some a)
    (hreply : Agent.step a (current.drain (Agent.id a)).1 = replyTo box a) {again : Bool}
    (hanswer : (replyTo box a).answer = .ok again) :
    stepInOrder current agents (i :: rest) =
      let tail := stepInOrder (current.drain (Agent.id a)).2
        (agents.set i (replyTo box a).agent) rest
      ⟨tail.agents, tail.mailbox, (replyTo box a).notes ++ tail.events,
        tail.answer.map ((i, again) :: ·)⟩ := by
  simp only [stepInOrder, ha, hreply, hanswer]

/-- The agents of an order have stepped on the mailbox as it was, and nobody else has. -/
structure Stepped (box : Mailbox α) (before : List σ) (current : Mailbox α) (agents : List σ)
    (order : List Nat) (answers : List (Nat × Bool))
    (progress : Progress α σ (List (Nat × Bool))) : Prop where
  agents_eq : ∀ i, progress.agents[i]? =
    if i ∈ order then before[i]?.map fun a => (replyTo box a).agent else agents[i]?
  answers_eq : ∀ i ∈ order, ∀ a, before[i]? = some a →
    ∃ again, (replyTo box a).answer = .ok again ∧ answers.lookup i = some again
  undelivered : ∀ msg ∈ progress.mailbox.pending, msg ∈ current.pending ∧
    ∀ i ∈ order, ∀ a, before[i]? = some a → msg.recipient ≠ Agent.id a
  events_mem : ∀ e ∈ progress.events, ∃ a ∈ before, e ∈ (replyTo box a).notes

/-- One agent before all the others. -/
theorem Stepped.cons (h : Waiting box before current agents (i :: rest)) {a : σ}
    (hget : before[i]? = some a) {again : Bool} (hanswer : (replyTo box a).answer = .ok again)
    {answers : List (Nat × Bool)} {tail : Progress α σ (List (Nat × Bool))}
    (htail : Stepped box before (current.drain (Agent.id a)).2
      (agents.set i (replyTo box a).agent) rest answers tail)
    (answer : Except (Error α) (List (Nat × Bool))) :
    Stepped box before current agents (i :: rest) ((i, again) :: answers)
      ⟨tail.agents, tail.mailbox, (replyTo box a).notes ++ tail.events, answer⟩ := by
  obtain ⟨hi, -⟩ := List.nodup_cons.1 h.nodup_order
  have hcurrent := (h.agent_eq i List.mem_cons_self).trans hget
  refine ⟨fun j => ?_, fun j hj b hb => ?_, fun msg hmsg => ?_, fun e he => ?_⟩
  · rw [htail.agents_eq j]
    by_cases hji : j = i
    · subst hji
      have hlt : j < agents.length := (List.getElem?_eq_some_iff.1 hcurrent).1
      simp [hi, hget, hlt]
    · simp [hji, List.getElem?_set_ne (Ne.symm hji)]
  · rcases List.mem_cons.1 hj with rfl | hj
    · obtain rfl : a = b := Option.some.inj (hget.symm.trans hb)
      exact ⟨again, hanswer, by simp⟩
    · obtain ⟨more, hmore, hlookup⟩ := htail.answers_eq j hj b hb
      have hne : j ≠ i := fun e => hi (e ▸ hj)
      refine ⟨more, hmore, ?_⟩
      rw [List.lookup_cons, beq_false_of_ne hne, hlookup]
  · -- what is left was neither for this agent nor for a later one
    obtain ⟨hleft, hlater⟩ := htail.undelivered msg hmsg
    obtain ⟨hleft, hto⟩ := List.mem_filter.1 hleft
    refine ⟨hleft, fun j hj b hb => ?_⟩
    rcases List.mem_cons.1 hj with rfl | hj
    · obtain rfl : a = b := Option.some.inj (hget.symm.trans hb)
      exact of_decide_eq_true hto
    · exact hlater j hj b hb
  · rcases List.mem_append.1 he with he | he
    · exact ⟨a, List.mem_of_getElem? hget, he⟩
    · exact htail.events_mem e he

/-- Agents with distinct identifiers that step in any order all step on the mailbox as it was. -/
theorem stepInOrder_of_ok (h : Waiting box before current agents order)
    {answers : List (Nat × Bool)} (hok : (stepInOrder current agents order).answer = .ok answers) :
    Stepped box before current agents order answers (stepInOrder current agents order) := by
  induction order generalizing current agents answers with
  | nil => exact ⟨by simp [stepInOrder], by simp, by simp [stepInOrder], by simp [stepInOrder]⟩
  | cons i rest ih =>
    obtain ⟨a, hget, hcurrent, hreply⟩ := h.first
    cases hanswer : (replyTo box a).answer with
    | error e =>
      simp only [stepInOrder, hcurrent, hreply, hanswer] at hok
      cases hok
    | ok again =>
      rw [stepInOrder_cons hcurrent hreply hanswer] at hok ⊢
      obtain ⟨tail, htail, rfl⟩ := map_eq_ok hok
      exact .cons h hget hanswer (ih (h.next hget _) htail) _

/-- Once everybody has stepped, each agent stands where its own reply has left it. -/
theorem Stepped.agents_eq_map {n : Nat} {picks : List Nat} {answers : List (Nat × Bool)}
    {progress : Progress α σ (List (Nat × Bool))} (hn : before.length = n)
    (h : Stepped box before current before (Schedule.order picks n) answers progress) :
    progress.agents = before.map fun a => (replyTo box a).agent := by
  apply List.ext_getElem?
  intro i
  rw [h.agents_eq i, List.getElem?_map]
  split
  · rfl
  · rename_i hi
    have hout : before[i]? = none := by
      rw [List.getElem?_eq_none_iff, hn]
      exact Nat.le_of_not_lt (mt Schedule.mem_order.2 hi)
    rw [hout, Option.map_none]

theorem Stepped.answers_eq_map {n : Nat} {picks : List Nat} {answers : List (Nat × Bool)}
    {progress : Progress α σ (List (Nat × Bool))} (hn : before.length = n)
    (h : Stepped box before current agents (Schedule.order picks n) answers progress) :
    before.map (fun a => (replyTo box a).answer) = (flagsByPosition n answers).map .ok := by
  apply List.ext_getElem?
  intro i
  by_cases hi : i < n
  · have hget := List.getElem?_eq_getElem (hn.symm ▸ hi)
    obtain ⟨again, hagain, hfound⟩ := h.answers_eq i (Schedule.mem_order.2 hi) _ hget
    simp [flagsByPosition, hi, hget, hagain, hfound]
  · have hout : before[i]? = none := List.getElem?_eq_none (by omega)
    simp [flagsByPosition, hi, hout]

/-- If every agent can step, all do, in any order. -/
theorem stepInOrder_succeeds (h : Waiting box before current agents order)
    (hok : ∀ a ∈ before, ∃ again, (replyTo box a).answer = .ok again) :
    ∃ answers, (stepInOrder current agents order).answer = .ok answers := by
  induction order generalizing current agents with
  | nil => exact ⟨[], rfl⟩
  | cons i rest ih =>
    obtain ⟨a, hget, hcurrent, hreply⟩ := h.first
    obtain ⟨again, hanswer⟩ := hok a (List.mem_of_getElem? hget)
    obtain ⟨answers, hanswers⟩ := ih (h.next hget (replyTo box a).agent)
    refine ⟨(i, again) :: answers, ?_⟩
    rw [stepInOrder_cons hcurrent hreply hanswer]
    simp only [hanswers]
    rfl

end Order

/-- Before the first step all agents wait. -/
theorem Waiting.start {box : Mailbox α} {agents : List σ} {picks : List Nat} {n : Nat}
    (hids : (agents.map Agent.id).Nodup) (hn : agents.length = n) :
    Waiting box agents box agents (Schedule.order picks n) where
  nodup_ids := hids
  nodup_order := (Schedule.order_perm picks n).nodup_iff.2 List.nodup_range
  in_range := fun _ hi => hn.symm ▸ Schedule.mem_order.1 hi
  agent_eq := fun _ _ => rfl
  inbox_eq := fun _ _ _ _ => rfl

end Stepping

/-! ## Rounds -/

section Rounds
variable [Scalar α] [Agent α σ]

/-- All agents have sent, and then all have stepped on the posts, in whatever order these
arrived. -/
structure Lockstep (agents : List σ) (posts : List (Message α)) (flags : List Bool)
    (progress : Progress α σ (Outcome α)) : Prop where
  posts_perm : posts.Perm (agents.flatMap fun a => (Agent.send a).posts)
  answer_eq : progress.answer = .ok (agents.map fun a => (Agent.send a).posts, flags)
  agents_eq : progress.agents =
    agents.map fun a => (replyTo ⟨posts⟩ (Agent.send a).agent).agent
  flags_eq : agents.map (fun a => (replyTo ⟨posts⟩ (Agent.send a).agent).answer) = flags.map .ok
  /-- Only mail for strangers is left. -/
  undelivered : ∀ msg ∈ progress.mailbox.pending,
    msg ∈ posts ∧ ∀ a ∈ agents, msg.recipient ≠ Agent.id (Agent.send a).agent
  events_mem : ∀ e ∈ progress.events,
    (∃ a ∈ agents, e ∈ (Agent.send a).notes) ∨ (∃ msg ∈ posts, e = Mailbox.postEvent msg) ∨
      ∃ a ∈ agents, e ∈ (replyTo ⟨posts⟩ (Agent.send a).agent).notes

theorem Lockstep.exists_flag {agents : List σ} {posts : List (Message α)} {flags : List Bool}
    {progress : Progress α σ (Outcome α)} (h : Lockstep agents posts flags progress) {a : σ}
    (ha : a ∈ agents) :
    ∃ again ∈ flags, (replyTo ⟨posts⟩ (Agent.send a).agent).answer = .ok again := by
  have hin : (replyTo ⟨posts⟩ (Agent.send a).agent).answer ∈ flags.map .ok :=
    h.flags_eq ▸ List.mem_map.2 ⟨a, ha, rfl⟩
  obtain ⟨again, hagain, hok⟩ := List.mem_map.1 hin
  exact ⟨again, hagain, hok.symm⟩

theorem Lockstep.quiet_iff {agents : List σ} {posts : List (Message α)} {flags : List Bool}
    {progress : Progress α σ (Outcome α)} (h : Lockstep agents posts flags progress) :
    true ∉ flags ↔ ∀ a ∈ agents, (replyTo ⟨posts⟩ (Agent.send a).agent).answer = .ok false := by
  constructor
  · intro hquiet a ha
    obtain ⟨again, hagain, hanswer⟩ := h.exists_flag ha
    cases again with
    | true => exact absurd hagain hquiet
    | false => exact hanswer
  · intro hall hin
    have hanswer : (.ok true : Except (Error α) Bool) ∈ flags.map .ok := List.mem_map_of_mem hin
    rw [← h.flags_eq] at hanswer
    obtain ⟨a, ha, hanswer⟩ := List.mem_map.1 hanswer
    rw [hall a ha] at hanswer
    cases hanswer

omit [Agent α σ] in
theorem mem_postEvents {messages : List (Message α)} {e : Event α}
    (h : e ∈ Mailbox.postEvents messages) : ∃ msg ∈ messages, e = Mailbox.postEvent msg := by
  obtain ⟨msg, hmsg, rfl⟩ := List.mem_map.1 h
  refine ⟨msg, ?_, rfl⟩
  rcases List.mem_append.1 hmsg with hmsg | hmsg
  · exact (List.takeWhile_sublist _).mem hmsg
  · exact List.mem_of_mem_drop (List.mem_of_mem_take hmsg)

/-- The messages that agents post, agent by agent. -/
def posted (agents : List σ) : Mailbox α := ⟨agents.flatMap fun a => (Agent.send a).posts⟩

theorem run_of_sends {agents : List σ} {sent : List (List (Message α))} (h : Sends agents sent) :
    run agents =
      let stepped := stepAll (posted agents) (agents.map fun a => (Agent.send a).agent)
      ⟨stepped.agents, stepped.mailbox,
        (agents.flatMap fun a => (Agent.send a).notes ++ Mailbox.postEvents (Agent.send a).posts) ++
          stepped.events,
        stepped.answer.map (sent, ·)⟩ := by
  simp only [run, sendAll_of_sends _ h]
  rfl

theorem runConcurrent_of_sends (schedule : Schedule) {agents : List σ}
    {sent : List (List (Message α))} (h : Sends agents sent) :
    runConcurrent schedule agents =
      let box := interleaved schedule.posts agents
      let stepped := stepInOrder box (agents.map fun a => (Agent.send a).agent)
        (Schedule.order schedule.steps agents.length)
      ⟨stepped.agents, stepped.mailbox,
        agents.flatMap (fun a => (Agent.send a).notes) ++ Mailbox.postEvents box.pending ++
          stepped.events,
        stepped.answer.map fun answers => (sent, flagsByPosition agents.length answers)⟩ := by
  simp only [runConcurrent, sendInterleaved_of_sends _ h]

/-- A round in turn that does not fail goes in lockstep. -/
theorem run_lockstep {agents : List σ} (hsends : ∀ a ∈ agents, SendsFreely a)
    (hids : (agents.map fun a => Agent.id (Agent.send a).agent).Nodup) {outcome : Outcome α}
    (h : (run agents).answer = .ok outcome) :
    ∃ posts flags, Lockstep agents posts flags (run agents) := by
  rw [run_of_sends (sends_of_sendsFreely hsends)] at h ⊢
  dsimp only at h ⊢
  obtain ⟨flags, hflags, rfl⟩ := map_eq_ok h
  obtain ⟨hrun, hanswers⟩ := stepAll_of_ok (by rwa [List.map_map]) (fun _ _ => rfl) hflags
  rw [List.map_map] at hanswers
  refine ⟨(posted agents).pending, flags, ⟨.refl _, by rw [hflags]; rfl, ?_, hanswers, ?_, ?_⟩⟩
  · rw [hrun, List.map_map]
    rfl
  · intro msg hmsg
    rw [hrun] at hmsg
    obtain ⟨hmsg, hstranger⟩ := List.mem_filter.1 hmsg
    refine ⟨hmsg, fun a ha hto => of_decide_eq_true hstranger ?_⟩
    exact List.mem_map.2 ⟨_, List.mem_map_of_mem ha, hto.symm⟩
  · intro e he
    rw [hrun, List.flatMap_map] at he
    rcases List.mem_append.1 he with he | he
    · obtain ⟨a, ha, he⟩ := List.mem_flatMap.1 he
      rcases List.mem_append.1 he with he | he
      · exact .inl ⟨a, ha, he⟩
      · obtain ⟨msg, hmsg, rfl⟩ := mem_postEvents he
        exact .inr (.inl ⟨msg, List.mem_flatMap.2 ⟨a, ha, hmsg⟩, rfl⟩)
    · exact .inr (.inr (List.mem_flatMap.1 he))

/-- If every agent can step on what is posted to it, a round in turn does not fail. -/
theorem run_succeeds {agents : List σ} (hsends : ∀ a ∈ agents, SendsFreely a)
    (hids : (agents.map fun a => Agent.id (Agent.send a).agent).Nodup)
    (h : ∀ posts, posts.Perm (agents.flatMap fun a => (Agent.send a).posts) → ∀ a ∈ agents,
      ∃ again, (replyTo ⟨posts⟩ (Agent.send a).agent).answer = .ok again) :
    ∃ outcome, (run agents).answer = .ok outcome := by
  rw [run_of_sends (sends_of_sendsFreely hsends)]
  obtain ⟨flags, hflags⟩ := stepAll_succeeds (posted agents) (posted agents)
    (agents.map fun a => (Agent.send a).agent) (by rwa [List.map_map]) (fun _ _ => rfl)
    (List.forall_mem_map.2 (h _ (.refl _)))
  refine ⟨(agents.map fun a => (Agent.send a).posts, flags), ?_⟩
  simp only [hflags]
  rfl

/-- A concurrent round that does not fail goes in lockstep, whatever its course. -/
theorem runConcurrent_lockstep (schedule : Schedule) {agents : List σ}
    (hsends : ∀ a ∈ agents, SendsFreely a)
    (hids : (agents.map fun a => Agent.id (Agent.send a).agent).Nodup) {outcome : Outcome α}
    (h : (runConcurrent schedule agents).answer = .ok outcome) :
    ∃ posts flags, Lockstep agents posts flags (runConcurrent schedule agents) := by
  rw [runConcurrent_of_sends schedule (sends_of_sendsFreely hsends)] at h ⊢
  dsimp only at h ⊢
  obtain ⟨answers, hanswers, rfl⟩ := map_eq_ok h
  have hlength : (agents.map fun a => (Agent.send a).agent).length = agents.length :=
    List.length_map _
  have hstepped := stepInOrder_of_ok (.start (by rwa [List.map_map]) hlength) hanswers
  refine ⟨(interleaved schedule.posts agents).pending, _,
    ⟨interleaved_perm _ _, by rw [hanswers]; rfl, ?_, ?_, fun msg hmsg => ?_, fun e he => ?_⟩⟩
  · have hend := hstepped.agents_eq_map hlength
    rwa [List.map_map] at hend
  · have hflags := hstepped.answers_eq_map hlength
    rwa [List.map_map] at hflags
  · obtain ⟨hin, hstranger⟩ := hstepped.undelivered msg hmsg
    refine ⟨hin, fun a ha => ?_⟩
    obtain ⟨i, hi, rfl⟩ := List.mem_iff_getElem.1 ha
    exact hstranger i (Schedule.mem_order.2 hi) _ (by simp [hi])
  · rcases List.mem_append.1 he with he | he
    · rcases List.mem_append.1 he with he | he
      · exact .inl (List.mem_flatMap.1 he)
      · exact .inr (.inl (mem_postEvents he))
    · obtain ⟨b, hb, he⟩ := hstepped.events_mem e he
      obtain ⟨a, ha, rfl⟩ := List.mem_map.1 hb
      exact .inr (.inr ⟨a, ha, he⟩)

/-- If every agent can step on what is posted, in whatever order, a concurrent round does not
fail. -/
theorem runConcurrent_succeeds (schedule : Schedule) {agents : List σ}
    (hsends : ∀ a ∈ agents, SendsFreely a)
    (hids : (agents.map fun a => Agent.id (Agent.send a).agent).Nodup)
    (h : ∀ posts, posts.Perm (agents.flatMap fun a => (Agent.send a).posts) → ∀ a ∈ agents,
      ∃ again, (replyTo ⟨posts⟩ (Agent.send a).agent).answer = .ok again) :
    ∃ outcome, (runConcurrent schedule agents).answer = .ok outcome := by
  rw [runConcurrent_of_sends schedule (sends_of_sendsFreely hsends)]
  have hstart : Waiting (interleaved schedule.posts agents)
      (agents.map fun a => (Agent.send a).agent) _ _
      (Schedule.order schedule.steps agents.length) :=
    .start (by rwa [List.map_map]) (List.length_map _)
  obtain ⟨answers, hanswers⟩ := stepInOrder_succeeds hstart
    (List.forall_mem_map.2 (h _ (interleaved_perm _ _)))
  refine ⟨(agents.map fun a => (Agent.send a).posts, flagsByPosition agents.length answers), ?_⟩
  simp only [hanswers]
  rfl

end Rounds

end Round

/-! ## Rounds of a solver -/

namespace Solver
variable [Agent α σ]

section Playing
variable [Scalar α] (settings : Solver.Settings α) (surroundings : Surroundings α)

theorem playRound_lockstep (round : Nat) {agents : List σ}
    (hsends : ∀ a ∈ agents, Round.SendsFreely a)
    (hids : (agents.map fun a => Agent.id (Agent.send a).agent).Nodup) {outcome : Round.Outcome α}
    (h : (playRound settings surroundings round agents).answer = .ok outcome) :
    ∃ posts flags, Round.Lockstep agents posts flags
      (playRound settings surroundings round agents) := by
  unfold playRound at h ⊢
  split
  · rw [if_pos ‹_›] at h
    exact Round.runConcurrent_lockstep _ hsends hids h
  · rw [if_neg ‹_›] at h
    exact Round.run_lockstep hsends hids h

theorem playRound_succeeds (round : Nat) {agents : List σ}
    (hsends : ∀ a ∈ agents, Round.SendsFreely a)
    (hids : (agents.map fun a => Agent.id (Agent.send a).agent).Nodup)
    (h : ∀ posts, posts.Perm (agents.flatMap fun a => (Agent.send a).posts) → ∀ a ∈ agents,
      ∃ again, (Round.replyTo ⟨posts⟩ (Agent.send a).agent).answer = .ok again) :
    ∃ outcome, (playRound settings surroundings round agents).answer = .ok outcome := by
  unfold playRound
  split
  · exact Round.runConcurrent_succeeds _ hsends hids h
  · exact Round.run_succeeds hsends hids h

/-- The agents after so many rounds. -/
def after (agents : List σ) : Nat → List σ
  | 0 => agents
  | n + 1 => (playRound settings surroundings (n + 1) (after agents n)).agents

end Playing

theorem get?_held {agents : List σ} (hids : (agents.map Agent.id).Nodup) {b t : EntityId} :
    (held agents).get? b = some t ↔ ∃ a ∈ agents, Agent.id a = b ∧ Agent.target a = some t := by
  rw [held, Assignment.get?, Assignment.ofList, SortedMap.get?_ofList (nodup_keyed hids), mem_keyed]

theorem get?_held_of_mem {agents : List σ} (hids : (agents.map Agent.id).Nodup) {a : σ}
    (ha : a ∈ agents) : (held agents).get? (Agent.id a) = Agent.target a := by
  apply Option.ext
  intro t
  rw [get?_held hids]
  constructor
  · rintro ⟨b, hb, hid, ht⟩
    rwa [← List.inj_on_of_nodup_map hids hb ha hid]
  · exact fun ht => ⟨a, ha, rfl, ht⟩

end Solver

end Dispatch
