import Mathlib
import Dispatch.MaxSum.Agent
import Dispatch.Proofs.Batches
import Dispatch.Proofs.Graph
import Dispatch.Proofs.ScalarOrder
/-!
# The Max-Sum recurrence, and what one agent contributes

`values` is synchronous Max-Sum written down once for the whole graph: in every round each edge
takes the value that its source computes from the values of the round before (`reply`), mixed with
the edge's last one. An agent knows the values of its own edges only. `Agent.Tracks` says that it
knows them rightly after some rounds, and the three phases of a round keep that up:
`Agent.send_posts`, `Agent.heard_takeAll` and `Agent.tracks_improve`.
-/

namespace Dispatch

variable {α : Type} [Scalar α]

namespace MaxSum

/-! ## The recurrence -/

/-- The gain that belongs to one of the listed nodes. -/
def gainOf (ids : List EntityId) (gains : List α) (id : EntityId) : α :=
  ((ids.zip gains).lookup id).getD Scalar.zero

/-- What the source of an edge makes of the values `v` on the edges it hears. -/
def reply (m : UtilityMatrix α) (g : FactorGraph) (v : Edge → α) : Edge → α
  | ⟨.ofAgent a, .ofTarget t⟩ =>
    let candidates := g.candidatesOf a
    gainOf candidates (choiceGains (candidates.map (m.utility a))
      (candidates.map fun s => v (.toAgent s a))) t
  | ⟨.ofTarget t, .ofAgent a⟩ =>
    let neighbours := g.neighboursOf t
    gainOf neighbours (loadGains (neighbours.map fun b => v (.toTarget b t)) (m.congestion t)) a
  | _ => Scalar.zero

/-- What each edge carries in a round: zero before the first, and no mixing in the first. -/
def values (settings : Settings α) (m : UtilityMatrix α) : Nat → Edge → α
  | 0 => fun _ => Scalar.zero
  | n + 1 => fun e =>
    let new := reply m (.build m settings.maxTargets) (values settings m n) e
    if 0 < n ∧ Scalar.zero < settings.damping then
      settings.damping * values settings m n e + (Scalar.one - settings.damping) * new
    else new

theorem values_succ (settings : Settings α) (m : UtilityMatrix α) (n : Nat) (e : Edge) :
    values settings m (n + 1) e =
      if 0 < n ∧ Scalar.zero < settings.damping then
        settings.damping * values settings m n e + (Scalar.one - settings.damping) *
          reply m (.build m settings.maxTargets) (values settings m n) e
      else reply m (.build m settings.maxTargets) (values settings m n) e := rfl

/-- The earliest of the listed candidates of highest score. -/
def EarliestBest (score : EntityId → α) (candidates : List EntityId) :
    (choice : Option EntityId) → Prop
  | none => candidates = []
  | some t => ∃ before after, candidates = before ++ t :: after ∧
    (∀ s ∈ before, score s < score t) ∧ ∀ s ∈ after, ¬ score t < score s

theorem length_choiceGains (utilities incoming : List α) :
    (choiceGains utilities incoming).length = utilities.length := by
  rw [choiceGains, List.length_mapIdx]

theorem length_loadGains (incoming : List α) (potential : Nat → α) :
    (loadGains incoming potential).length = incoming.length := by
  rw [loadGains, List.length_mapIdx]

/-- Candidates of the same scores, by other names. -/
theorem EarliestBest.map {score score' : EntityId → α} {candidates : List EntityId}
    {choice : Option EntityId} (h : EarliestBest score candidates choice)
    {rename : EntityId → EntityId} (heq : ∀ t ∈ candidates, score' (rename t) = score t) :
    EarliestBest score' (candidates.map rename) (choice.map rename) := by
  cases choice with
  | none =>
    obtain rfl : candidates = [] := h
    rfl
  | some t =>
    obtain ⟨before, after, rfl, hbefore, hafter⟩ := h
    obtain ⟨heqBefore, heqRest⟩ := List.forall_mem_append.1 heq
    obtain ⟨heqT, heqAfter⟩ := List.forall_mem_cons.1 heqRest
    refine ⟨before.map rename, after.map rename, by rw [List.map_append, List.map_cons],
      List.forall_mem_map.2 fun s hs => ?_, List.forall_mem_map.2 fun s hs => ?_⟩
    · rw [heqBefore s hs, heqT]
      exact hbefore s hs
    · rw [heqAfter s hs, heqT]
      exact hafter s hs

theorem EarliestBest.congr {score score' : EntityId → α} {candidates : List EntityId}
    {choice : Option EntityId} (h : EarliestBest score candidates choice)
    (heq : ∀ t ∈ candidates, score t = score' t) : EarliestBest score' candidates choice := by
  simpa using h.map fun t ht => (heq t ht).symm

theorem EarliestBest.mem {score : EntityId → α} {candidates : List EntityId}
    {choice : Option EntityId} (h : EarliestBest score candidates choice) :
    ∀ t ∈ choice, t ∈ candidates := by
  rintro t rfl
  obtain ⟨before, after, rfl, -⟩ := h
  exact List.mem_append_right before List.mem_cons_self

/-- No candidate is above the best one. -/
theorem EarliestBest.not_lt [OrderedScalar α] {score : EntityId → α} {candidates : List EntityId}
    {t : EntityId} (h : EarliestBest score candidates (some t)) :
    ∀ s ∈ candidates, ¬ score t < score s := by
  obtain ⟨before, after, rfl, hbefore, hafter⟩ := h
  refine List.forall_mem_append.2 ⟨fun s hs hlt => ?_,
    List.forall_mem_cons.2 ⟨OrderedScalar.lt_irrefl _, hafter⟩⟩
  exact OrderedScalar.lt_irrefl _ (OrderedScalar.lt_trans hlt (hbefore s hs))

/-- There is only one earliest best candidate. -/
theorem EarliestBest.unique {score : EntityId → α} {candidates : List EntityId}
    {choice choice' : Option EntityId}
    (h : EarliestBest score candidates choice) (h' : EarliestBest score candidates choice') :
    choice = choice' := by
  have hlater : ∀ {before after between after' : List EntityId} {t u : EntityId},
      before ++ t :: after = (before ++ between) ++ u :: after' →
      (∀ s ∈ after, ¬ score t < score s) → (∀ s ∈ before ++ between, score s < score u) →
      t = u := by
    intro before after between after' t u heq hafter hbefore
    rw [List.append_assoc, List.append_cancel_left_eq] at heq
    cases between with
    | nil => exact (List.cons.inj heq).1
    | cons v rest =>
      obtain ⟨rfl, rfl⟩ := List.cons.inj heq
      exact absurd (hbefore t (by simp)) (hafter u (by simp))
  cases choice with
  | none =>
    obtain rfl : candidates = [] := h
    cases choice' with
    | none => rfl
    | some u => obtain ⟨before, after, heq, -⟩ := h'; simp at heq
  | some t =>
    obtain ⟨before, after, rfl, hbefore, hafter⟩ := h
    cases choice' with
    | none => exact absurd h' (by simp [EarliestBest])
    | some u =>
      obtain ⟨before', after', heq, hbefore', hafter'⟩ := h'
      rcases List.append_eq_append_iff.1 heq with ⟨between, rfl, -⟩ | ⟨between, rfl, -⟩
      · rw [hlater heq hafter hbefore']
      · rw [hlater heq.symm hafter' hbefore]

/-- A scan that starts at the earliest best of what it has passed ends at that of the whole. -/
theorem earliestBest_foldl [OrderedScalar α] (score : EntityId → α) (before after : List EntityId)
    {rest : List EntityId} {best : EntityId} (hnumber : ∀ s ∈ after, Scalar.IsNumber (score s))
    (hrest : ∀ s ∈ rest, Scalar.IsNumber (score s))
    (hbefore : ∀ s ∈ before, score s < score best)
    (hafter : ∀ s ∈ after, ¬ score best < score s) :
    EarliestBest score (before ++ best :: after ++ rest)
      (some (rest.foldl (fun best t => if score best < score t then t else best) best)) := by
  induction rest generalizing before after best with
  | nil => exact ⟨before, after, List.append_nil _, hbefore, hafter⟩
  | cons t rest ih =>
    obtain ⟨ht, hrest⟩ := List.forall_mem_cons.1 hrest
    rw [List.foldl_cons]
    split
    · rename_i hlt
      -- all that came before is below the old best one, and so below the new one
      have hnew : ∀ s ∈ before ++ best :: after, score s < score t := by
        intro s hs
        rcases List.mem_append.1 hs with hs | hs
        · exact OrderedScalar.lt_trans (hbefore s hs) hlt
        · rcases List.mem_cons.1 hs with rfl | hs
          · exact hlt
          · exact (OrderedScalar.lt_or_lt (hnumber s hs) hlt).resolve_left (hafter s hs)
      have := ih (before ++ best :: after) [] (by simp) hrest hnew (by simp)
      simpa using this
    · rename_i hnlt
      have := ih before (after ++ [t])
        (List.forall_mem_append.2 ⟨hnumber, by simpa using ht⟩) hrest hbefore
        (List.forall_mem_append.2 ⟨hafter, by simpa using hnlt⟩)
      simpa using this

/-- A scan that starts at the first candidate ends at the earliest best one. -/
theorem earliestBest_scan [OrderedScalar α] {score : EntityId → α} {first : EntityId}
    {rest : List EntityId} (hrest : ∀ s ∈ rest, Scalar.IsNumber (score s)) :
    EarliestBest score (first :: rest)
      (some (rest.foldl (fun best t => if score best < score t then t else best) first)) :=
  earliestBest_foldl score [] [] (by simp) hrest (by simp) (by simp)

theorem gainOf_eq {ids : List EntityId} (hids : ids.Nodup) {gains : List α} {i : Nat}
    {id : EntityId} (hid : ids[i]? = some id) {v : α} (hv : gains[i]? = some v) :
    gainOf ids gains id = v := by
  induction ids generalizing gains i with
  | nil => cases hid
  | cons first rest ih =>
    obtain ⟨hfresh, hrest⟩ := List.nodup_cons.1 hids
    obtain _ | ⟨w, gains⟩ := gains
    · cases hv
    cases i with
    | zero =>
      cases hid
      cases hv
      simp [gainOf]
    | succ i =>
      have hne : (id == first) = false :=
        beq_false_of_ne fun e => hfresh (e ▸ List.mem_of_getElem? hid)
      rw [gainOf, List.zip_cons_cons, List.lookup_cons, hne]
      exact ih hrest hid hv

/-- Values in a row along the edges of a node are the gains of its neighbours. -/
theorem zipWith_gainOf {ids : List EntityId} (hids : ids.Nodup) {gains : List α}
    (h : gains.length = ids.length) (edge : EntityId → Edge) :
    List.zipWith (fun id v => (⟨edge id, v⟩ : EdgeValue α)) ids gains =
      ids.map fun id => ⟨edge id, gainOf ids gains id⟩ := by
  induction ids generalizing gains with
  | nil => rfl
  | cons id rest ih =>
    obtain _ | ⟨v, gains⟩ := gains
    · cases h
    obtain ⟨hfresh, hrest⟩ := List.nodup_cons.1 hids
    rw [List.zipWith_cons_cons, ih hrest (Nat.succ.inj h), List.map_cons]
    congr 1
    · simp [gainOf]
    · -- the ids further down look past the first pair
      apply List.map_congr_left
      intro b hb
      have hne : (b == id) = false := beq_false_of_ne fun e => hfresh (e ▸ hb)
      simp only [gainOf, List.zip_cons_cons, List.lookup_cons, hne]

/-! ## What an agent knows -/

namespace Agent

/-- What the agent last heard on an edge that ends in one of its nodes. -/
def heard (a : Agent α) : Edge → α
  | ⟨.ofTarget t, .ofAgent _⟩ => a.functionValue t
  | ⟨.ofAgent b, .ofTarget t⟩ => a.variableValue t b
  | _ => Scalar.zero

/-- The agent is one of a matrix, and shares its graph. -/
structure Fits (settings : Settings α) (m : UtilityMatrix α) (a : Agent α) : Prop where
  settings_eq : a.settings = settings
  matrix_eq : a.matrix = m
  graph_eq : a.graph = .build m settings.maxTargets

/-- The agent has heard these values, on all edges that end in its nodes. -/
def Hears (a : Agent α) (v : Edge → α) : Prop :=
  ∀ e ∈ a.graph.edges, a.graph.host? e.dest = some a.id → a.heard e = v e

/-- The agent remembers what it said in round `n`; there is nothing to remember before the first. -/
def Remembers (settings : Settings α) (m : UtilityMatrix α) (n : Nat) (a : Agent α) : Prop :=
  ∀ e ∈ a.graph.edgesFrom a.id,
    a.outbox.previous e = if n = 0 then none else some (values settings m n e)

/-- The agent is in step with the recurrence after `n` rounds: it has heard the values of the round
before, and its outbox holds those of the last one. -/
structure Tracks (settings : Settings α) (m : UtilityMatrix α) (n : Nat) (a : Agent α) : Prop
    extends a.Fits settings m where
  hears : a.Hears (values settings m (n - 1))
  queue_eq : a.outbox.queue =
    if n = 0 then [] else (a.graph.edgesFrom a.id).map fun e => ⟨e, values settings m n e⟩
  remembers : Remembers settings m n a
  finite : ∀ v ∈ a.outbox.queue, Scalar.isFinite v.value = true

/-! ### Sending -/

/-- The message that carries a value to the host of its destination. -/
def letter (a : Agent α) (v : EdgeValue α) : Message α :=
  ⟨a.id, (a.graph.host? v.edge.dest).getD a.id, .factor v.edge v.value⟩

/-- Values whose destinations have hosts are all posted. -/
theorem send_posts {a : Agent α}
    (h : ∀ v ∈ a.outbox.queue, ∃ b, a.graph.host? v.edge.dest = some b) :
    a.send = ⟨{ a with outbox := ⟨[], a.outbox.memory, true⟩ }, [], a.outbox.queue.map a.letter,
      .ok (a.outbox.queue.map a.letter)⟩ := by
  have haddress : ∀ v ∈ a.outbox.queue, a.address v = .inl (a.letter v) := by
    intro v hv
    obtain ⟨b, hb⟩ := h v hv
    rw [address, letter, hb]
    rfl
  have hmap : a.outbox.queue.map a.address = (a.outbox.queue.map a.letter).map .inl := by
    rw [List.map_map]
    exact List.map_congr_left haddress
  have hleft : ∀ l : List (Message α),
      (l.map (Sum.inl : _ → Message α ⊕ Event α)).filterMap Sum.getLeft? = l := by
    intro l
    rw [List.filterMap_map]
    exact List.filterMap_some
  have hright : ∀ l : List (Message α),
      (l.map (Sum.inl : _ → Message α ⊕ Event α)).filterMap Sum.getRight? = [] := by
    intro l
    rw [List.filterMap_map]
    exact List.filterMap_none l
  simp only [send, Outbox.flush, hmap, hleft, hright]

/-! ### Receiving -/

/-- A value for a hosted node is what the agent has then heard on its edge, and only there. -/
theorem take_of_hosted {a : Agent α} {m : Message α} {e : Edge} {v : α}
    (hm : m.payload = .factor e v) (he : e.Joins)
    (hhost : a.graph.host? e.dest = some a.id) :
    (a.take m).2 = [] ∧
      (∃ x y, (a.take m).1 = { a with fromFunctions := x, toFunctions := y }) ∧
      ∀ f, f.Joins → a.graph.host? f.dest = some a.id →
        (a.take m).1.heard f = if f = e then v else a.heard f := by
  obtain ⟨b, t, rfl | rfl⟩ := he
  · have howner : a.graph.owner? t = some a.id := hhost
    have htake : a.take m = ({ a with toFunctions := a.toFunctions.insert (t, b) v }, []) := by
      simp only [take, hm, Edge.toTarget, howner, if_true]
    rw [htake]
    refine ⟨rfl, ⟨_, _, rfl⟩, ?_⟩
    -- edges of the other kind are kept in the other map
    rintro f ⟨c, s, rfl | rfl⟩ -
    · show SortedMap.getD _ _ _ = if _ then v else SortedMap.getD _ _ _
      simp only [SortedMap.getD, SortedMap.get?_insert, rank_eq_iff, Prod.mk.injEq,
        Edge.toTarget_inj]
      by_cases h : t = s ∧ b = c
      · rw [if_pos h, if_pos ⟨h.2.symm, h.1.symm⟩, Option.getD_some]
      · rw [if_neg h, if_neg fun h' => h ⟨h'.2.symm, h'.1.symm⟩]
    · rw [if_neg Edge.toAgent_ne_toTarget]
      rfl
  · obtain rfl : b = a.id := Option.some.inj hhost
    have htake : a.take m = ({ a with fromFunctions := a.fromFunctions.insert t v }, []) := by
      simp only [take, hm, Edge.toAgent, if_true]
    rw [htake]
    refine ⟨rfl, ⟨_, _, rfl⟩, ?_⟩
    rintro f ⟨c, s, rfl | rfl⟩ hf
    · rw [if_neg Edge.toTarget_ne_toAgent]
      rfl
    · obtain rfl : c = a.id := Option.some.inj hf
      show SortedMap.getD _ _ _ = if _ then v else SortedMap.getD _ _ _
      simp only [SortedMap.getD, SortedMap.get?_insert, rank_eq_iff, Edge.toAgent_inj, and_true]
      by_cases h : t = s
      · rw [if_pos h, if_pos h.symm, Option.getD_some]
      · rw [if_neg h, if_neg (Ne.symm h)]

/-- Values for hosted nodes all count, and nothing else changes. -/
theorem heard_takeAll {a : Agent α} {view : Edge → α} {inbox : List (Message α)}
    (h : ∀ m ∈ inbox, ∃ e, m.payload = .factor e (view e) ∧ e.Joins ∧
      a.graph.host? e.dest = some a.id) :
    (a.takeAll inbox).2 = [] ∧
      (∃ x y, (a.takeAll inbox).1 = { a with fromFunctions := x, toFunctions := y }) ∧
      ∀ f, f.Joins → a.graph.host? f.dest = some a.id →
        ((∃ m ∈ inbox, m.payload = .factor f (view f)) → (a.takeAll inbox).1.heard f = view f) ∧
        ((∀ m ∈ inbox, m.payload ≠ .factor f (view f)) →
          (a.takeAll inbox).1.heard f = a.heard f) := by
  induction inbox generalizing a with
  | nil => exact ⟨rfl, ⟨_, _, rfl⟩, fun f _ _ => ⟨by simp, fun _ => rfl⟩⟩
  | cons m rest ih =>
    obtain ⟨⟨e, hm, he, hhost⟩, hrest⟩ := List.forall_mem_cons.1 h
    obtain ⟨hnotes, ⟨x, y, hframe⟩, hheard⟩ := take_of_hosted hm he hhost
    have hnext := ih (a := (a.take m).1) (by rw [hframe]; exact hrest)
    rw [hframe] at hnext hheard
    obtain ⟨hmore, ⟨x', y', hlast⟩, hall⟩ := hnext
    simp only [takeAll, hnotes, hframe, hmore, List.nil_append, true_and]
    refine ⟨⟨x', y', hlast⟩, fun f hf hto => ⟨fun hin => ?_, fun hout => ?_⟩⟩
    · -- a later message on the same edge would overwrite it, with the same value
      by_cases hlater : ∃ m ∈ rest, m.payload = .factor f (view f)
      · exact (hall f hf hto).1 hlater
      · have hnever : ∀ m ∈ rest, m.payload ≠ .factor f (view f) :=
          fun m' hm' heq => hlater ⟨m', hm', heq⟩
        obtain ⟨m', hm', heq⟩ := hin
        rcases List.mem_cons.1 hm' with rfl | hm'
        · obtain ⟨rfl, -⟩ := Payload.factor.inj (hm.symm.trans heq)
          rw [(hall e hf hto).2 hnever, hheard e hf hto, if_pos rfl]
        · exact absurd heq (hnever m' hm')
    · have hne : f ≠ e := by
        rintro rfl
        exact hout m List.mem_cons_self hm
      rw [(hall f hf hto).2 fun m' hm' => hout m' (List.mem_cons_of_mem _ hm'),
        hheard f hf hto, if_neg hne]

/-! ### Improving -/

/-- Values that are all queued are finite, and remembered in order. -/
theorem emit_ok {o : Outbox α} {vs : List (EdgeValue α)} (h : (emit o vs).answer = .ok ()) :
    (∀ v ∈ vs, Scalar.isFinite v.value = true) ∧
      (emit o vs).notes = vs.map (fun v => .emitted v.edge v.value) ∧
      (emit o vs).agent.queue = o.queue ++ vs ∧
      (emit o vs).agent.memory = vs.foldl (fun k v => k.insert v.edge v.value) o.memory := by
  induction vs generalizing o with
  | nil => simp [emit]
  | cons v rest ih =>
    rcases o.send_cases v.edge v.value with ⟨hv, hsend⟩ | ⟨-, hsend⟩
    · simp only [emit, hsend] at h ⊢
      obtain ⟨hfinite, hnotes, hqueue, hmemory⟩ := ih h
      refine ⟨List.forall_mem_cons.2 ⟨hv, hfinite⟩, ?_, ?_, hmemory⟩
      · rw [hnotes, Outbox.sendEvents, if_pos hv]
        rfl
      · rw [hqueue, List.append_assoc, List.singleton_append]
    · simp only [emit, hsend] at h
      cases h

theorem runUpdates_ok {a : Agent α} {us : List (NodeUpdate α)}
    (h : (a.runUpdates us).answer = .ok ()) :
    let vs := us.flatMap (·.values)
    (∀ v ∈ vs, Scalar.isFinite v.value = true) ∧
      (a.runUpdates us).notes = vs.map (fun v => .emitted v.edge v.value) ∧
      ∃ o checks, (a.runUpdates us).agent = { a with outbox := o, checks } ∧
        o.queue = a.outbox.queue ++ vs ∧
        o.memory = vs.foldl (fun k v => k.insert v.edge v.value) a.outbox.memory := by
  induction us generalizing a with
  | nil => exact ⟨by simp, rfl, _, _, rfl, by simp, rfl⟩
  | cons u rest ih =>
    simp only [runUpdates] at h ⊢
    cases hanswer : (emit a.outbox u.values).answer with
    | error e =>
      rw [hanswer] at h
      cases h
    | ok _ =>
      rw [hanswer] at h
      obtain ⟨hfinite, hnotes, hqueue, hmemory⟩ := emit_ok hanswer
      obtain ⟨hfinite', hnotes', o, checks, hagent, hqueue', hmemory'⟩ := ih h
      refine ⟨?_, ?_, o, checks, hagent, ?_, ?_⟩
      · rw [List.flatMap_cons]
        exact List.forall_mem_append.2 ⟨hfinite, hfinite'⟩
      · rw [hnotes, hnotes', List.flatMap_cons, List.map_append]
      · rw [hqueue', hqueue, List.flatMap_cons, List.append_assoc]
      · rw [hmemory', hmemory, List.flatMap_cons, List.foldl_append]

theorem earliestBest_favourite [OrderedScalar α] (a : Agent α)
    (h : ∀ t ∈ a.candidates, Scalar.IsNumber (a.belief t)) :
    EarliestBest a.belief a.candidates a.favourite := by
  unfold favourite
  cases hcandidates : a.candidates with
  | nil => rfl
  | cons first rest =>
    have hrest := (List.forall_mem_cons.1 (hcandidates ▸ h)).2
    exact earliestBest_scan hrest

/-- Before damping, the agent says along its edges what the recurrence has it say. -/
theorem Fits.gains_eq {settings : Settings α} {m : UtilityMatrix α} {a : Agent α}
    (h : a.Fits settings m) {v : Edge → α} (hheard : a.Hears v) :
    a.variableGains ++ a.owned.flatMap a.functionGains =
      (a.graph.edgesFrom a.id).map fun e => ⟨e, reply m a.graph v e⟩ := by
  unfold Hears at hheard
  rw [h.graph_eq] at hheard
  rw [FactorGraph.edgesFrom, List.map_append, List.map_map, List.map_flatMap]
  congr 1
  · have hincoming : a.candidates.map a.functionValue =
        a.candidates.map fun s => v (.toAgent s a.id) := by
      apply List.map_congr_left
      intro s hs
      rw [candidates, h.graph_eq] at hs
      exact hheard (.toAgent s a.id) (FactorGraph.toAgent_mem_edges.2 hs) rfl
    have hnodup : a.candidates.Nodup := by
      rw [candidates, h.graph_eq]
      exact FactorGraph.nodup_candidatesOf a.id
    rw [variableGains, hincoming, h.matrix_eq]
    exact zipWith_gainOf hnodup (by rw [length_choiceGains, List.length_map]) (.toTarget a.id)
  · apply List.flatMap_congr
    intro t ht
    rw [owned, h.graph_eq, FactorGraph.mem_hostedBy] at ht
    have hincoming : (a.graph.neighboursOf t).map (a.variableValue t) =
        (a.graph.neighboursOf t).map fun b => v (.toTarget b t) := by
      apply List.map_congr_left
      intro b hb
      rw [h.graph_eq] at hb
      exact hheard (.toTarget b t)
        (FactorGraph.toTarget_mem_edges.2 (FactorGraph.mem_neighboursOf.1 hb)) ht
    have hnodup : (a.graph.neighboursOf t).Nodup := by
      rw [h.graph_eq]
      exact FactorGraph.nodup_neighboursOf t
    rw [functionGains, hincoming, h.matrix_eq, List.map_map]
    exact zipWith_gainOf hnodup (by rw [length_loadGains, List.length_map]) (.toAgent t)

/-- An agent that has heard the values of a round says those of the next one. -/
theorem Fits.updates_eq {settings : Settings α} {m : UtilityMatrix α} {n : Nat} {a : Agent α}
    (h : a.Fits settings m)
    (hheard : a.Hears (values settings m n))
    (hprevious : Remembers settings m n a) :
    a.updates.flatMap (·.values) =
      (a.graph.edgesFrom a.id).map fun e => ⟨e, values settings m (n + 1) e⟩ := by
  have hvalues : a.updates.flatMap (·.values) =
      (a.variableGains ++ a.owned.flatMap a.functionGains).map a.damp := by
    rw [updates, List.flatMap_cons, List.flatMap_map, List.map_append, List.map_flatMap]
  rw [hvalues, h.gains_eq hheard, List.map_map]
  apply List.map_congr_left
  intro e he
  rw [Function.comp_apply, damp, hprevious e he, values, h.settings_eq, h.graph_eq]
  rcases n with _ | n
  · simp
  · by_cases hdamping : Scalar.zero < settings.damping <;> simp [hdamping]

theorem improve_of_ok {a : Agent α} {again : Bool} (h : a.improve.answer = .ok again) :
    (a.runUpdates a.updates).answer = .ok () ∧
      a.improve.agent = { (a.runUpdates a.updates).agent with
        target := (a.runUpdates a.updates).agent.favourite } ∧
      ∀ note ∈ a.improve.notes,
        note ∈ (a.runUpdates a.updates).notes ∨ ∃ t, note = .prefers a.id t := by
  rw [improve] at h ⊢
  cases hanswer : (a.runUpdates a.updates).answer with
  | error e =>
    rw [hanswer] at h
    cases h
  | ok _ =>
    simp only [true_and]
    intro note hnote
    rcases List.mem_append.1 hnote with hnote | hnote
    · exact .inl hnote
    · split at hnote
      · exact .inr ⟨_, List.mem_singleton.1 hnote⟩
      · cases hnote

theorem emit_succeeds {o : Outbox α} {vs : List (EdgeValue α)}
    (h : ∀ v ∈ vs, Scalar.isFinite v.value = true) : (emit o vs).answer = .ok () := by
  induction vs generalizing o with
  | nil => rfl
  | cons v rest ih =>
    obtain ⟨hv, hrest⟩ := List.forall_mem_cons.1 h
    rcases o.send_cases v.edge v.value with ⟨-, hsend⟩ | ⟨hrefused, -⟩
    · simp only [emit, hsend]
      exact ih hrest
    · cases hv.symm.trans hrefused

theorem runUpdates_succeeds {a : Agent α} {us : List (NodeUpdate α)}
    (h : ∀ u ∈ us, ∀ v ∈ u.values, Scalar.isFinite v.value = true) :
    (a.runUpdates us).answer = .ok () := by
  induction us generalizing a with
  | nil => rfl
  | cons u rest ih =>
    obtain ⟨hu, hrest⟩ := List.forall_mem_cons.1 h
    simp only [runUpdates, emit_succeeds hu]
    exact ih hrest

/-- An agent whose values are all finite does not fail. -/
theorem improve_succeeds {a : Agent α}
    (h : ∀ v ∈ a.updates.flatMap (·.values), Scalar.isFinite v.value = true) :
    ∃ again, a.improve.answer = .ok again := by
  have hupdates : (a.runUpdates a.updates).answer = .ok () :=
    runUpdates_succeeds fun u hu v hv => h v (List.mem_flatMap.2 ⟨u, hu, hv⟩)
  simp only [improve, hupdates]
  exact ⟨_, rfl⟩

theorem Fits.toAgent_mem_edges {settings : Settings α} {m : UtilityMatrix α} {a : Agent α}
    (h : a.Fits settings m) {t : EntityId} (ht : t ∈ a.candidates) :
    .toAgent t a.id ∈ a.graph.edges := by
  rw [candidates, h.graph_eq] at ht
  rw [h.graph_eq]
  exact FactorGraph.toAgent_mem_edges.2 ht

theorem Fits.belief_eq {settings : Settings α} {m : UtilityMatrix α} {a : Agent α}
    (h : a.Fits settings m) {v : Edge → α}
    (hheard : a.Hears v) {t : EntityId} (ht : t ∈ a.candidates) :
    a.belief t = m.utility a.id t + v (.toAgent t a.id) := by
  rw [belief, h.matrix_eq, ← hheard _ (h.toAgent_mem_edges ht) rfl]
  rfl

/-- An agent that has heard the values of a round prefers by them. -/
theorem Fits.earliestBest [OrderedScalar α] {settings : Settings α} {m : UtilityMatrix α}
    {a : Agent α} (h : a.Fits settings m) {v : Edge → α}
    (hheard : a.Hears v)
    (hfinite : ∀ e ∈ a.graph.edges, Scalar.isFinite (v e) = true) :
    EarliestBest (fun t => m.utility a.id t + v (.toAgent t a.id)) (a.graph.candidatesOf a.id)
      a.favourite := by
  refine (a.earliestBest_favourite fun t ht => ?_).congr fun t ht => h.belief_eq hheard ht
  rw [h.belief_eq hheard ht]
  exact OrderedScalar.isNumber_add (m.isFinite_utility a.id t)
    (hfinite _ (h.toAgent_mem_edges ht))

/-- What improving does to an agent that has heard the values of a round. -/
theorem tracks_improve [OrderedScalar α] {settings : Settings α} {m : UtilityMatrix α} {n : Nat}
    {a : Agent α} (h : a.Fits settings m)
    (hheard : a.Hears (values settings m n))
    (hprevious : Remembers settings m n a)
    (hempty : a.outbox.queue = [])
    (hfinite : ∀ e ∈ a.graph.edges, Scalar.isFinite (values settings m n e) = true)
    {again : Bool} (hok : a.improve.answer = .ok again) :
    a.improve.agent.id = a.id ∧ Tracks settings m (n + 1) a.improve.agent ∧
      EarliestBest (fun t => m.utility a.id t + values settings m n (.toAgent t a.id))
        (a.graph.candidatesOf a.id) a.improve.agent.target ∧
      ∀ note ∈ a.improve.notes, note.level = .trace := by
  obtain ⟨hanswer, himprove, hnote⟩ := improve_of_ok hok
  obtain ⟨hall, hnotes, o, checks, hagent, hqueue, hmemory⟩ := runUpdates_ok hanswer
  rw [h.updates_eq hheard hprevious] at hall hnotes hqueue hmemory
  rw [hempty, List.nil_append] at hqueue
  rw [hagent] at himprove
  have hmemory_eq : ∀ e, o.previous e = if e ∈ a.graph.edgesFrom a.id then
      some (values settings m (n + 1) e) else a.outbox.previous e := by
    intro e
    rw [Outbox.previous, Outbox.previous, hmemory, List.foldl_map]
    simpa using SortedMap.get?_foldl_insert_view (fun e => e) (values settings m (n + 1))
      (a.graph.edgesFrom a.id) a.outbox.memory e
  have htracks : Tracks settings m (n + 1) a.improve.agent := by
    rw [himprove]
    refine ⟨⟨h.settings_eq, h.matrix_eq, h.graph_eq⟩, hheard, ?_, fun e he => ?_, ?_⟩
    · rw [if_neg n.succ_ne_zero]
      exact hqueue
    · rw [if_neg n.succ_ne_zero]
      exact (hmemory_eq e).trans (if_pos he)
    · intro v hv
      exact hall v (hqueue ▸ hv)
  refine ⟨by rw [himprove], htracks, ?_, fun note hin => ?_⟩
  · rw [himprove]
    exact Fits.earliestBest (a := { a with outbox := o, checks })
      ⟨h.settings_eq, h.matrix_eq, h.graph_eq⟩ hheard hfinite
  · rcases hnote note hin with hin | ⟨t, rfl⟩
    · rw [hnotes] at hin
      obtain ⟨v, -, rfl⟩ := List.mem_map.1 hin
      rfl
    · rfl

end Agent

end MaxSum

end Dispatch
