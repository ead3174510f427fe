import Mathlib
import Dispatch.Proofs.Honesty
import Dispatch.Proofs.Trace
/-!
# Schedules do not matter

Honest agents cannot tell the courses of a concurrent round apart: a round that succeeds under
one schedule comes to the same under every other, and in turn
(`Round.runConcurrent_endsWith_iff`). So do whole solves that watch no clock, up to the time they
take. `Solver.schedules_do_not_matter` says both of the built-in algorithms.
-/

namespace Dispatch

variable {α σ : Type}

namespace Round

/-! ## Replies to one mailbox -/

section Replies
variable [Agent α σ]

/-- What the agents answer, and what becomes of them, if all step on the same mailbox. -/
structure Replies (box : Mailbox α) (agents : List σ) (flags : List Bool) (next : List σ) :
    Prop where
  answers_eq : agents.map (fun a => (replyTo box a).answer) = flags.map .ok
  agents_eq : next = agents.map fun a => (replyTo box a).agent

theorem Replies.exists_answer {box : Mailbox α} {agents next : List σ} {flags : List Bool}
    (h : Replies box agents flags next) :
    ∀ a ∈ agents, ∃ again, (replyTo box a).answer = .ok again := by
  intro a ha
  have hin : (replyTo box a).answer ∈ flags.map .ok := h.answers_eq ▸ List.mem_map.2 ⟨a, ha, rfl⟩
  obtain ⟨again, -, hagain⟩ := List.mem_map.1 hin
  exact ⟨again, hagain.symm⟩

/-- Nothing but the agents' own mail counts. -/
theorem Replies.congr {box other : Mailbox α} {agents next : List σ} {flags : List Bool}
    (hinbox : ∀ id, box.inbox id = other.inbox id) (h : Replies box agents flags next) :
    Replies other agents flags next := by
  have hreply : replyTo (σ := σ) box = replyTo other := by
    funext a
    rw [replyTo, replyTo, hinbox]
  exact ⟨hreply ▸ h.answers_eq, hreply ▸ h.agents_eq⟩

theorem flags_unique {flags others : List Bool}
    (h : flags.map (Except.ok : Bool → Except (Error α) Bool) = others.map .ok) :
    flags = others :=
  List.map_injective_iff.2 (fun _ _ => Except.ok.inj) h

/-- Agents that step in turn come to their replies. -/
theorem stepAll_endsWith_iff {box : Mailbox α} {agents next : List σ} {flags : List Bool}
    (hids : (agents.map Agent.id).Nodup) :
    (stepAll box agents).EndsWith flags next ↔ Replies box agents flags next := by
  constructor
  · rintro ⟨hanswer, rfl⟩
    obtain ⟨hrun, hflags⟩ := stepAll_of_ok hids (fun _ _ => rfl) hanswer
    exact ⟨hflags, by rw [hrun]⟩
  · intro h
    obtain ⟨others, hothers⟩ := stepAll_succeeds box box agents hids (fun _ _ => rfl)
      h.exists_answer
    obtain ⟨hrun, hflags⟩ := stepAll_of_ok hids (fun _ _ => rfl) hothers
    obtain rfl := flags_unique (hflags.symm.trans h.answers_eq)
    exact ⟨hothers, by rw [hrun, h.agents_eq]⟩

/-- So do agents that step in any order. -/
theorem stepInOrder_endsWith_iff {box : Mailbox α} {agents next : List σ} {flags : List Bool}
    (hids : (agents.map Agent.id).Nodup) {n : Nat} (hn : agents.length = n) (picks : List Nat) :
    (∃ answers, flagsByPosition n answers = flags ∧
      (stepInOrder box agents (Schedule.order picks n)).EndsWith answers next) ↔
        Replies box agents flags next := by
  have hstart : Waiting box agents box agents (Schedule.order picks n) := .start hids hn
  constructor
  · rintro ⟨answers, rfl, hanswers, rfl⟩
    have hstepped := stepInOrder_of_ok hstart hanswers
    exact ⟨hstepped.answers_eq_map hn, hstepped.agents_eq_map hn⟩
  · intro h
    obtain ⟨answers, hanswers⟩ := stepInOrder_succeeds hstart h.exists_answer
    have hstepped := stepInOrder_of_ok hstart hanswers
    refine ⟨answers, flags_unique ((hstepped.answers_eq_map hn).symm.trans h.answers_eq), hanswers,
      ?_⟩
    rw [hstepped.agents_eq_map hn, h.agents_eq]

end Replies

/-! ## Rounds -/

section Rounds
variable [Scalar α] [Agent α σ]

/-- A round in which nothing fails: all agents send, and all step on the posts in the mailbox. -/
structure Completes (agents : List σ) (box : Mailbox α) (outcome : Outcome α) (next : List σ) :
    Prop where
  sends : Sends agents outcome.1
  replies : Replies box (agents.map fun a => (Agent.send a).agent) outcome.2 next

theorem sends_of_run {agents : List σ} {outcome : Outcome α}
    (h : (run agents).answer = .ok outcome) : Sends agents outcome.1 := by
  unfold run at h
  dsimp only at h
  split at h
  · cases h
  · rename_i messages hsent
    obtain ⟨flags, -, rfl⟩ := map_eq_ok h
    exact sends_of_sendAll hsent

theorem sends_of_runConcurrent {schedule : Schedule} {agents : List σ} {outcome : Outcome α}
    (h : (runConcurrent schedule agents).answer = .ok outcome) : Sends agents outcome.1 := by
  unfold runConcurrent at h
  dsimp only at h
  split at h
  · cases h
  · rename_i messages hsent
    obtain ⟨answers, -, rfl⟩ := map_eq_ok h
    exact sends_of_sendInterleaved hsent

section Distinct
variable {agents next : List σ} {outcome : Outcome α}
  (hids : (agents.map fun a => Agent.id (Agent.send a).agent).Nodup)
include hids

theorem run_endsWith_iff_completes :
    (run agents).EndsWith outcome next ↔ Completes agents (posted agents) outcome next := by
  have hsteps (flags : List Bool) :
      (stepAll (posted agents) (agents.map fun a => (Agent.send a).agent)).EndsWith flags next ↔
        Replies (posted agents) (agents.map fun a => (Agent.send a).agent) flags next :=
    stepAll_endsWith_iff (by rwa [List.map_map])
  constructor
  · rintro ⟨hanswer, hagents⟩
    have hsends := sends_of_run hanswer
    rw [run_of_sends hsends] at hanswer hagents
    obtain ⟨flags, hflags, houtcome⟩ := map_eq_ok hanswer
    exact ⟨hsends, (hsteps _).1 ⟨hflags.trans (by rw [← houtcome]), hagents⟩⟩
  · rintro ⟨hsends, hreplies⟩
    obtain ⟨hflags, hagents⟩ := (hsteps _).2 hreplies
    rw [run_of_sends hsends]
    exact ⟨by simp only [hflags, Except.map], hagents⟩

theorem runConcurrent_endsWith_iff_completes (schedule : Schedule) :
    (runConcurrent schedule agents).EndsWith outcome next ↔
      Completes agents (interleaved schedule.posts agents) outcome next := by
  have hsteps (flags : List Bool) :
      (∃ answers, flagsByPosition agents.length answers = flags ∧
        (stepInOrder (interleaved schedule.posts agents)
          (agents.map fun a => (Agent.send a).agent)
          (Schedule.order schedule.steps agents.length)).EndsWith answers next) ↔
        Replies (interleaved schedule.posts agents) (agents.map fun a => (Agent.send a).agent)
          flags next :=
    stepInOrder_endsWith_iff (by rwa [List.map_map]) (List.length_map _) schedule.steps
  constructor
  · rintro ⟨hanswer, hagents⟩
    have hsends := sends_of_runConcurrent hanswer
    rw [runConcurrent_of_sends schedule hsends] at hanswer hagents
    obtain ⟨answers, hanswers, houtcome⟩ := map_eq_ok hanswer
    exact ⟨hsends, (hsteps _).1 ⟨answers, by rw [← houtcome], hanswers, hagents⟩⟩
  · rintro ⟨hsends, hreplies⟩
    obtain ⟨answers, hflags, hanswers, hagents⟩ := (hsteps _).2 hreplies
    rw [runConcurrent_of_sends schedule hsends]
    exact ⟨by simp only [hanswers, Except.map, hflags], hagents⟩

end Distinct

/-! ## Honest agents -/

variable [Agent.Honest σ]

omit [Scalar α] in
/-- Honest agents find the same mail whatever the interleaving of their posts. -/
theorem inbox_interleaved (picks : List Nat) {agents : List σ}
    (hids : (agents.map Agent.id).Nodup) (id : EntityId) :
    (interleaved picks agents).inbox id = (posted agents).inbox id := by
  refine sortBy_eq_of_filter_eq fun k => ?_
  rw [List.filter_comm, List.filter_comm _ _ (posted agents).pending]
  congr 1
  have hposted : (posted agents).pending = (agents.map fun a => (Agent.send a).posts).flatten :=
    List.flatMap_def
  rw [hposted]
  refine (Schedule.interleaves_interleave _ _).filter_eq ?_ k
  -- whoever posts signs with its own identifier
  rw [List.pairwise_map]
  refine (List.pairwise_map.1 hids).imp fun {a b} hne x hx y hy => ?_
  rw [Agent.Honest.sender_eq a x hx, Agent.Honest.sender_eq b y hy]
  exact fun h => hne (EntityId.toNat_inj.1 h)

/-- A concurrent round of honest agents comes to the same as the round in turn, whatever its
course. -/
theorem runConcurrent_endsWith_iff (schedule : Schedule) {agents next : List σ}
    {outcome : Outcome α} (hids : (agents.map Agent.id).Nodup) :
    (runConcurrent schedule agents).EndsWith outcome next ↔
      (run agents).EndsWith outcome next := by
  have hsent : (agents.map fun a => Agent.id (Agent.send a).agent).Nodup := by
    simpa only [Agent.Honest.id_send] using hids
  have hinbox := inbox_interleaved schedule.posts hids
  rw [runConcurrent_endsWith_iff_completes hsent, run_endsWith_iff_completes hsent]
  constructor
  · rintro ⟨hsends, hreplies⟩
    exact ⟨hsends, hreplies.congr hinbox⟩
  · rintro ⟨hsends, hreplies⟩
    exact ⟨hsends, hreplies.congr fun id => (hinbox id).symm⟩

end Rounds

end Round

/-! ## Solves -/

/-- Everything but the time it took. -/
def Stats.untimed [Scalar α] (s : Stats α) : Stats α := { s with elapsedMs := Scalar.zero }

def Solution.untimed [Scalar α] (s : Solution α) : Solution α := { s with stats := s.stats.untimed }

namespace Solver
variable [Scalar α]

section Courses
variable {τ : Type} [Agent α σ] [Agent α τ] {settings other : Settings α}
  {surroundings others : Surroundings α} {m m' : UtilityMatrix α}

/-- A course without a time budget can be followed wherever each of its rounds can. `P` holds two
populations together as long as the course goes on, `E` says what is left of that at its end, and
what the rounds make of the records holds of all of them. -/
theorem Plays.follow_while (stop : Nat) {P : Nat → List σ → List τ → Prop}
    {E : List σ → List τ → Prop} {Q : RoundRecord α → RoundRecord α → Prop}
    (hround : ∀ n agents agents' outcome next, n < stop → P n agents agents' →
      (playRound settings surroundings n agents).EndsWith outcome next →
        ∃ outcome' next', (playRound other others n agents').EndsWith outcome' next' ∧
          (true ∈ outcome.2 → P (n + 1) next next') ∧ E next next' ∧
          Q (summarise m agents next outcome) (summarise m' agents' next' outcome'))
    (hend : ∀ n agents agents', P n agents agents' → E agents agents')
    (hrestless : ∀ r r', Q r r' → r'.restless = r.restless)
    (hbudget : settings.timeBudgetMs = none) (hother : other.timeBudgetMs = none)
    {round remaining : Nat} {agents last : List σ} {termination : Termination}
    {records : List (RoundRecord α)}
    (h : Plays settings surroundings m round agents remaining records termination last)
    (hstop : round + remaining ≤ stop) {agents' : List τ} (hagents : P round agents agents') :
    ∃ records' last', Plays other others m' round agents' remaining records' termination last' ∧
      List.Forall₂ Q records records' ∧ E last last' := by
  have hnever : ∀ n, outOfTime other others n = none := by simp [outOfTime, hother]
  induction h generalizing agents' with
  | limit => exact ⟨_, _, .limit, .nil, hend _ _ _ hagents⟩
  | late htime => simp [outOfTime, hbudget] at htime
  | quiet _ hplayed hquiet =>
    obtain ⟨outcome', next', hplayed', -, hlast, hrecord⟩ :=
      hround _ _ _ _ _ (by omega) hagents hplayed
    have hsame := hrestless _ _ hrecord
    rw [Bool.eq_iff_iff, restless_summarise, restless_summarise] at hsame
    exact ⟨_, _, .quiet (hnever _) hplayed' (mt hsame.1 hquiet), .cons hrecord .nil, hlast⟩
  | again _ hplayed hagain _ ih =>
    obtain ⟨outcome', next', hplayed', hnext, -, hrecord⟩ :=
      hround _ _ _ _ _ (by omega) hagents hplayed
    have hsame := hrestless _ _ hrecord
    rw [Bool.eq_iff_iff, restless_summarise, restless_summarise] at hsame
    obtain ⟨records', last', hrest, hrecords, hlast⟩ := ih (by omega) (hnext hagain)
    exact ⟨_, _, .again (hnever _) hplayed' (hsame.2 hagain) hrest, .cons hrecord hrecords, hlast⟩

/-- What holds two populations together from round to round also holds at the end. -/
theorem Plays.follow {P : List σ → List τ → Prop} {Q : RoundRecord α → RoundRecord α → Prop}
    (hround : ∀ n agents agents' outcome next, P agents agents' →
      (playRound settings surroundings n agents).EndsWith outcome next →
        ∃ outcome' next', (playRound other others n agents').EndsWith outcome' next' ∧
          P next next' ∧ Q (summarise m agents next outcome) (summarise m' agents' next' outcome'))
    (hrestless : ∀ r r', Q r r' → r'.restless = r.restless)
    (hbudget : settings.timeBudgetMs = none) (hother : other.timeBudgetMs = none)
    {round remaining : Nat} {agents last : List σ} {termination : Termination}
    {records : List (RoundRecord α)}
    (h : Plays settings surroundings m round agents remaining records termination last)
    {agents' : List τ} (hagents : P agents agents') :
    ∃ records' last', Plays other others m' round agents' remaining records' termination last' ∧
      List.Forall₂ Q records records' ∧ P last last' := by
  refine h.follow_while (round + remaining) (P := fun _ => P)
    (fun n agents agents' outcome next _ hagents hplayed => ?_) (fun _ _ _ hagents => hagents)
    hrestless hbudget hother le_rfl hagents
  obtain ⟨outcome', next', hplayed', hnext, hrecord⟩ := hround _ _ _ _ _ hagents hplayed
  exact ⟨outcome', next', hplayed', fun _ => hnext, hnext, hrecord⟩

/-- A population can play its course wherever it can play each of its rounds. -/
theorem Plays.transfer {P : List σ → Prop} {round remaining : Nat} {agents last : List σ}
    {termination : Termination} {records : List (RoundRecord α)}
    (h : Plays settings surroundings m round agents remaining records termination last)
    (hagents : P agents)
    (hround : ∀ n agents outcome next, P agents →
      (playRound settings surroundings n agents).EndsWith outcome next →
        (playRound other others n agents).EndsWith outcome next ∧ P next)
    (hbudget : settings.timeBudgetMs = none) (hother : other.timeBudgetMs = none) :
    Plays other others m round agents remaining records termination last := by
  have hround' : ∀ n agents agents' outcome next, agents = agents' ∧ P agents →
      (playRound settings surroundings n agents).EndsWith outcome next →
        ∃ outcome' next', (playRound other others n agents').EndsWith outcome' next' ∧
          (next = next' ∧ P next) ∧
          summarise m agents next outcome = summarise m agents' next' outcome' := by
    rintro n agents _ outcome next ⟨rfl, hagents⟩ hplayed
    obtain ⟨hplayed', hnext⟩ := hround _ _ _ _ hagents hplayed
    exact ⟨outcome, next, hplayed', ⟨rfl, hnext⟩, rfl⟩
  obtain ⟨records', last', hplays, hrecords, rfl, -⟩ :=
    h.follow hround' (fun r r' h => h ▸ rfl) hbudget hother ⟨rfl, hagents⟩
  rw [List.forall₂_eq_eq_eq] at hrecords
  exact hrecords ▸ hplays

theorem playRound_endsWith_iff [Agent.Honest σ] {n : Nat} {agents next : List σ}
    {outcome : Round.Outcome α} (hids : (agents.map Agent.id).Nodup) :
    (playRound settings surroundings n agents).EndsWith outcome next ↔
      (Round.run agents).EndsWith outcome next := by
  unfold playRound
  split
  · exact Round.runConcurrent_endsWith_iff _ hids
  · exact Iff.rfl

/-- Honest agents follow one course, whether their rounds run concurrently or in turn. -/
theorem Plays.of_honest [Agent.Honest σ] {round remaining : Nat} {agents last : List σ}
    {termination : Termination} {records : List (RoundRecord α)}
    (h : Plays settings surroundings m round agents remaining records termination last)
    (hids : (agents.map Agent.id).Nodup) (hbudget : settings.timeBudgetMs = none)
    (hother : other.timeBudgetMs = none) :
    Plays other others m round agents remaining records termination last := by
  refine h.transfer (P := fun agents => (agents.map Agent.id).Nodup) hids
    (fun n agents outcome next hids hplayed => ?_) hbudget hother
  have hrun := (playRound_endsWith_iff hids).1 hplayed
  refine ⟨(playRound_endsWith_iff hids).2 hrun, ?_⟩
  rwa [← hrun.2, (Round.evolved_run (.refl agents)).ids_eq]

end Courses

/-- Honest agents solve a problem alike, whether their rounds run concurrently or in turn. -/
theorem solve_of_honest [Agent α σ] [Agent.Honest σ] {factory : Factory α σ}
    {settings : Settings α} {oracle : Option (Oracle α)} {inst : Instance}
    (hbudget : settings.timeBudgetMs = none) (p q : Bool) (surroundings others : Surroundings α)
    {solution : Solution α}
    (h : (solve factory { settings with parallel := p } oracle surroundings inst).answer.map
      Solution.untimed = .ok solution) :
    (solve factory { settings with parallel := q } oracle others inst).answer.map
      Solution.untimed = .ok solution := by
  obtain ⟨solved, hsolved, rfl⟩ := Round.map_eq_ok h
  obtain ⟨m, agents, records, termination, last, hsetUp, hplays, rfl⟩ := solve_eq_ok_iff.1 hsolved
  obtain ⟨-, -, -, -, -, hids⟩ := setUp_eq_ok_iff.1 hsetUp
  have hother : (solve factory { settings with parallel := q } oracle others inst).answer =
      .ok (conclusion factory.name settings others m records termination last) :=
    solve_eq_ok_iff.2 ⟨m, agents, records, termination, last, hsetUp,
      hplays.of_honest (hids ▸ m.agents_nodup) hbudget hbudget, rfl⟩
  rw [hother]
  rfl

end Solver

/-- The agents of a built-in algorithm for one matrix, whatever its settings. -/
inductive Algorithm.Peopled [Scalar α] (m : UtilityMatrix α) : List (Algorithm.Agent α) → Prop
  | maxSum (settings : MaxSum.Settings α) : Peopled m ((MaxSum.agents settings m).map .maxSum)
  | dsa (coins : Dsa.Coins α) (settings : Dsa.Settings α) :
      Peopled m ((Dsa.agents coins settings m).map .dsa)

theorem Algorithm.Peopled.ids_eq [Scalar α] {m : UtilityMatrix α}
    {agents : List (Algorithm.Agent α)} (h : Algorithm.Peopled m agents) :
    agents.map Dispatch.Agent.id = m.agents := by
  cases h with
  | maxSum settings =>
    rw [MaxSum.agents, List.map_map, List.map_map]
    exact List.map_id' _
  | dsa coins settings =>
    rw [Dsa.Population.ids_wrap, (Dsa.Population.start coins settings m).ids_eq]

theorem Algorithm.peopled_of_agents [Scalar α] {coins : Dsa.Coins α} {algorithm : Algorithm α}
    {m : UtilityMatrix α} {agents : List (Algorithm.Agent α)}
    (h : algorithm.agents coins m = .ok agents) : Algorithm.Peopled m agents := by
  unfold Algorithm.agents at h
  split at h
  · cases h
  · cases algorithm with
    | maxSum settings =>
      cases h
      exact .maxSum settings
    | dsa settings =>
      cases h
      exact .dsa coins settings

namespace Solver
variable [Scalar α]

/-- Take a population of a built-in algorithm, in any state it can come to. Its posts may interleave
in any way that keeps each agent's own order, and its agents may step in any order: if the round
succeeds, the agents, their answers and the messages they sent are those of the round in turn. So
a solve that watches no clock comes to one solution, concurrently and in turn. -/
theorem schedules_do_not_matter :
    (∀ (m : UtilityMatrix α) (start agents : List (Algorithm.Agent α)),
      Algorithm.Peopled m start → Agent.Evolved start agents →
        (∀ posts order,
          Schedule.Interleaves (agents.map fun a => (Agent.send a).posts) posts →
          order.Perm (List.range agents.length) →
            ∃ schedule : Schedule,
              Schedule.interleave schedule.posts (agents.map fun a => (Agent.send a).posts) =
                posts ∧
              Schedule.order schedule.steps agents.length = order) ∧
        ∀ schedule outcome next, (Round.runConcurrent schedule agents).EndsWith outcome next ↔
          (Round.run agents).EndsWith outcome next) ∧
    ∀ (coins : Dsa.Coins α) (settings : Settings α) (oracle : Option (Oracle α)) (inst : Instance)
      (surroundings others : Surroundings α), settings.timeBudgetMs = none →
      ∀ solution,
        (solveBuiltIn coins { settings with parallel := true } oracle surroundings
            inst).answer.map Solution.untimed = .ok solution ↔
          (solveBuiltIn coins { settings with parallel := false } oracle others
            inst).answer.map Solution.untimed = .ok solution := by
  refine ⟨fun m start agents hstart hagents => ⟨fun posts order hposts horder => ?_,
    fun schedule outcome next => ?_⟩, fun coins settings oracle inst surroundings others hbudget
      solution => ⟨fun h => ?_, fun h => ?_⟩⟩
  · exact Schedule.exists_schedule hposts horder
  · refine Round.runConcurrent_endsWith_iff schedule ?_
    rw [hagents.ids_eq, hstart.ids_eq]
    exact m.agents_nodup
  · exact solve_of_honest hbudget true false surroundings others h
  · exact solve_of_honest hbudget false true others surroundings h

/-- Agents of which only the first moves on a coin. -/
def tossed : Settings Rat := { Settings.default with algorithm := .dsa .default }

/-- The last agent posts and steps first. -/
def backwards : Schedule := ⟨[2, 2, 1, 1], [2, 1]⟩

/-- The crew announces its targets in its second round. -/
theorem crew_does_not_see_the_schedule :
    (∃ m agents outcome next,
      setUp (tossed.algorithm.factory fun seed _ _ => seed = 0) tossed (some appeal) crew =
        .ok (m, agents) ∧
      (Round.run (Round.run agents).agents).EndsWith outcome next ∧
      (Round.runConcurrent backwards (Round.run agents).agents).EndsWith outcome next) ∧
    ∃ solution,
      (solveBuiltIn (fun seed _ _ => seed = 0) { tossed with parallel := false } (some appeal)
        .still crew).answer.map Solution.untimed = .ok solution ∧
      solution.stats.rounds = 3 ∧
      (solveBuiltIn (fun seed _ _ => seed = 0) { tossed with parallel := true } (some appeal)
        { Surroundings.still with schedule := fun _ => backwards } crew).answer.map
          Solution.untimed = .ok solution := by
  obtain ⟨hround, hsolve⟩ := schedules_do_not_matter (α := Rat)
  constructor
  · have hplayed : (setUp (tossed.algorithm.factory fun seed _ _ => seed = 0) tossed (some appeal)
        crew).toOption.map
          (fun p => (Round.run (Round.run p.2).agents).answer.toOption.map fun _ => ()) =
            some (some ()) := by
      decide +kernel
    obtain ⟨⟨m, agents⟩, hsetUp, hplayed⟩ := eq_ok_of_map_eq_some hplayed
    obtain ⟨outcome, hanswer, -⟩ := eq_ok_of_map_eq_some hplayed
    obtain ⟨-, -, -, -, hagents, -⟩ := setUp_eq_ok_iff.1 hsetUp
    obtain ⟨-, hschedule⟩ := hround m agents (Round.run agents).agents
      (Algorithm.peopled_of_agents hagents) (Round.evolved_run (.refl agents))
    have hrun : (Round.run (Round.run agents).agents).EndsWith outcome
        (Round.run (Round.run agents).agents).agents := ⟨hanswer, rfl⟩
    exact ⟨m, agents, outcome, _, hsetUp, hrun, (hschedule backwards _ _).2 hrun⟩
  · have hstats : ((solveBuiltIn (fun seed _ _ => seed = 0) { tossed with parallel := false }
        (some appeal) .still crew).answer.map Solution.untimed).toOption.map
          (fun s => s.stats.rounds) = some 3 := by
      decide +kernel
    obtain ⟨solution, hsolved, hrounds⟩ := eq_ok_of_map_eq_some hstats
    exact ⟨solution, hsolved, hrounds,
      (hsolve _ tossed _ _ { Surroundings.still with schedule := fun _ => backwards } _ rfl
        solution).2 hsolved⟩

end Solver

end Dispatch
