import Dispatch.Round
/-!
# Rounds out of order

In a concurrent round the posts of different agents may interleave and the agents may take their
steps in any order; only the posts of one agent keep theirs. A schedule picks one such course, and
every course is picked by some schedule. The schedule without picks takes the agents in turn.
-/

namespace Dispatch

variable {α σ β : Type} [Scalar α] [Agent α σ]

/-- The course of one concurrent round. -/
structure Schedule where
  /-- Whose next message is posted, again and again. -/
  posts : List Nat
  /-- Who takes the next step. -/
  steps : List Nat
deriving DecidableEq, Repr

namespace Schedule

/-- Agent by agent, in both halves. -/
def inTurn : Schedule := ⟨[], []⟩

/-- Merges queues: each pick takes the head of the queue it names, if there is one; what is left
after the last pick follows queue by queue. -/
def interleave : List Nat → List (List β) → List β
  | [], queues => queues.flatten
  | pick :: picks, queues =>
    match queues[pick]? with
    | some (x :: queue) => x :: interleave picks (queues.set pick queue)
    | _ => interleave picks queues

/-- The numbers below `n`, each once: the picked ones first. -/
def order (picks : List Nat) (n : Nat) : List Nat :=
  let first := (picks.filter (· < n)).eraseDups
  first ++ (List.range n).filter (· ∉ first)

end Schedule

namespace Round

/-- The half of a concurrent round in which all send. -/
def sendInterleaved (picks : List Nat) (agents : List σ) : Progress α σ (List (List (Message α))) :=
  let outs : List (Outgoing α σ) := agents.map Agent.send
  let posts := Schedule.interleave picks (outs.map (·.posts))
  let (box, posted) := Mailbox.empty.postAll posts
  ⟨outs.map (·.agent), box, outs.flatMap (·.notes) ++ Mailbox.postEvents posts,
    match posted with
    | .ok () => outs.mapM (·.reported)
    | .error e => .error e⟩

/-- The half in which the agents at the given positions take their steps, in that order. The
answer lists the positions with what the agents there ask for. -/
def stepInOrder (box : Mailbox α) (agents : List σ) : List Nat → Progress α σ (List (Nat × Bool))
  | [] => ⟨agents, box, [], .ok []⟩
  | i :: rest =>
    match agents[i]? with
    | none => stepInOrder box agents rest
    | some a =>
      let (inbox, next) := box.drain (Agent.id a)
      let reply := Agent.step a inbox
      match reply.answer with
      | .error e => ⟨agents.set i reply.agent, next, reply.notes, .error e⟩
      | .ok again =>
        let tail := stepInOrder next (agents.set i reply.agent) rest
        ⟨tail.agents, tail.mailbox, reply.notes ++ tail.events, tail.answer.map ((i, again) :: ·)⟩

/-- What the agents ask for, by position. -/
def flagsByPosition (n : Nat) (answers : List (Nat × Bool)) : List Bool :=
  (List.range n).map fun i => (answers.lookup i).getD false

/-- One round from an empty mailbox, in the course of the schedule. -/
def runConcurrent (schedule : Schedule) (agents : List σ) : Progress α σ (Outcome α) :=
  let sent := sendInterleaved schedule.posts agents
  match sent.answer with
  | .error e => ⟨sent.agents, sent.mailbox, sent.events, .error e⟩
  | .ok messages =>
    let order := Schedule.order schedule.steps agents.length
    let stepped := stepInOrder sent.mailbox sent.agents order
    ⟨stepped.agents, stepped.mailbox, sent.events ++ stepped.events,
      stepped.answer.map fun answers => (messages, flagsByPosition agents.length answers)⟩

end Round

end Dispatch
