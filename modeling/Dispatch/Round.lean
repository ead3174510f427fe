import Dispatch.Agent
import Dispatch.Mailbox
/-!
# Rounds

A round clears the mailbox, lets every agent send, and then lets every agent in turn take out its
messages, receive them and improve. The first failure ends the round where it happens.
-/

namespace Dispatch

variable {α σ : Type} [Scalar α] [Agent α σ]

/-- How far a round, or one half of it, has come. -/
structure Progress (α σ β : Type) where
  agents : List σ
  mailbox : Mailbox α
  events : List (Event α)
  answer : Except (Error α) β

/-- The lines that posting leaves in the log, up to the first refusal. -/
def Mailbox.postEvents (messages : List (Message α)) : List (Event α) :=
  let accepted := messages.takeWhile Message.isFinite
  (accepted ++ (messages.drop accepted.length).take 1).map postEvent

namespace Round

/-- Posts what an agent sends; the answer is what it accounts for. -/
def deliver (box : Mailbox α) (out : Outgoing α σ) :
    Mailbox α × List (Event α) × Except (Error α) (List (Message α)) :=
  let (next, posted) := box.postAll out.posts
  (next, out.notes ++ Mailbox.postEvents out.posts,
    match posted with
    | .ok () => out.reported
    | .error e => .error e)

/-- Lets every agent send; the answer is what each accounts for. -/
def sendAll (box : Mailbox α) : List σ → Progress α σ (List (List (Message α)))
  | [] => ⟨[], box, [], .ok []⟩
  | a :: rest =>
    let out := Agent.send a
    let (next, events, sent) := deliver box out
    match sent with
    | .error e => ⟨out.agent :: rest, next, events, .error e⟩
    | .ok messages =>
      let tail := sendAll next rest
      ⟨out.agent :: tail.agents, tail.mailbox, events ++ tail.events,
        tail.answer.map (messages :: ·)⟩

/-- Lets every agent receive and improve; the answer is which of them ask for another round. -/
def stepAll (box : Mailbox α) : List σ → Progress α σ (List Bool)
  | [] => ⟨[], box, [], .ok []⟩
  | a :: rest =>
    let (inbox, next) := box.drain (Agent.id a)
    let reply := Agent.step a inbox
    match reply.answer with
    | .error e => ⟨reply.agent :: rest, next, reply.notes, .error e⟩
    | .ok again =>
      let tail := stepAll next rest
      ⟨reply.agent :: tail.agents, tail.mailbox, reply.notes ++ tail.events,
        tail.answer.map (again :: ·)⟩

/-- What a round answers: the messages each agent accounts for, and which agents ask for another
round. -/
abbrev Outcome (α : Type) := List (List (Message α)) × List Bool

/-- One round from an empty mailbox, agent by agent. -/
def run (agents : List σ) : Progress α σ (Outcome α) :=
  let sent := sendAll .empty agents
  match sent.answer with
  | .error e => ⟨sent.agents, sent.mailbox, sent.events, .error e⟩
  | .ok messages =>
    let stepped := stepAll sent.mailbox sent.agents
    ⟨stepped.agents, stepped.mailbox, sent.events ++ stepped.events,
      stepped.answer.map (messages, ·)⟩

end Round

end Dispatch
