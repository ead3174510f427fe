import Dispatch.Scalar
/-!
# Statistics of a solve

One record per finished solve, and a recorder that keeps the records it is handed.
-/

namespace Dispatch

/-- Why the rounds ended. -/
inductive Termination where
  | converged
  | roundLimit
  | timeBudget
deriving DecidableEq, Repr, Inhabited

/-- What one solve did. -/
structure Stats (α : Type) where
  solver : String
  agentCount : Nat
  targetCount : Nat
  rounds : Nat
  termination : Termination
  /-- Sum over the rounds of the largest number of checks any agent made. -/
  constraintChecks : Nat
  messages : Nat
  messageBytes : Nat
  otherMessages : Nat
  otherMessageBytes : Nat
  /-- Utility of the agents' targets after each round. -/
  utilities : List α
  finalUtility : α
  /-- What repair made of the last round's assignment, kept or not. -/
  finalRepairedUtility : α
  bestUtility : α
  /-- What repair made of the best round's assignment, kept or not. -/
  bestRepairedUtility : α
  /-- How many of the two repairs lowered the utility and were discarded. -/
  repairRegressions : Nat
  elapsedMs : α

namespace Stats
variable {α : Type}

def converged (s : Stats α) : Bool := s.termination = .converged

/-- A record of nothing. -/
def blank [Scalar α] : Stats α where
  solver := ""
  agentCount := 0
  targetCount := 0
  rounds := 0
  termination := .converged
  constraintChecks := 0
  messages := 0
  messageBytes := 0
  otherMessages := 0
  otherMessageBytes := 0
  utilities := []
  finalUtility := Scalar.zero
  finalRepairedUtility := Scalar.zero
  bestUtility := Scalar.zero
  bestRepairedUtility := Scalar.zero
  repairRegressions := 0
  elapsedMs := Scalar.zero

end Stats

/-- Keeps every record it is handed, oldest first. -/
structure Recorder (α : Type) where
  records : List (Stats α)

namespace Recorder
variable {α : Type}

def empty : Recorder α := ⟨[]⟩

def report (r : Recorder α) (s : Stats α) : Recorder α := ⟨r.records ++ [s]⟩

def size (r : Recorder α) : Nat := r.records.length

def isEmpty (r : Recorder α) : Bool := r.records.isEmpty

def last? (r : Recorder α) : Option (Stats α) := r.records.getLast?

end Recorder

end Dispatch
