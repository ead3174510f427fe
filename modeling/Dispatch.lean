import Dispatch.City.Files
import Dispatch.Json.Messages
import Dispatch.Json.Problems
import Dispatch.Main
import Dispatch.Proofs.Convergence
import Dispatch.Proofs.Optimality
import Dispatch.Proofs.Potential
import Dispatch.Scalar.Exact
import Dispatch.Proofs.Determinism
import Dispatch.Proofs.Trace
import Dispatch.Proofs.Incumbent
import Dispatch.Proofs.Selection
import Dispatch.Proofs.Embedding
import Dispatch.Proofs.Acceptance
import Dispatch.Proofs.Settling
import Dispatch.Proofs.Bounds
import Dispatch.Proofs.Failures
import Dispatch.Proofs.Coverage
import Dispatch.Proofs.Accounts
import Dispatch.Proofs.Tables
import Dispatch.Proofs.Uncongested
import Dispatch.Proofs.Relabelling
import Dispatch.Proofs.Reordering
import Dispatch.Proofs.Renaming
import Dispatch.Proofs.Alternation
import Dispatch.Proofs.Locality
import Dispatch.Proofs.Attraction
import Dispatch.Proofs.Limits
import Dispatch.Proofs.Delivery
import Dispatch.Proofs.Chronicle
import Dispatch.Proofs.Resumption
import Dispatch.Proofs.Extinction
import Dispatch.Proofs.Whereabouts
import Dispatch.Proofs.Appraisal
import Dispatch.Proofs.Drawing
import Dispatch.Proofs.Tallies
import Dispatch.Proofs.Crews
import Dispatch.Proofs.Alternatives
import Dispatch.Proofs.Recounting
import Dispatch.Proofs.Bipartite
import Dispatch.Proofs.Standstill
import Dispatch.Proofs.Batches
import Dispatch.Proofs.TieBreaks
import Dispatch.Proofs.Containment
