import Prototypal.Journal.Summary
import Prototypal.Script.Session
import Prototypal.Proofs.Landing
import Prototypal.Proofs.Ancestry.Naive
import Prototypal.Proofs.Strictness.Transparency
import Prototypal.Proofs.Strictness.FirstViolation
import Prototypal.Proofs.Limits
import Prototypal.Proofs.Machine.Completion
import Prototypal.Proofs.Readonly
import Prototypal.Proofs.Machine.Writes
import Prototypal.Proofs.Protection
import Prototypal.Proofs.Sealed
import Prototypal.Proofs.Tracking.Mentions
import Prototypal.Proofs.Tracking.Provisions
import Prototypal.Proofs.WellFormed.States
import Prototypal.Proofs.WellFormed.Sessions
import Prototypal.Proofs.Termination
import Prototypal.Proofs.Interning
import Prototypal.Proofs.Markers
import Prototypal.Proofs.Configuration
import Prototypal.Proofs.Machine.Unchecked
import Prototypal.Proofs.Ancestry.Order
import Prototypal.Proofs.Ancestry.Cuts
import Prototypal.Proofs.Ancestry.Exact
import Prototypal.Proofs.Ancestry.Above
import Prototypal.Proofs.Ancestry.Locality
import Prototypal.Proofs.Ancestry.Reparenting
import Prototypal.Proofs.Calls.Values
import Prototypal.Proofs.Ancestry.Lines
import Prototypal.Proofs.Calls.Cooperation
import Prototypal.Proofs.Calls.Equality
import Prototypal.Proofs.Ancestry.Newcomers
import Prototypal.Proofs.Ancestry.Copies
import Prototypal.Proofs.Refusals
import Prototypal.Proofs.Contents
import Prototypal.Proofs.Operations
