import BackingFields.Text.Identifier
import BackingFields.Text.Range
import BackingFields.Name.Table
import BackingFields.File.Location
import BackingFields.Ty.Resolution
import BackingFields.Class.Climb
import BackingFields.Hierarchy
import BackingFields.Property.Scope
import BackingFields.Proofs.Class.Acceptance
import BackingFields.Proofs.Property.Growth
import BackingFields.Proofs.Class.Growth
import BackingFields.Proofs.Hierarchy.History
import BackingFields.Proofs.Class.WellFormed
import BackingFields.Proofs.Hierarchy.Invariant
import BackingFields.Proofs.Class.Chain
import BackingFields.Proofs.Name.Replay
import BackingFields.Proofs.Property.Exposure
import BackingFields.Proofs.Property.Failure
import BackingFields.Proofs.Property.Nearest
import BackingFields.Proofs.Property.Replay
import BackingFields.Proofs.Class.Verdict
import BackingFields.Proofs.Hierarchy.Listing
import BackingFields.Proofs.Hierarchy.Refusal
import BackingFields.Proofs.Name.Forecast
import BackingFields.Proofs.Property.Answer
import BackingFields.Proofs.Property.Receivers
import BackingFields.Proofs.Hierarchy.Correspondence
import BackingFields.Proofs.Property.Independence
import BackingFields.Proofs.File.Agreement
import BackingFields.Proofs.File.Applicability
import BackingFields.Proofs.Property.Fidelity
import BackingFields.Proofs.Property.Lookup
import BackingFields.Proofs.Name.Calls
import BackingFields.Proofs.Class.Faults
import BackingFields.Proofs.Hierarchy.Outcome
import BackingFields.Proofs.Ty.Occurrence
import BackingFields.Proofs.Ty.Refinement
import BackingFields.Proofs.Property.Accessor
import BackingFields.Proofs.Text.Grammar
import BackingFields.Proofs.Ty.Spelling
import BackingFields.Proofs.Property.Limit
