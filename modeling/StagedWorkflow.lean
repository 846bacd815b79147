import StagedWorkflow.Session
import StagedWorkflow.Session.Stores
import StagedWorkflow.Session.Tags
import StagedWorkflow.Session.Tokens
import StagedWorkflow.Session.Samples
import StagedWorkflow.Proofs.Order
import StagedWorkflow.Proofs.Delivery
import StagedWorkflow.Proofs.Failure
import StagedWorkflow.Proofs.Cancellation
import StagedWorkflow.Proofs.Descent
import StagedWorkflow.Proofs.Requests
import StagedWorkflow.Proofs.References
import StagedWorkflow.Proofs.Termination
import StagedWorkflow.Proofs.Ledger
import StagedWorkflow.Proofs.Simulation
import StagedWorkflow.Proofs.Standing
import StagedWorkflow.Proofs.Retelling
import StagedWorkflow.Proofs.Frame
import StagedWorkflow.Proofs.Overlay
import StagedWorkflow.Proofs.Labels
import StagedWorkflow.Proofs.Readers
import StagedWorkflow.Proofs.Provenance
import StagedWorkflow.Proofs.Sharing
import StagedWorkflow.Proofs.Aliases
import StagedWorkflow.Proofs.Conduct
import StagedWorkflow.Proofs.Nesting
import StagedWorkflow.Proofs.Deferral
import StagedWorkflow.Proofs.Exchanges
import StagedWorkflow.Proofs.Chronicle
import StagedWorkflow.Proofs.Blind
import StagedWorkflow.Proofs.Omission
import StagedWorkflow.Proofs.Scenes
import StagedWorkflow.Proofs.Absence
import StagedWorkflow.Proofs.Loggers
import StagedWorkflow.Proofs.Switches
import StagedWorkflow.Proofs.Merging
import StagedWorkflow.Proofs.Histories
import StagedWorkflow.Proofs.Bookkeeping
import StagedWorkflow.Proofs.Transparency
import StagedWorkflow.Proofs.TagQueries
import StagedWorkflow.Proofs.TagSets
import StagedWorkflow.Proofs.Retries
import StagedWorkflow.Proofs.Causes
import StagedWorkflow.Proofs.Footing
import StagedWorkflow.Proofs.Addressing
