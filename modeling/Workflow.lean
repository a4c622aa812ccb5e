import Workflow.Definition.Markup
import Workflow.Directory.Record
import Workflow.Engine.Operation
import Workflow.Main
import Workflow.Notice.Record
import Workflow.Proofs.Activation
import Workflow.Proofs.Branching
import Workflow.Proofs.Comparisons
import Workflow.Proofs.Convergence
import Workflow.Proofs.Deliveries
import Workflow.Proofs.Drafts
import Workflow.Proofs.Draining
import Workflow.Proofs.Endurance
import Workflow.Proofs.Guards
import Workflow.Proofs.Host
import Workflow.Proofs.Independence
import Workflow.Proofs.Indifference
import Workflow.Proofs.Ledger
import Workflow.Proofs.Mirror
import Workflow.Proofs.Mutexes
import Workflow.Proofs.Overlap
import Workflow.Proofs.Portability
import Workflow.Proofs.Queries
import Workflow.Proofs.Reading
import Workflow.Proofs.Recurrence
import Workflow.Proofs.References
import Workflow.Proofs.Registration
import Workflow.Proofs.Replay
import Workflow.Proofs.Rollback
import Workflow.Proofs.RoundTrip
import Workflow.Proofs.Serialization
import Workflow.Proofs.Stances
import Workflow.Proofs.Unreached
import Workflow.Proofs.Upkeep
import Workflow.Proofs.Validity
import Workflow.Proofs.Views
import Workflow.Proofs.Warnings
import Workflow.Report.Record
import Workflow.Service.Basic
import Workflow.Proofs.NumericOrder
import Workflow.Proofs.Redaction
import Workflow.Proofs.Refusals
import Workflow.Proofs.Simulations
import Workflow.Proofs.Worklists
import Workflow.Proofs.DueTimes
import Workflow.Proofs.Reordering
import Workflow.Proofs.RoleTables
import Workflow.Proofs.TaskOrder
