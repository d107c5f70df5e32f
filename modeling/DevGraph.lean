import DevGraph.Proofs.ClosureSolver
import DevGraph.Proofs.Dispositions
import DevGraph.Proofs.Approvals
import DevGraph.Proofs.PathPredicate
import DevGraph.Proofs.Outbox
import DevGraph.Proofs.HolderSessions
import DevGraph.Proofs.MigrationRecovery
import DevGraph.Proofs.RetainedAudit
import DevGraph.Proofs.CredentialRequests
import DevGraph.Proofs.SelectorGrants
import DevGraph.Proofs.BrowserTruth
import DevGraph.Proofs.ResponseChunks
import DevGraph.Proofs.OperatorInbox
import DevGraph.Proofs.RelationshipReads
import DevGraph.Proofs.WorkflowStateSize
import DevGraph.Proofs.CypherRead
import DevGraph.Proofs.StrictJson
