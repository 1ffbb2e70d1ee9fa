import FireCrow.Orchestrator.VerdictAgreement
import FireCrow.Orchestrator.JobHistory
import FireCrow.Orchestrator.FinalizationFrame
import FireCrow.Orchestrator.ReturnedState
import FireCrow.Orchestrator.Cancellation
import FireCrow.Orchestrator.CancelledResult
import FireCrow.Orchestrator.BounceEvidence
import FireCrow.Schemas.NarrativeIdentifiers
import FireCrow.DockerAuthz.Daemon
import FireCrow.Orchestrator.ScannerRuns
import FireCrow.Orchestrator.Heartbeats
import FireCrow.Api.ActiveJobs
import FireCrow.Api.Redelivery
import FireCrow.Api.Redemptions
import FireCrow.Services.DeletionSafety
import FireCrow.Services.SessionRevocation
import FireCrow.Middleware.ClientIp
import FireCrow.Services.EgressSafety
import FireCrow.Migrations.RolesSkeleton
import FireCrow.Services.PrivilegedAccess
import FireCrow.Api.EventStreams
import FireCrow.Api.LoginNames
import FireCrow.Services.MailKeys
import FireCrow.Api.MfaConsistency
import FireCrow.Services.PaymentSafety
import FireCrow.Agents.GitleaksReport
import FireCrow.Orchestrator.PipelineDedupe
import FireCrow.Orchestrator.OsvCoverage
import FireCrow.Schemas.NarrativeSlices
import FireCrow.Orchestrator.Detections
import FireCrow.Orchestrator.Idempotence
import FireCrow.Services.RedactionGate
import FireCrow.Middleware.CidrMembership
import FireCrow.Agents.TarNumbers
import FireCrow.DockerAuthz.CanonicalPaths
import FireCrow.DockerAuthz.Base64
import FireCrow.Services.EgressRanges
import FireCrow.Agents.PaxRecords
import FireCrow.DockerAuthz.SandboxCommandLine
import FireCrow.Services.InertHtml
import FireCrow.Services.HonestSummary
import FireCrow.Services.MarkdownStructure
import FireCrow.Services.AttackGraph
import FireCrow.Middleware.RateLimit
import FireCrow.Middleware.Csrf
import FireCrow.Agents.UpgradeAdvice
import FireCrow.Services.ScratchPaths
import FireCrow.Orchestrator.BranchLookup
import FireCrow.Services.RemediationPlan
import FireCrow.Orchestrator.ManifestLines
import FireCrow.Middleware.LoggedBodies
import FireCrow.Agents.CargoManifests
import FireCrow.Orchestrator.DeliveryAnswers
import FireCrow.Services.Llm
import FireCrow.Agents.SnapshotAgreement
