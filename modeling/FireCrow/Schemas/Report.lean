import FireCrow.Library.StableSort
import FireCrow.Schemas.CanonicalAudit

/-!
# The audit report contract

A report presents a canonical audit together with the execution identity that
produced it.  `buildReport` is a pure function of the two; its coverage state
is the one verdict that presentations show.
-/

namespace FireCrow.Schemas

open FireCrow.Library

def reportSchemaVersion : Nat := 1

/-- Overall execution state as presented by the report. -/
inductive CoverageState where
  | successClean
  | successFindings
  | failed
  | timeout
  | cancelled
  | noFilesAnalyzed
deriving DecidableEq

namespace CoverageState

def asStr : CoverageState → Text
  | .successClean => "SUCCESS_CLEAN"
  | .successFindings => "SUCCESS_FINDINGS"
  | .failed => "FAILED"
  | .timeout => "TIMEOUT"
  | .cancelled => "CANCELLED"
  | .noFilesAnalyzed => "NO_FILES_ANALYZED"

/-- Whether the run established coverage over the snapshot. -/
def coverageKnown : CoverageState → Bool
  | .successClean => true
  | .successFindings => true
  | _ => false

end CoverageState

/-- The immutable identity of the audit and the attempt that produced it. -/
structure ReportIdentity where
  auditId : Text
  executionId : Text
  attemptNumber : Int32
  repositoryUrl : Text
  repoBranch : Text
  repoOwner : Text
  repoName : Text
  snapshotCommit : Option Text
  snapshotFileCount : Nat
  snapshotTotalSize : Nat
  canonicalSchemaVersion : Nat
  reportSchemaVersion : Nat

/-- The execution identity supplied alongside the canonical audit. -/
structure ExecutionIdentity where
  executionId : Text
  attemptNumber : Int32

/-- Coverage as presented in the report. -/
structure ReportCoverage where
  state : CoverageState
  status : CoverageStatus
  complete : Bool
  scannerRuns : List CanonicalScannerRun
  successfulScanners : List Text
  unsuccessfulScanners : SortedMap Text Text
  limitations : List Text

/-- Facts-only summary of the audit. -/
structure ReportSummary where
  headline : Text
  findingCount : Nat
  findingsBySeverity : SortedMap Text Nat
  findingsByScanner : SortedMap Text Nat
  invalidFindingCount : Nat
  duplicateGroupCount : Nat
  securityScore : Option ℚ

inductive ReportError where
  | unsupportedCanonicalVersion (found expected : Nat)
deriving DecidableEq

/-- Sort rank for a severity: higher severity first, `unknown` last. -/
def severityRank : Severity → Nat
  | .critical => 0
  | .high => 1
  | .medium => 2
  | .low => 3
  | .info => 4
  | .unknown => 5

/-- The fixed statements attached to every report. -/
def disclaimers : List Text :=
  [("This report presents a frozen canonical audit. Generating it ran no scanners, accessed no repository, and called no AI service." : Text),
    ("A missing or \"unknown\" value means the scanner did not report it; it is never inferred or defaulted here." : Text),
    ("Remediation text is guidance suggested by the scanner or platform; it is not a verified fact about the repository." : Text)]

section Reports

variable [FloatFormat]

/-- The complete, self-contained report document. -/
structure CanonicalAuditReport where
  reportSchemaVersion : Nat
  identity : ReportIdentity
  coverage : ReportCoverage
  summary : ReportSummary
  findings : List CanonicalAuditFinding
  correlations : List FindingCorrelation
  invalidFindings : List InvalidFinding
  limitations : List Text
  disclaimers : List Text

def isCancelled : CanonicalScannerStatus → Bool
  | .cancelled => true
  | _ => false

def isTimeout : CanonicalScannerStatus → Bool
  | .timeout _ => true
  | _ => false

def isNoFilesAnalyzed : CanonicalScannerStatus → Bool
  | .noFilesAnalyzed _ => true
  | _ => false

/-- Derive the single aggregate coverage state from the canonical scanner
runs. -/
def deriveCoverageState (audit : CanonicalAudit) : CoverageState :=
  if audit.scannerRuns.any fun run => isCancelled run.status then .cancelled
  else if audit.scannerRuns.any fun run => isTimeout run.status then .timeout
  else if audit.coverage.complete then
    if audit.summary.findingCount = 0 then .successClean else .successFindings
  else
    let unsuccessful :=
      (audit.scannerRuns.filter fun run => !run.coverageKnown).map (·.status)
    if !unsuccessful.isEmpty && unsuccessful.all isNoFilesAnalyzed then
      .noFilesAnalyzed
    else .failed

/-- Build the deterministic, facts-only headline for a summary. -/
def headline (audit : CanonicalAudit) (state : CoverageState) : Text :=
  match state with
  | .successClean =>
      ("All " : Text) ++ Text.ofNat audit.coverage.successfulScanners.length ++
        (" scanner(s) completed and reported no findings." : Text)
  | .successFindings =>
      Text.ofNat audit.summary.findingCount ++
        (" finding(s) reported across " : Text) ++
        Text.ofNat audit.coverage.successfulScanners.length ++
        (" scanner(s)." : Text)
  | .cancelled =>
      "The audit was cancelled before coverage could be established."
  | .timeout => "At least one scanner exceeded its time limit."
  | .noFilesAnalyzed =>
      "No files were analyzed, so coverage is unknown rather than clean."
  | .failed =>
      let names :=
        audit.coverage.unsuccessfulScanners.entries.map fun entry =>
          entry.1 ++ (" (" : Text) ++ entry.2 ++ [')']
      if names.isEmpty then
        "Coverage is incomplete; the result cannot be treated as clean."
      else
        ("Coverage is incomplete: " : Text) ++ Text.join ", " names ++ ['.']

/-- Keep an unvalidated path out of the published report. -/
def publishInvalid (invalid : InvalidFinding) : InvalidFinding :=
  match invalid.file with
  | some file =>
      if (validateRepoPath file).toOption.isSome then invalid
      else { invalid with file := none }
  | none => invalid

/-- Build a report from a canonical audit and an execution identity. -/
def buildReport (audit : CanonicalAudit) (execution : ExecutionIdentity) :
    Except ReportError CanonicalAuditReport :=
  if audit.schemaVersion ≠ canonicalAuditVersion then
    .error
      (.unsupportedCanonicalVersion audit.schemaVersion canonicalAuditVersion)
  else
    let state := deriveCoverageState audit
    .ok {
      reportSchemaVersion := reportSchemaVersion
      identity :=
        { auditId := audit.scanId
          executionId := execution.executionId
          attemptNumber := execution.attemptNumber
          repositoryUrl := audit.repositoryUrl
          repoBranch := audit.repoBranch
          repoOwner := audit.repoOwner
          repoName := audit.repoName
          snapshotCommit := audit.snapshotCommit
          snapshotFileCount := audit.snapshotFileCount
          snapshotTotalSize := audit.snapshotTotalSize
          canonicalSchemaVersion := audit.schemaVersion
          reportSchemaVersion := reportSchemaVersion }
      coverage :=
        { state := state
          status := audit.coverage.status
          complete := audit.coverage.complete
          scannerRuns := sortBy (·.scanner) audit.scannerRuns
          successfulScanners := audit.coverage.successfulScanners
          unsuccessfulScanners := audit.coverage.unsuccessfulScanners
          limitations := audit.coverage.limitations }
      summary :=
        { headline := headline audit state
          findingCount := audit.summary.findingCount
          findingsBySeverity := audit.summary.findingsBySeverity
          findingsByScanner := audit.summary.findingsByScanner
          invalidFindingCount := audit.summary.invalidFindingCount
          duplicateGroupCount := audit.summary.duplicateGroupCount
          securityScore := audit.summary.securityScore }
      findings :=
        sortBy
          (fun finding : CanonicalAuditFinding =>
            toLex (severityRank finding.severity, finding.id))
          audit.findings
      correlations := sortBy (·.correlationId) audit.correlations
      invalidFindings :=
        sortBy (·.id) (audit.invalidFindings.map publishInvalid)
      limitations := (sortBy id audit.limitations).destutter (· ≠ ·)
      disclaimers := disclaimers }

end Reports

end FireCrow.Schemas
