import FireCrow.Orchestrator.Document

/-!
# The pipeline of one audit

The phases of `run_pipeline` from the scan on, over the results of the three
scanners, and the record that finalization persists for their outcome.

Completeness is computed twice.  The scan phase takes it from the run states
into the state of the pipeline, where the normalize phase lowers it when a
finding is quarantined; the report phase builds the canonical document from
the run states again.
-/

namespace FireCrow.Orchestrator

open FireCrow.Library FireCrow.Schemas FireCrow.Agents

/-- Score for a completed scan, in `[0, 9]`. -/
def scoreScan (analysisPerformed : Bool) (findingCount : Nat) : Option ℚ :=
  if analysisPerformed then
    let penalty : ℚ := findingCount * (3 / 2)
    some (max 0 (min 9 (10 - penalty)))
  else none

/-- Why a phase failed. -/
inductive AppError where
  | cancelled (message : Text)
  | internal (message : Text)
  | canonicalAudit (error : CanonicalAuditError)
  | report (error : ReportError)

/-- How the pipeline ended. -/
inductive Outcome where
  | ok
  | partial_ (reason : Text)
  | failed (phase : Text) (error : AppError)
  | cancelled

/-- The reason that an execution records for not completing. -/
inductive FailureReason where
  | phaseFailed (phase : Text) (error : AppError)
  | cancelledByUser
  | partialCoverage (reason : Text)

/-- The files that were fetched. -/
structure Snapshot where
  fileCount : Nat
  totalSize : Nat

section Phases

variable [FloatFormat] [TextDigest]

/-- The results of the three scanners over one snapshot. -/
structure ScannerResults where
  secret : ScannerResult
  dependency : ScannerResult
  sast : ScannerResult
  findingsFit :
    (secret.findings ++ dependency.findings ++ sast.findings).length < 2 ^ 64

def ScannerResults.toList (scanners : ScannerResults) : List ScannerResult :=
  [scanners.secret, scanners.dependency, scanners.sast]

/-- The state that the pipeline threads through its phases. -/
structure AuditState where
  jobId : Text
  repoUrl : Text
  repoBranch : Text
  repoOwner : Text
  repoName : Text
  commitSha : Option Text
  findings : List Finding
  securityScore : Option ℚ
  scannerExecution : SortedMap Text Json
  analysisPerformed : Bool
  coverageComplete : Bool
  coverageDetail : Option Text
  coverageLimitations : List Text
  canonical : Option CanonicalAudit
  report : Option CanonicalAuditReport

/-! ## Scan -/

/-- The message for a snapshot that no scanner analyzed. -/
def noTrustworthyResult (results : List ScannerResult) : Text :=
  match results.find? fun result => !result.usable with
  | some result =>
      ("scanner " : Text) ++ result.scanner ++
        (" did not produce a trustworthy result (" : Text) ++
        result.outcome.asStr ++ ("); no result can be reported" : Text)
  | none => "no scanner produced a trustworthy result"

/-- Take the results of the scanners over. -/
def scanned (scanners : ScannerResults) (state : AuditState) : AuditState :=
  let results := scanners.toList
  let (findings, coverage, detail) := aggregateScanResults results
  { state with
    scannerExecution :=
      results.foldl
        (fun records result =>
          records.insert result.scanner result.executionRecord)
        state.scannerExecution
    analysisPerformed := results.any (·.analyzed)
    coverageComplete := coverage.complete
    coverageDetail := detail
    coverageLimitations := coverage.limitations
    findings := findings }

/-- The real scanner runtime, one scanner at a time over the same snapshot. -/
def scanPhase (scanners : ScannerResults) (state : AuditState) :
    Except AppError AuditState := do
  let state := scanned scanners state
  refuseIf (scanners.toList.any fun result => result.outcome == .cancelled)
    (.cancelled "scan cancelled")
  refuseIf (!state.analysisPerformed)
    (.internal (noTrustworthyResult scanners.toList))
  return state

/-! ## Normalize and score -/

def quarantinedText (count : Nat) : Text :=
  Text.ofNat count ++ (" finding(s) failed canonical evidence validation" : Text)

/-- Keep the findings that can be persisted; quarantine lowers coverage. -/
def normalizePhase (state : AuditState) : AuditState :=
  let normalized := normalizeFindingsForPersist state.findings
  let state :=
    if normalized.invalid.isEmpty then state
    else
      let detail := quarantinedText normalized.invalid.length
      { state with
        coverageComplete := false
        coverageDetail := some detail
        coverageLimitations :=
          (sortBy id (state.coverageLimitations ++ [detail])).destutter
            (· ≠ ·) }
  { state with findings := normalized.valid }

/-- A real score only when coverage is complete. -/
def scorePhase (state : AuditState) : AuditState :=
  { state with
    securityScore := scoreScan state.coverageComplete state.findings.length }

/-! ## Report and delivery -/

omit [TextDigest] in
theorem findingsFit_aggregate (scanners : ScannerResults) :
    (aggregateScanResults scanners.toList).1.length < 2 ^ 64 := by
  have kept : (scanners.toList.filter (·.usable)).Sublist scanners.toList :=
    List.filter_sublist
  have usable := (kept.flatMap (·.findings)).length_le
  have fit := scanners.findingsFit
  simp only [ScannerResults.toList, List.flatMap_cons, List.flatMap_nil,
    List.append_nil, ← List.append_assoc] at usable
  exact lt_of_le_of_lt usable fit

/-- The request for the canonical audit of this attempt. -/
def auditRequest (snapshot : Snapshot) (scanners : ScannerResults)
    (state : AuditState) : CanonicalAuditRequest where
  scanId := state.jobId
  repositoryUrl := state.repoUrl
  repoBranch := state.repoBranch
  repoOwner := state.repoOwner
  repoName := state.repoName
  snapshotCommit := state.commitSha
  snapshotFileCount := snapshot.fileCount
  snapshotTotalSize := snapshot.totalSize
  results := scanners.toList
  findings := (aggregateScanResults scanners.toList).1
  securityScore := state.securityScore
  findingsFit := findingsFit_aggregate scanners

/-- Build the canonical audit and derive the report from it. -/
def reportPhase (lease : ExecutionIdentity) (snapshot : Snapshot)
    (scanners : ScannerResults) (state : AuditState) :
    Except AppError AuditState := do
  let audit ←
    (canonicalAudit (auditRequest snapshot scanners state)).mapError
      AppError.canonicalAudit
  let report ← (buildReport audit lease).mapError AppError.report
  return { state with canonical := some audit, report := some report }

/-- The report that is handed off must exist. -/
def deliverPhase (state : AuditState) : Except AppError Unit :=
  refuseIf state.report.isNone
    (.internal "report was not generated before delivery")

/-- Partial coverage is a terminal outcome of its own. -/
def coverageOutcome (state : AuditState) : Outcome :=
  if state.coverageComplete then .ok
  else
    .partial_
      (state.coverageDetail.getD
        "one or more scanners did not analyze the repository")

/-- The phases in order, up to the first that fails. -/
def runPipeline (lease : ExecutionIdentity) (snapshot : Snapshot)
    (scanners : ScannerResults) (state : AuditState) : AuditState × Outcome :=
  match scanPhase scanners state with
  | .error error => (scanned scanners state, .failed "scan" error)
  | .ok state =>
      let state := scorePhase (normalizePhase state)
      match reportPhase lease snapshot scanners state with
      | .error error => (state, .failed "report" error)
      | .ok state =>
          match deliverPhase state with
          | .error error => (state, .failed "deliver" error)
          | .ok _ => (state, coverageOutcome state)

/-! ## Finalization -/

/-- Everything the terminal moment of an execution makes durable. -/
structure Finalization where
  findings : List Finding
  coverageStatus : Text
  coverageComplete : Bool
  coverageLimitations : List Text
  canonical : Option CanonicalAudit
  report : Option CanonicalAuditReport
  securityScore : Option ℚ
  jobStatus : JobStatus
  failureReason : Option FailureReason

/-- A finalization without a result. -/
def withoutResult (status : JobStatus) (reason : FailureReason) :
    Finalization where
  findings := []
  coverageStatus := []
  coverageComplete := false
  coverageLimitations := []
  canonical := none
  report := none
  securityScore := none
  jobStatus := status
  failureReason := some reason

/-- The finalization of an outcome. -/
def finalizationOf (state : AuditState) : Outcome → Finalization
  | .failed phase error => withoutResult .failed (.phaseFailed phase error)
  | .cancelled => withoutResult .cancelled .cancelledByUser
  | .partial_ reason =>
      { findings := state.findings
        coverageStatus := "partial"
        coverageComplete := false
        coverageLimitations := state.coverageLimitations
        canonical := state.canonical
        report := state.report
        securityScore := none
        jobStatus := .partial_
        failureReason := some (.partialCoverage reason) }
  | .ok =>
      { findings := state.findings
        coverageStatus := if state.coverageComplete then "complete" else "partial"
        coverageComplete := state.coverageComplete
        coverageLimitations := state.coverageLimitations
        canonical := state.canonical
        report := state.report
        securityScore := state.securityScore
        jobStatus := .completed
        failureReason := none }

end Phases

/-- A cancellation that was requested wins over any other status. -/
def finalStatus (cancelRequested : Bool) (jobStatus : JobStatus) : JobStatus :=
  if cancelRequested ∧ jobStatus ≠ .cancelled then .cancelled else jobStatus

/-- Only a completed execution with complete coverage stores a score. -/
def finalScore {score : Type} (cancelRequested coverageComplete : Bool)
    (jobStatus : JobStatus) (securityScore : Option score) : Option score :=
  if coverageComplete ∧ finalStatus cancelRequested jobStatus = .completed then
    securityScore
  else none

section Commit

variable [FloatFormat]

/-- What finalization commits for the execution and its job. -/
structure FinalizedExecution where
  status : JobStatus
  securityScore : Option ℚ
  failureReason : Option FailureReason
  findings : List Finding
  canonical : Option CanonicalAudit
  report : Option CanonicalAuditReport

/-- Commit an execution's entire final state. -/
def finalizeExecution (cancelRequested : Bool) (finalization : Finalization) :
    FinalizedExecution where
  status := finalStatus cancelRequested finalization.jobStatus
  securityScore :=
    finalScore cancelRequested finalization.coverageComplete
      finalization.jobStatus finalization.securityScore
  failureReason := finalization.failureReason
  findings := finalization.findings
  canonical := finalization.canonical
  report := finalization.report

end Commit

end FireCrow.Orchestrator
