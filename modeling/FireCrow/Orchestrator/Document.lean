import FireCrow.Orchestrator.Deduplication
import FireCrow.Schemas.Report

/-!
# The canonical document

`canonicalAudit` refuses a request for one of five reasons and otherwise
returns `auditDocument`.

The scanner runs determine the coverage.  It is complete exactly when every
scanner succeeded, and then the coverage state of the report depends on the
number of kept findings alone.
-/

namespace FireCrow.Orchestrator

open FireCrow.Library FireCrow.Schemas FireCrow.Agents

variable [FloatFormat] [TextDigest]

/-- The coverage of a list of scanner results. -/
def coverageOf (results : List ScannerResult) : CanonicalCoverage :=
  canonicalCoverage (canonicalScannerRuns results)

/-- The document of a request with its validated commit. -/
def auditDocument (request : CanonicalAuditRequest)
    (commit : Option Text) : CanonicalAudit :=
  let coverage := coverageOf request.results
  let normalized := normalizeFindings request.findings commit
  let findings := normalized.valid.map canonicalFinding
  { schemaVersion := canonicalAuditVersion
    scanId := request.scanId
    repositoryUrl := request.repositoryUrl
    repoBranch := request.repoBranch
    repoOwner := request.repoOwner
    repoName := request.repoName
    snapshotCommit := commit
    snapshotFileCount := request.snapshotFileCount
    snapshotTotalSize := request.snapshotTotalSize
    scannerRuns := canonicalScannerRuns request.results
    coverage := coverage
    findings := findings
    correlations := correlateFindings findings
    invalidFindings := normalized.invalid
    limitations := coverage.limitations
    summary :=
      canonicalSummary coverage normalized.validCountByScanner
        normalized.validCountBySeverity normalized.invalid.length
        normalized.correlations request.securityScore }

/-- A request that the audit accepts, with its validated commit. -/
structure Admissible (request : CanonicalAuditRequest)
    (commit : Option Text) : Prop where
  scanId : request.scanId.isBlank = false
  repositoryUrl : request.repositoryUrl.isBlank = false
  results : request.results ≠ []
  commit : validateSnapshotCommit request.snapshotCommit = .ok commit
  score :
    (coverageOf request.results).status = .complete ∨
      request.securityScore = none

variable (request : CanonicalAuditRequest)

theorem canonicalAudit_eq_ok_iff (audit : CanonicalAudit) :
    canonicalAudit request = .ok audit ↔
      ∃ commit, Admissible request commit ∧
        audit = auditDocument request commit := by
  simp only [canonicalAudit, Result.bind_eq_ok, Result.pure_eq_ok,
    Result.refuseIf_eq_ok, Result.mapError_eq_ok]
  constructor
  · rintro ⟨_, scanId, _, repositoryUrl, _, results, commit, valid, _, score,
      rfl⟩
    refine ⟨commit, ?_, rfl⟩
    exact {
      scanId := by simpa using scanId
      repositoryUrl := by simpa using repositoryUrl
      results := results
      commit := valid
      score := by
        by_cases complete : (coverageOf request.results).status = .complete
        · exact Or.inl complete
        · right
          by_contra present
          exact score ⟨complete, Option.isSome_iff_ne_none.2 present⟩ }
  · rintro ⟨commit, admissible, rfl⟩
    refine ⟨(), by simp [admissible.scanId], (), by
      simp [admissible.repositoryUrl], (), admissible.results, commit,
      admissible.commit, (), ?_, rfl⟩
    rintro ⟨incomplete, present⟩
    rcases admissible.score with complete | absent
    · exact incomplete complete
    · rw [absent] at present
      exact Bool.noConfusion present

omit [TextDigest] in
theorem Admissible.validCommit {request : CanonicalAuditRequest}
    {commit : Option Text} (admissible : Admissible request commit) :
    ValidCommit commit :=
  validateSnapshotCommit_valid admissible.commit

/-! ## Scanner runs -/

omit [TextDigest] in
theorem mem_canonicalScannerRuns {results : List ScannerResult}
    {run : CanonicalScannerRun} :
    run ∈ canonicalScannerRuns results ↔
      ∃ result ∈ results, canonicalScannerRun result = run := by
  simp [canonicalScannerRuns]

omit [TextDigest] in
theorem coverageKnown_canonicalScannerRun (result : ScannerResult) :
    (canonicalScannerRun result).coverageKnown = result.outcome.isSuccess := by
  simp only [canonicalScannerRun, canonicalStatus]
  cases result.outcome with
  | success findingCount =>
      by_cases zero : findingCount = 0 <;>
        simp [zero, CanonicalScannerStatus.coverageKnown,
          ScannerOutcome.isSuccess]
  | failed reason =>
      dsimp only
      split <;> rfl
  | timeout | cancelled => rfl

variable (results : List ScannerResult)

omit [TextDigest] in
/-- Coverage is complete when every scanner succeeded. -/
theorem coverageOf_complete_iff :
    (coverageOf results).status = .complete ↔
      ∀ result ∈ results, result.outcome.isSuccess = true := by
  have counted :
      (coverageOf results).status = .complete ↔
        ((canonicalScannerRuns results).filter (·.coverageKnown)).length =
          (canonicalScannerRuns results).length := by
    simp only [coverageOf, canonicalCoverage, length_sortBy, List.length_map]
    split
    · simp_all
    · split <;> simp_all
  rw [counted, List.length_filter_eq_length_iff]
  constructor
  · intro known result member
    rw [← coverageKnown_canonicalScannerRun]
    exact known _ (mem_canonicalScannerRuns.2 ⟨result, member, rfl⟩)
  · intro success run member
    rcases mem_canonicalScannerRuns.1 member with ⟨result, inside, rfl⟩
    rw [coverageKnown_canonicalScannerRun]
    exact success result inside

omit [TextDigest] in
theorem complete_eq :
    (coverageOf results).complete =
      decide ((coverageOf results).status = .complete) := by
  simp only [coverageOf, canonicalCoverage]
  rw [Bool.eq_iff_iff]
  simp

omit [TextDigest] in
theorem complete_iff :
    (coverageOf results).complete = true ↔
      ∀ result ∈ results, result.outcome.isSuccess = true := by
  rw [complete_eq, decide_eq_true_eq, coverageOf_complete_iff]

/-! ## Counts of the kept findings -/

theorem finding_count_eq (commit : Option Text) :
    (auditDocument request commit).summary.findingCount =
      (auditDocument request commit).findings.length := by
  have counted :=
    SortedMap.sum_countBy
      (fun normalized : NormalizedFinding => normalized.provenance.scanner)
      (normalizeFindings request.findings commit).valid
  simp only [auditDocument, canonicalSummary, List.length_map]
  exact counted

theorem valid_eq_nil_iff (findings : List Finding)
    (snapshotCommit : Option Text) :
    (normalizeFindings findings snapshotCommit).valid = [] ↔
      accepted findings snapshotCommit = [] := by
  have keys := map_canonicalId_representatives findings snapshotCommit
  rw [normalizeFindings_valid]
  constructor
  · intro empty
    rw [empty, List.map_nil] at keys
    by_contra present
    rcases List.exists_mem_of_ne_nil _ present with ⟨normalized, member⟩
    have key :
        normalized.canonicalId ∈ (groups findings snapshotCommit).keys :=
      (SortedMap.mem_keys_groupBy_iff _ _ _).2 ⟨normalized, member, rfl⟩
    rw [← keys] at key
    exact List.not_mem_nil key
  · intro empty
    simp [groups, empty, SortedMap.groupBy]

/-! ## The coverage state of the report -/

omit [TextDigest] in
theorem isCancelled_of_success {result : ScannerResult}
    (success : result.outcome.isSuccess = true) :
    isCancelled (canonicalScannerRun result).status = false ∧
      isTimeout (canonicalScannerRun result).status = false := by
  simp only [canonicalScannerRun, canonicalStatus]
  cases outcome : result.outcome with
  | success findingCount =>
      by_cases zero : findingCount = 0 <;>
        simp [zero, isCancelled, isTimeout]
  | failed | timeout | cancelled => simp [outcome, ScannerOutcome.isSuccess] at success

/-- With every scanner successful the state depends on the findings alone. -/
theorem deriveCoverageState_of_success {request : CanonicalAuditRequest}
    (commit : Option Text)
    (success : ∀ result ∈ request.results,
      result.outcome.isSuccess = true) :
    deriveCoverageState (auditDocument request commit) =
      if accepted request.findings commit = [] then .successClean
      else .successFindings := by
  have noneCancelled :
      ((auditDocument request commit).scannerRuns.any
        fun run => isCancelled run.status) = false := by
    rw [List.any_eq_false]
    intro run member
    rcases mem_canonicalScannerRuns.1 member with ⟨result, inside, rfl⟩
    simp [isCancelled_of_success (success result inside)]
  have noneTimeout :
      ((auditDocument request commit).scannerRuns.any
        fun run => isTimeout run.status) = false := by
    rw [List.any_eq_false]
    intro run member
    rcases mem_canonicalScannerRuns.1 member with ⟨result, inside, rfl⟩
    simp [isCancelled_of_success (success result inside)]
  have complete : (auditDocument request commit).coverage.complete = true :=
    (complete_iff request.results).2 success
  have count :
      (auditDocument request commit).summary.findingCount = 0 ↔
        accepted request.findings commit = [] := by
    rw [finding_count_eq, List.length_eq_zero_iff, ← valid_eq_nil_iff]
    exact List.map_eq_nil_iff
  rw [deriveCoverageState, noneCancelled, noneTimeout, complete]
  simp [count]

/-- A successful state is reported only over complete coverage. -/
theorem success_of_deriveCoverageState {request : CanonicalAuditRequest}
    {commit : Option Text}
    (known :
      (deriveCoverageState (auditDocument request commit)).coverageKnown =
        true) :
    ∀ result ∈ request.results, result.outcome.isSuccess = true := by
  rw [← complete_iff]
  unfold deriveCoverageState at known
  split at known
  · exact Bool.noConfusion known
  split at known
  · exact Bool.noConfusion known
  split at known
  · assumption
  · dsimp only at known
    split at known <;> exact Bool.noConfusion known

theorem buildReport_document
    (commit : Option Text) (execution : ExecutionIdentity) :
    ∃ report, buildReport (auditDocument request commit) execution =
      .ok report ∧
      report.coverage.state =
        deriveCoverageState (auditDocument request commit) := by
  simp [buildReport, auditDocument]

end FireCrow.Orchestrator
