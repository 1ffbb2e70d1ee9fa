import FireCrow.Orchestrator.CleanReport
import FireCrow.Orchestrator.Pipeline

/-!
# The verdict of the pipeline and the canonical document

An execution ends completed or partial by the completeness that the pipeline
tracks, and the canonical document persisted with it states its own.  A
quarantined finding lowers the first and not the second, so the two agree
exactly when no finding of a successful scanner is refused, or when no document
is reached at all.
-/

namespace FireCrow.Orchestrator

open FireCrow.Library FireCrow.Schemas FireCrow.Agents

section Verdict

variable [FloatFormat] [TextDigest]

/-- The state of the execution and the persisted document say the same. -/
structure VerdictsAgree (finalization : Finalization)
    (ended : FinalizedExecution) : Prop where
  completed :
    (ended.status = .completed ∧ ended.securityScore.isSome = true) ↔
      ∃ audit report, ended.canonical = some audit ∧
        ended.report = some report ∧ audit.coverage.complete = true ∧
        (report.coverage.state = .successClean ∨
          report.coverage.state = .successFindings)
  partial_ :
    (ended.status = .partial_ ∧ ended.securityScore = none) ↔
      ∃ audit, ended.canonical = some audit ∧ audit.coverage.complete = false
  limitations : ∀ audit, ended.canonical = some audit →
    finalization.coverageLimitations = audit.limitations

/-- No scanner was cancelled, one succeeded, and the audit can be identified. -/
structure ReachesDocument (scanners : ScannerResults)
    (state : AuditState) : Prop where
  uncancelled : ∀ result ∈ scanners.toList, result.outcome ≠ .cancelled
  analyzed : ∃ result ∈ scanners.toList, result.outcome.isSuccess = true
  jobId : state.jobId.isBlank = false
  repoUrl : state.repoUrl.isBlank = false
  commit : ∃ commit, validateSnapshotCommit state.commitSha = .ok commit

/-- Every finding of a successful scanner passes validation. -/
def NothingRefused (scanners : ScannerResults) : Prop :=
  ∀ result ∈ scanners.toList, result.outcome.isSuccess = true →
    ∀ finding ∈ result.findings, ∃ normalized,
      normalizeFinding finding none = .ok normalized

/-- The state of the pipeline when the report is built. -/
def scored (scanners : ScannerResults) (state : AuditState) : AuditState :=
  scorePhase (normalizePhase (scanned scanners state))

/-! ## Quarantine -/

theorem rejected_eq_nil_iff (findings : List Finding)
    (snapshotCommit : Option Text) :
    rejected findings snapshotCommit = [] ↔
      ∀ finding ∈ findings, ∃ normalized,
        normalizeFinding finding snapshotCommit = .ok normalized := by
  rw [List.eq_nil_iff_forall_not_mem]
  constructor
  · intro none finding member
    cases normal : normalizeFinding finding snapshotCommit with
    | ok normalized => exact ⟨normalized, rfl⟩
    | error reason =>
        exact absurd
          (mem_rejected.2 ⟨finding, member, reason, normal, rfl⟩) (none _)
  · intro all item member
    rcases mem_rejected.1 member with ⟨finding, inside, reason, refused, _⟩
    rcases all finding inside with ⟨normalized, normal⟩
    rw [refused] at normal
    cases normal

theorem nothingRefused_iff (scanners : ScannerResults) :
    NothingRefused scanners ↔
      rejected (aggregateScanResults scanners.toList).1 none = [] := by
  simp only [rejected_eq_nil_iff, aggregateScanResults, List.mem_flatMap,
    List.mem_filter, ScannerResult.usable, ScannerResult.analyzed]
  constructor
  · rintro accepts finding ⟨result, ⟨member, success⟩, inside⟩
    exact accepts result member success finding inside
  · intro accepts result member success finding inside
    exact accepts finding ⟨result, ⟨member, success⟩, inside⟩

theorem invalid_isEmpty_iff (scanners : ScannerResults) (state : AuditState) :
    (normalizeFindingsForPersist
        (scanned scanners state).findings).invalid.isEmpty = true ↔
      NothingRefused scanners := by
  rw [nothingRefused_iff, normalizeFindingsForPersist_invalid,
    List.isEmpty_iff, ← List.length_eq_zero_iff, length_identifyInvalid,
    List.length_eq_zero_iff]
  rfl

variable {scanners : ScannerResults}

/-- Without quarantine the state keeps the coverage of the run states. -/
theorem scored_of_nothingRefused
    (state : AuditState) (accepts : NothingRefused scanners) :
    (scored scanners state).coverageComplete =
        (coverageOf scanners.toList).complete ∧
      (scored scanners state).coverageLimitations =
        (coverageOf scanners.toList).limitations := by
  have empty := (invalid_isEmpty_iff scanners state).2 accepts
  simp only [scored, scorePhase, normalizePhase, empty, if_true]
  exact ⟨rfl, rfl⟩

/-- Quarantine lowers the coverage of the state and limits it. -/
theorem scored_of_refused (state : AuditState)
    (refused : ¬ NothingRefused scanners) :
    (scored scanners state).coverageComplete = false ∧
      ∃ count, quarantinedText count ∈
        (scored scanners state).coverageLimitations := by
  have present : (normalizeFindingsForPersist
      (scanned scanners state).findings).invalid.isEmpty = false := by
    rw [← Bool.not_eq_true, invalid_isEmpty_iff]
    exact refused
  simp only [scored, scorePhase, normalizePhase, present, Bool.false_eq_true,
    if_false]
  refine ⟨trivial, (normalizeFindingsForPersist
    (scanned scanners state).findings).invalid.length, ?_⟩
  rw [mem_destutter_ne, mem_sortBy]
  exact List.mem_append_right _ (List.mem_singleton_self _)

omit [TextDigest] in
/-- Every limitation of the coverage names its scanner. -/
theorem coverageOf_limitations_scanner {results : List ScannerResult}
    {limitation : Text} (member : limitation ∈ (coverageOf results).limitations) :
    ∃ rest, limitation = ("scanner " : Text) ++ rest := by
  simp only [coverageOf, canonicalCoverage, SortedMap.mem_distinct_iff,
    List.mem_flatMap] at member
  rcases member with ⟨run, inside, found⟩
  rcases mem_canonicalScannerRuns.1 inside with ⟨result, _, rfl⟩
  rcases List.mem_append.1 found with unknown | rejections
  · simp only [coverageLimitation] at unknown
    split at unknown
    · exact absurd unknown List.not_mem_nil
    · rw [List.mem_singleton] at unknown
      exact ⟨_, by rw [unknown, List.append_assoc, List.append_assoc,
        List.append_assoc]⟩
  · rcases rejectedLimitation_isRejection rejections with ⟨rejected, rfl⟩
    exact ⟨_, rfl⟩

omit [TextDigest] in
/-- A quarantine is no limitation of the coverage: its text starts with a
digit. -/
theorem quarantinedText_not_mem (results : List ScannerResult) (count : Nat) :
    quarantinedText count ∉ (coverageOf results).limitations := by
  intro member
  rcases coverageOf_limitations_scanner member with ⟨rest, equal⟩
  have digits := Text.ofNat_digits count
  cases written : Text.ofNat count with
  | nil => exact Text.ofNat_ne_nil count written
  | cons digit digitsRest =>
      have first : digit = 's' := by
        rw [quarantinedText, written] at equal
        exact (List.cons.inj equal).1
      rw [written, first] at digits
      exact absurd (List.all_eq_true.1 digits _ List.mem_cons_self) (by decide)

/-- The state has the coverage of the run states exactly when nothing was
refused. -/
theorem scored_coverage_iff (scanners : ScannerResults) (state : AuditState) :
    ((scored scanners state).coverageComplete =
        (coverageOf scanners.toList).complete ∧
      (scored scanners state).coverageLimitations =
        (coverageOf scanners.toList).limitations) ↔
      NothingRefused scanners := by
  constructor
  · rintro ⟨_, limited⟩
    by_contra refused
    rcases (scored_of_refused state refused).2 with ⟨count, member⟩
    rw [limited] at member
    exact quarantinedText_not_mem _ count member
  · exact scored_of_nothingRefused state

/-! ## The run of the pipeline -/

omit [TextDigest] in
theorem scanPhase_eq_ok_iff (scanners : ScannerResults)
    (state next : AuditState) :
    scanPhase scanners state = .ok next ↔
      next = scanned scanners state ∧
        (∀ result ∈ scanners.toList, result.outcome ≠ .cancelled) ∧
        ∃ result ∈ scanners.toList, result.outcome.isSuccess = true := by
  have analyzed : (scanned scanners state).analysisPerformed = true ↔
      ∃ result ∈ scanners.toList, result.outcome.isSuccess = true :=
    List.any_eq_true
  have uncancelled :
      ¬ (scanners.toList.any fun result => result.outcome == .cancelled) =
          true ↔
        ∀ result ∈ scanners.toList, result.outcome ≠ .cancelled := by
    simp
  have performed : ¬ (!(scanned scanners state).analysisPerformed) = true ↔
      (scanned scanners state).analysisPerformed = true := by
    simp
  simp only [scanPhase, Result.bind_eq_ok, Result.pure_eq_ok,
    Result.refuseIf_eq_ok, uncancelled, performed, analyzed]
  constructor
  · rintro ⟨_, running, _, success, rfl⟩
    exact ⟨rfl, running, success⟩
  · rintro ⟨rfl, running, success⟩
    exact ⟨(), running, (), success, rfl⟩

theorem scored_identity (scanners : ScannerResults) (state : AuditState) :
    (scored scanners state).jobId = state.jobId ∧
      (scored scanners state).repoUrl = state.repoUrl ∧
      (scored scanners state).commitSha = state.commitSha := by
  simp only [scored, scorePhase, normalizePhase]
  split <;> exact ⟨rfl, rfl, rfl⟩

/-- The score never contradicts the coverage of the document. -/
theorem scored_score (scanners : ScannerResults) (state : AuditState) :
    (coverageOf scanners.toList).status = .complete ∨
      (scored scanners state).securityScore = none := by
  by_cases complete : (scored scanners state).coverageComplete = true
  · left
    by_cases accepts : NothingRefused scanners
    · rw [(scored_of_nothingRefused state accepts).1, complete_eq,
        decide_eq_true_eq] at complete
      exact complete
    · rw [(scored_of_refused state accepts).1] at complete
      exact Bool.noConfusion complete
  · right
    have incomplete : (scored scanners state).coverageComplete = false :=
      Bool.eq_false_of_not_eq_true complete
    show scoreScan (scored scanners state).coverageComplete _ = none
    rw [incomplete]
    rfl

/-- The request that the report phase builds, when it is accepted. -/
theorem admissible_auditRequest_iff (snapshot : Snapshot)
    (scanners : ScannerResults) (state : AuditState) (commit : Option Text) :
    Admissible (auditRequest snapshot scanners (scored scanners state)) commit ↔
      state.jobId.isBlank = false ∧ state.repoUrl.isBlank = false ∧
        validateSnapshotCommit state.commitSha = .ok commit := by
  rcases scored_identity scanners state with ⟨job, repository, sha⟩
  rw [← job, ← repository, ← sha]
  constructor
  · intro admissible
    exact ⟨admissible.scanId, admissible.repositoryUrl, admissible.commit⟩
  · rintro ⟨jobId, repoUrl, valid⟩
    exact {
      scanId := jobId
      repositoryUrl := repoUrl
      results := List.cons_ne_nil _ _
      commit := valid
      score := scored_score scanners state }

variable (lease : ExecutionIdentity)

theorem reportPhase_eq_ok_iff (snapshot : Snapshot)
    (scanners : ScannerResults) (state next : AuditState) :
    reportPhase lease snapshot scanners state = .ok next ↔
      ∃ commit report,
        Admissible (auditRequest snapshot scanners state) commit ∧
        buildReport
          (auditDocument (auditRequest snapshot scanners state) commit) lease =
          .ok report ∧
        next =
          { state with
            canonical :=
              some (auditDocument (auditRequest snapshot scanners state) commit)
            report := some report } := by
  simp only [reportPhase, Result.bind_eq_ok, Result.pure_eq_ok,
    Result.mapError_eq_ok, canonicalAudit_eq_ok_iff]
  constructor
  · rintro ⟨_, ⟨commit, admissible, rfl⟩, report, built, rfl⟩
    exact ⟨commit, report, admissible, built, rfl⟩
  · rintro ⟨commit, report, admissible, built, rfl⟩
    exact ⟨_, ⟨commit, admissible, rfl⟩, report, built, rfl⟩

/-- The document of the report phase and its report state the coverage of the
run states. -/
structure PresentsRuns (scanners : ScannerResults) (audit : CanonicalAudit)
    (report : CanonicalAuditReport) : Prop where
  complete : audit.coverage.complete = (coverageOf scanners.toList).complete
  limitations : audit.limitations = (coverageOf scanners.toList).limitations
  state : audit.coverage.complete = true →
    report.coverage.state = .successClean ∨
      report.coverage.state = .successFindings

variable {state : AuditState}

theorem presentsRuns {snapshot : Snapshot}
    {commit : Option Text}
    {report : CanonicalAuditReport}
    (shown : report.coverage.state =
      deriveCoverageState
        (auditDocument (auditRequest snapshot scanners state) commit)) :
    PresentsRuns scanners
      (auditDocument (auditRequest snapshot scanners state) commit) report where
  complete := rfl
  limitations := rfl
  state := by
    intro complete
    rw [shown, deriveCoverageState_of_success commit
      ((complete_iff scanners.toList).1 complete)]
    split
    · exact Or.inl rfl
    · exact Or.inr rfl

/-- A run that reaches its document ends by the coverage of the state. -/
theorem runPipeline_of_reaches
    (snapshot : Snapshot)
    (reaches : ReachesDocument scanners state) :
    ∃ audit report, PresentsRuns scanners audit report ∧
      runPipeline lease snapshot scanners state =
        ({ scored scanners state with
            canonical := some audit
            report := some report },
          coverageOutcome (scored scanners state)) := by
  rcases reaches.commit with ⟨commit, valid⟩
  have admissible :
      Admissible (auditRequest snapshot scanners (scored scanners state))
        commit :=
    (admissible_auditRequest_iff _ _ _ _).2
      ⟨reaches.jobId, reaches.repoUrl, valid⟩
  rcases buildReport_document
    (auditRequest snapshot scanners (scored scanners state)) commit lease with
    ⟨report, built, shown⟩
  have scan := (scanPhase_eq_ok_iff scanners state _).2
    ⟨rfl, reaches.uncancelled, reaches.analyzed⟩
  have reported := (reportPhase_eq_ok_iff lease snapshot scanners
    (scored scanners state) _).2 ⟨commit, report, admissible, built, rfl⟩
  refine ⟨_, report, presentsRuns shown, ?_⟩
  unfold runPipeline
  rw [scan]
  simp only
  rw [show scorePhase (normalizePhase (scanned scanners state)) =
    scored scanners state from rfl, reported]
  rfl

theorem runPipeline_of_not_reaches (snapshot : Snapshot)
    (unreached : ¬ ReachesDocument scanners state) :
    ∃ phase error,
      (runPipeline lease snapshot scanners state).2 =
        .failed phase error := by
  cases scan : scanPhase scanners state with
  | error error =>
      exact ⟨"scan", error, by rw [runPipeline, scan]⟩
  | ok next =>
      rcases (scanPhase_eq_ok_iff _ _ _).1 scan with
        ⟨rfl, uncancelled, analyzed⟩
      cases reported : reportPhase lease snapshot scanners
          (scorePhase (normalizePhase (scanned scanners state))) with
      | error error =>
          exact ⟨"report", error, by
            rw [runPipeline, scan]
            simp only [reported]⟩
      | ok final =>
          rcases (reportPhase_eq_ok_iff _ _ _ _ _).1 reported with
            ⟨commit, _, admissible, _⟩
          rcases (admissible_auditRequest_iff _ _ _ _).1 admissible with
            ⟨jobId, repoUrl, valid⟩
          exact absurd
            { uncancelled := uncancelled
              analyzed := analyzed
              jobId := jobId
              repoUrl := repoUrl
              commit := ⟨commit, valid⟩ }
            unreached

/-! ## Agreement -/

/-- What an uncancelled execution ends with. -/
def ended (lease : ExecutionIdentity) (snapshot : Snapshot)
    (scanners : ScannerResults) (state : AuditState) :
    Finalization × FinalizedExecution :=
  let run := runPipeline lease snapshot scanners state
  let finalization := finalizationOf run.1 run.2
  (finalization, finalizeExecution false finalization)

omit [TextDigest] in
/-- A failed execution persists no document and is neither completed nor
partial. -/
theorem verdictsAgree_of_failed (final : AuditState) (phase : Text)
    (error : AppError) :
    VerdictsAgree (finalizationOf final (.failed phase error))
      (finalizeExecution false (finalizationOf final (.failed phase error))) where
  completed := by
    simp [finalizationOf, withoutResult, finalizeExecution, finalStatus]
  partial_ := by
    simp [finalizationOf, withoutResult, finalizeExecution, finalStatus]
  limitations := by
    intro audit present
    cases present

omit [TextDigest] in
theorem finalized_coverageOutcome (final : AuditState)
    (score : final.securityScore =
      scoreScan final.coverageComplete final.findings.length) :
    let finalization := finalizationOf final (coverageOutcome final)
    let execution := finalizeExecution false finalization
    ((execution.status = .completed ∧ execution.securityScore.isSome = true) ↔
        final.coverageComplete = true) ∧
      ((execution.status = .partial_ ∧ execution.securityScore = none) ↔
        final.coverageComplete = false) ∧
      finalization.coverageLimitations = final.coverageLimitations ∧
      execution.canonical = final.canonical ∧
      execution.report = final.report := by
  cases complete : final.coverageComplete with
  | true =>
      rw [complete] at score
      simp [coverageOutcome, complete, finalizationOf, finalizeExecution,
        finalStatus, finalScore, score, scoreScan]
  | false =>
      simp [coverageOutcome, complete, finalizationOf, finalizeExecution,
        finalStatus, finalScore]

omit [TextDigest] in
/-- With a document the verdicts agree exactly when the state has the coverage
of the document. -/
theorem verdictsAgree_iff_coverage {final : AuditState}
    {audit : CanonicalAudit} {report : CanonicalAuditReport}
    (score : final.securityScore =
      scoreScan final.coverageComplete final.findings.length)
    (canonical : final.canonical = some audit)
    (reported : final.report = some report)
    (state : audit.coverage.complete = true →
      report.coverage.state = .successClean ∨
        report.coverage.state = .successFindings) :
    VerdictsAgree (finalizationOf final (coverageOutcome final))
        (finalizeExecution false
          (finalizationOf final (coverageOutcome final))) ↔
      final.coverageComplete = audit.coverage.complete ∧
        final.coverageLimitations = audit.limitations := by
  rcases finalized_coverageOutcome final score with
    ⟨completed, incomplete, limitations, document, presented⟩
  have complete :
      (∃ found shown, some audit = some found ∧ some report = some shown ∧
        found.coverage.complete = true ∧
        (shown.coverage.state = .successClean ∨
          shown.coverage.state = .successFindings)) ↔
      audit.coverage.complete = true := by
    constructor
    · rintro ⟨_, _, ⟨⟩, ⟨⟩, covered, _⟩
      exact covered
    · intro covered
      exact ⟨audit, report, rfl, rfl, covered, state covered⟩
  constructor
  · intro agree
    have covered := agree.completed
    rw [completed, document, presented, canonical, reported, complete] at covered
    refine ⟨Bool.eq_iff_iff.2 covered, ?_⟩
    rw [← limitations]
    exact agree.limitations audit (document.trans canonical)
  · rintro ⟨covered, limited⟩
    exact {
      completed := by
        rw [completed, document, presented, canonical, reported, complete,
          covered]
      partial_ := by
        rw [incomplete, document, canonical, covered]
        simp
      limitations := by
        intro found present
        rw [document, canonical] at present
        cases present
        rw [limitations, limited] }

/-- With a document reached, the verdicts agree when nothing was refused. -/
theorem verdictsAgree_iff_of_reaches (snapshot : Snapshot)
    (reaches : ReachesDocument scanners state) :
    VerdictsAgree (ended lease snapshot scanners state).1
        (ended lease snapshot scanners state).2 ↔
      NothingRefused scanners := by
  rcases runPipeline_of_reaches lease snapshot reaches with
    ⟨audit, report, presents, run⟩
  have agree := verdictsAgree_iff_coverage
    (show (runPipeline lease snapshot scanners state).1.securityScore = _ by
      rw [run]
      rfl)
    (by rw [run]) (by rw [run]) presents.state
  have outcome :
      coverageOutcome (runPipeline lease snapshot scanners state).1 =
        (runPipeline lease snapshot scanners state).2 := by
    rw [run]
    rfl
  rw [outcome, presents.complete, presents.limitations] at agree
  refine agree.trans ?_
  rw [run]
  exact scored_coverage_iff scanners state

/--
The state of an execution and its persisted document say the same exactly when
no document is reached or no finding of a successful scanner is refused.
-/
theorem verdicts_agree_iff (lease : ExecutionIdentity) (snapshot : Snapshot)
    (scanners : ScannerResults) (state : AuditState) :
    VerdictsAgree (ended lease snapshot scanners state).1
        (ended lease snapshot scanners state).2 ↔
      (ReachesDocument scanners state → NothingRefused scanners) := by
  by_cases reaches : ReachesDocument scanners state
  · rw [verdictsAgree_iff_of_reaches lease snapshot reaches,
      imp_iff_right reaches]
  · rcases runPipeline_of_not_reaches lease snapshot reaches with
      ⟨phase, error, failed⟩
    refine iff_of_true ?_ fun reached => absurd reached reaches
    simp only [ended, failed]
    exact verdictsAgree_of_failed _ phase error

end Verdict

/-! ## A quarantined detection -/

section Samples

attribute [local instance] FloatFormat.integersOnly TextDigest.sha256

/-- The successful result of a scanner. -/
def successfulResult (scanner mode : Text) (findings : List Finding) :
    ScannerResult where
  scanner := scanner
  version := "1"
  mode := mode
  outcome := .success findings.length
  findings := findings
  executionRecord := .null

def initialState : AuditState where
  jobId := "job-1"
  repoUrl := "https://github.com/acme/app"
  repoBranch := "main"
  repoOwner := "acme"
  repoName := "app"
  commitSha := none
  findings := []
  securityScore := none
  scannerExecution := ∅
  analysisPerformed := false
  coverageComplete := false
  coverageDetail := none
  coverageLimitations := []
  canonical := none
  report := none

/-- Three successful scanners, of which Gitleaks found one row that is
refused. -/
def quarantineScan : ScannerResults where
  secret := successfulResult "gitleaks" "secret" [apiKeyRow]
  dependency := successfulResult "osv" "dependency" []
  sast := successfulResult "semgrep" "sast" []
  findingsFit := by decide

theorem quarantineScan_reaches :
    ReachesDocument quarantineScan initialState where
  uncancelled := by decide
  analyzed := by decide
  jobId := by decide
  repoUrl := by decide
  commit := ⟨none, rfl⟩

/-- The execution ends partial while its document is complete. -/
theorem quarantined_verdicts_disagree :
    ¬ ∀ (lease : ExecutionIdentity) (snapshot : Snapshot)
      (scanners : ScannerResults) (state : AuditState),
      VerdictsAgree (ended lease snapshot scanners state).1
        (ended lease snapshot scanners state).2 := by
  intro claim
  have agree := claim ⟨"execution-1", 1⟩ ⟨1, 10⟩ quarantineScan initialState
  have accepts :=
    (verdictsAgree_iff_of_reaches _ _ quarantineScan_reaches).1 agree
  rcases accepts quarantineScan.secret List.mem_cons_self rfl apiKeyRow
    List.mem_cons_self with ⟨normalized, normal⟩
  have refused := apiKeyRow_refused
  rw [normal] at refused
  exact Bool.noConfusion refused

end Samples

end FireCrow.Orchestrator
