import FireCrow.Orchestrator.Document

/-!
# Clean reports

A report whose state is `SuccessClean` says that all scanners completed and
reported no findings.  The state is taken from the kept findings and the
completeness from the run states, so a report is also clean when every
detection was quarantined on the way.
-/

namespace FireCrow.Orchestrator

open FireCrow.Library FireCrow.Schemas FireCrow.Agents

section Soundness

variable [FloatFormat] [TextDigest]

/-- A limitation that reports rejected detections. -/
def IsRejectionLimitation (limitation : Text) : Prop :=
  ∃ rejected : Nat,
    limitation =
      ("scanner semgrep excluded " : Text) ++ Text.ofNat rejected ++
        (" detections with invalid locations" : Text)

/-- No detection was dropped on the way to the document. -/
structure NothingDropped (audit : CanonicalAudit) : Prop where
  runs : ∀ run ∈ audit.scannerRuns, run.findingCount = some 0
  invalid : audit.invalidFindings = []
  rejections : ∀ run ∈ audit.scannerRuns, ∀ limitation ∈ run.limitations,
    ¬ IsRejectionLimitation limitation

/-- A scanner that detected nothing and rejected nothing. -/
def DetectedNothing (result : ScannerResult) : Prop :=
  result.outcome = .success 0 ∧ rejectedLimitation result = []

/--
Some scanner did not succeed, some finding passes validation, or there was
nothing to find.
-/
def CleanCondition (request : CanonicalAuditRequest) : Prop :=
  (∃ result ∈ request.results, result.outcome.isSuccess = false) ∨
    (∃ finding ∈ request.findings, ∃ normalized,
      normalizeFinding finding none = .ok normalized) ∨
    (request.findings = [] ∧
      ∀ result ∈ request.results, DetectedNothing result)

variable {commit : Option Text}

theorem accepted_ne_nil_iff (findings : List Finding)
    (valid : ValidCommit commit) :
    accepted findings commit ≠ [] ↔
      ∃ finding ∈ findings, ∃ normalized,
        normalizeFinding finding none = .ok normalized := by
  rw [accepted_valid valid]
  constructor
  · intro present
    rcases List.exists_mem_of_ne_nil _ present with ⟨recommitted, member⟩
    rcases List.mem_map.1 member with ⟨normalized, member, _⟩
    rcases mem_accepted.1 member with ⟨finding, inside, accepts⟩
    exact ⟨finding, inside, normalized,
      (normalizeFinding_eq_ok_iff _ _ _).2 accepts⟩
  · rintro ⟨finding, inside, normalized, normal⟩ empty
    have member : normalized ∈ accepted findings none :=
      mem_accepted.2
        ⟨finding, inside, (normalizeFinding_eq_ok_iff _ _ _).1 normal⟩
    rw [List.map_eq_nil_iff.1 empty] at member
    exact List.not_mem_nil member

omit [FloatFormat] in
theorem length_numberInvalid (lastKey : Option InvalidKey)
    (occurrence : Nat) (invalid : List InvalidFinding) :
    (numberInvalid lastKey occurrence invalid).length = invalid.length := by
  induction invalid generalizing lastKey occurrence with
  | nil => rfl
  | cons item rest ih => simp [numberInvalid, ih]

omit [FloatFormat] in
theorem length_identifyInvalid (invalid : List InvalidFinding) :
    (identifyInvalid invalid).length = invalid.length := by
  rw [identifyInvalid, length_numberInvalid, length_sortBy]

/-- With nothing accepted, nothing is quarantined only when nothing came. -/
theorem invalid_eq_nil_iff {findings : List Finding}
    (none : accepted findings commit = []) :
    (normalizeFindings findings commit).invalid = [] ↔ findings = [] := by
  have total := length_accepted_add_rejected findings commit
  rw [none, List.length_nil, Nat.zero_add] at total
  rw [normalizeFindings_invalid, ← List.length_eq_zero_iff,
    length_identifyInvalid, total, List.length_eq_zero_iff]

omit [TextDigest] in
theorem rejectedLimitation_isRejection {result : ScannerResult}
    {limitation : Text} (member : limitation ∈ rejectedLimitation result) :
    IsRejectionLimitation limitation := by
  unfold rejectedLimitation at member
  split at member
  · split at member
    · split at member
      · exact ⟨_, List.mem_singleton.1 member⟩
      · exact absurd member List.not_mem_nil
    · exact absurd member List.not_mem_nil
  · exact absurd member List.not_mem_nil

omit [TextDigest] in
/-- What the run of a successful scanner shows. -/
theorem detectedNothing_iff {result : ScannerResult}
    (success : result.outcome.isSuccess = true) :
    DetectedNothing result ↔
      (canonicalScannerRun result).findingCount = some 0 ∧
        ∀ limitation ∈ (canonicalScannerRun result).limitations,
          ¬ IsRejectionLimitation limitation := by
  have known := coverageKnown_canonicalScannerRun result
  rw [success] at known
  have limitations :
      (canonicalScannerRun result).limitations =
        rejectedLimitation result := by
    have covered : (canonicalStatus result).coverageKnown = true := known
    simp [canonicalScannerRun, coverageLimitation, covered]
  have counted :
      (canonicalScannerRun result).findingCount = some 0 ↔
        result.outcome = .success 0 := by
    simp only [canonicalScannerRun, canonicalStatus]
    cases outcome : result.outcome with
    | success findingCount =>
        by_cases zero : findingCount = 0 <;>
          simp [zero, CanonicalScannerStatus.findingCount]
    | failed | timeout | cancelled => simp [outcome, ScannerOutcome.isSuccess] at success
  rw [DetectedNothing, counted, limitations]
  refine and_congr_right fun _ => ?_
  constructor
  · intro empty limitation member
    rw [empty] at member
    exact absurd member List.not_mem_nil
  · intro none
    rw [List.eq_nil_iff_forall_not_mem]
    intro limitation member
    exact none limitation member (rejectedLimitation_isRejection member)

/-- Over complete coverage with nothing accepted, nothing was dropped exactly
when there was nothing to drop. -/
theorem nothingDropped_iff {request : CanonicalAuditRequest}
    (success : ∀ result ∈ request.results, result.outcome.isSuccess = true)
    (none : accepted request.findings commit = []) :
    NothingDropped (auditDocument request commit) ↔
      request.findings = [] ∧
        ∀ result ∈ request.results, DetectedNothing result := by
  have empty := invalid_eq_nil_iff none
  constructor
  · intro dropped
    refine ⟨empty.1 dropped.invalid, ?_⟩
    intro result member
    have run : canonicalScannerRun result ∈
        (auditDocument request commit).scannerRuns :=
      mem_canonicalScannerRuns.2 ⟨result, member, rfl⟩
    exact (detectedNothing_iff (success result member)).2
      ⟨dropped.runs _ run, dropped.rejections _ run⟩
  · rintro ⟨noFindings, nothing⟩
    have shown : ∀ run ∈ (auditDocument request commit).scannerRuns,
        run.findingCount = some 0 ∧ ∀ limitation ∈ run.limitations,
          ¬ IsRejectionLimitation limitation := by
      intro run member
      rcases mem_canonicalScannerRuns.1 member with ⟨result, inside, rfl⟩
      exact (detectedNothing_iff (success result inside)).1
        (nothing result inside)
    exact {
      runs := fun run member => (shown run member).1
      invalid := empty.2 noFindings
      rejections := fun run member => (shown run member).2 }

/-- A clean report is sound exactly under `CleanCondition`. -/
theorem clean_report_sound_iff {request : CanonicalAuditRequest}
    {audit : CanonicalAudit} {execution : ExecutionIdentity}
    {report : CanonicalAuditReport}
    (success : canonicalAudit request = .ok audit)
    (built : buildReport audit execution = .ok report) :
    (report.coverage.state = .successClean → NothingDropped audit) ↔
      CleanCondition request := by
  rcases (canonicalAudit_eq_ok_iff _ _).1 success with
    ⟨commit, admissible, rfl⟩
  rcases buildReport_document request commit execution with
    ⟨same, sameBuilt, state⟩
  cases Except.ok.inj (sameBuilt.symm.trans built)
  have valid := accepted_ne_nil_iff request.findings admissible.validCommit
  rw [state, CleanCondition, ← valid]
  by_cases successful :
      ∀ result ∈ request.results, result.outcome.isSuccess = true
  · have noFailure :
        ¬ ∃ result ∈ request.results, result.outcome.isSuccess = false := by
      rintro ⟨result, member, failed⟩
      rw [successful result member] at failed
      exact Bool.noConfusion failed
    rw [deriveCoverageState_of_success commit successful]
    by_cases none : accepted request.findings commit = []
    · have dropped := nothingDropped_iff successful none
      simp [none, noFailure, dropped]
    · simp [none]
  · have failure :
        ∃ result ∈ request.results, result.outcome.isSuccess = false := by
      simpa using successful
    refine iff_of_true ?_ (Or.inl failure)
    intro clean
    have known :
        (deriveCoverageState (auditDocument request commit)).coverageKnown =
          true := by
      rw [clean]
      rfl
    exact absurd (success_of_deriveCoverageState known) successful

end Soundness

/-! ## A quarantined detection -/

/-- A row for the Gitleaks rule `generic-api-key`: its own fingerprint reads
as a credential assignment. -/
def apiKeyRow : Finding where
  id := "row-1"
  agentSource := "gitleaks"
  title := "Detected a Generic API Key"
  description := "gitleaks rule generic-api-key: Detected a Generic API Key"
  severity := .high
  evidence := some "key = [REDACTED]"
  remediation := none
  cweId := some "CWE-798"
  owaspCategory := some "A07:2021"
  confidence := some "high"
  scannerName := some "gitleaks"
  scannerMode := some "secret"
  filePath := some "app.py"
  lineNumber := some 3
  metadataJson := some
    "\x7b\"fingerprint\":\"gitleaks:app.py:generic-api-key:3\",\"parser\":\"gitleaks-json-v1\",\"rule_id\":\"generic-api-key\",\"scanner_image\":\"gitleaks:8\",\"scanner_version\":\"8\"\x7d"

section Samples

attribute [local instance] FloatFormat.integersOnly TextDigest.sha256

theorem apiKeyRow_refused :
    (normalizeFinding apiKeyRow none).toOption.isNone = true := by
  -- the kernel reads a list of letters faster than a literal
  rw [apiKeyRow]
  repeat rw [String.toList_ofList]
  decide +kernel

/-- One successful Gitleaks run with the rows it found. -/
def gitleaksRequest (findings : List Finding)
    (fit : findings.length < 2 ^ 64) : CanonicalAuditRequest where
  scanId := "scan-1"
  repositoryUrl := "https://github.com/acme/app"
  repoBranch := "main"
  repoOwner := "acme"
  repoName := "app"
  snapshotCommit := none
  snapshotFileCount := 1
  snapshotTotalSize := 10
  results :=
    [{ scanner := "gitleaks"
       version := "8"
       mode := "secret"
       outcome := .success findings.length
       findings := findings
       executionRecord := .null }]
  findings := findings
  securityScore := none
  findingsFit := fit

theorem gitleaksRequest_admissible (findings : List Finding)
    (fit : findings.length < 2 ^ 64) :
    Admissible (gitleaksRequest findings fit) none where
  scanId := by
    show Text.isBlank "scan-1" = false
    decide
  repositoryUrl := by
    show Text.isBlank "https://github.com/acme/app" = false
    decide
  results := List.cons_ne_nil _ _
  commit := rfl
  score := Or.inr rfl

theorem gitleaksRequest_audit (findings : List Finding)
    (fit : findings.length < 2 ^ 64) :
    canonicalAudit (gitleaksRequest findings fit) =
      .ok (auditDocument (gitleaksRequest findings fit) none) :=
  (canonicalAudit_eq_ok_iff _ _).2
    ⟨none, gitleaksRequest_admissible findings fit, rfl⟩

/-- The report of a run without detections is clean and sound. -/
theorem clean_report_sound_iff_empty :
    ∃ audit report execution,
      canonicalAudit (gitleaksRequest [] (by decide)) = .ok audit ∧
        buildReport audit execution = .ok report ∧
        ((report.coverage.state = .successClean → NothingDropped audit) ↔
          CleanCondition (gitleaksRequest [] (by decide))) := by
  have success := gitleaksRequest_audit [] (by decide)
  rcases buildReport_document (gitleaksRequest [] (by decide)) none ⟨"e", 1⟩
    with ⟨report, built, _⟩
  exact ⟨_, report, ⟨"e", 1⟩, success, built,
    clean_report_sound_iff success built⟩

/-- The only detection is quarantined and the report is clean. -/
theorem quarantined_report_clean :
    ¬ ∀ (request : CanonicalAuditRequest) (audit : CanonicalAudit)
      (execution : ExecutionIdentity) (report : CanonicalAuditReport),
      canonicalAudit request = .ok audit →
        buildReport audit execution = .ok report →
          report.coverage.state = .successClean → NothingDropped audit := by
  intro claim
  have success := gitleaksRequest_audit [apiKeyRow] (by decide)
  rcases buildReport_document (gitleaksRequest [apiKeyRow] (by decide)) none
    ⟨"e", 1⟩ with ⟨report, built, state⟩
  have refusedAll : accepted [apiKeyRow] none = [] := by
    have refused := apiKeyRow_refused
    rw [Option.isNone_iff_eq_none] at refused
    simp [accepted, refused]
  have successful :
      ∀ result ∈ (gitleaksRequest [apiKeyRow] (by decide)).results,
        result.outcome.isSuccess = true := by
    intro result member
    rw [List.mem_singleton.1 member]
    rfl
  have clean : report.coverage.state = .successClean := by
    rw [state, deriveCoverageState_of_success none successful]
    exact if_pos refusedAll
  have dropped := claim _ _ _ _ success built clean
  have empty := ((nothingDropped_iff successful refusedAll).1 dropped).1
  exact absurd empty (List.cons_ne_nil _ _)

end Samples

end FireCrow.Orchestrator
