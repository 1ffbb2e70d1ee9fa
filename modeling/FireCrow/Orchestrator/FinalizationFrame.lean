import FireCrow.Orchestrator.ExecutionEffects

/-!
# What a finalization leaves alone

The rows of an execution carry its id, and a finalization writes the rows of
its own execution.  A finding is keyed by its own id alone, so a row of another
execution with the id of a reported finding is taken over.
-/

namespace FireCrow.Orchestrator.Execution

open FireCrow.Library FireCrow.Schemas

/-! ## Rows that a change passes over -/

/-- A change of rows that are not looked at, into such rows, is not seen. -/
theorem filter_set {Row : Type*} {looks selects : Row → Bool}
    {change : Row → Row} (rows : List Row)
    (before : ∀ row ∈ rows, selects row = true → looks row = false)
    (after : ∀ row ∈ rows, selects row = true → looks (change row) = false) :
    (Table.set selects change rows).filter looks = rows.filter looks := by
  induction rows with
  | nil => rfl
  | cons row rows ih =>
      rw [List.forall_mem_cons] at before after
      have rest := ih before.2 after.2
      show ((if selects row then change row else row) ::
        Table.set selects change rows).filter looks = _
      cases selected : selects row with
      | false =>
          rw [if_neg (by decide), List.filter_cons, List.filter_cons, rest]
      | true =>
          rw [if_pos rfl, List.filter_cons, List.filter_cons,
            before.1 selected, after.1 selected, rest]
          rfl

/-- A new row that is not looked at is not seen. -/
theorem filter_append_row {Row : Type*} {looks : Row → Bool} (rows : List Row)
    {row : Row} (unseen : looks row = false) :
    (rows ++ [row]).filter looks = rows.filter looks := by
  rw [List.filter_append, List.filter_cons, unseen]
  simp

/-! ## Findings -/

/-- A finding of another execution whose id is not among some ids. -/
def ForeignFinding (executionId : Text) (ids : List Text) (row : FindingRow) :
    Bool :=
  row.executionId ≠ some executionId && row.finding.id ∉ ids

theorem upsertFinding_foreign {jobId executionId : Text} {ids : List Text}
    (rows : List FindingRow) {finding : Finding} (listed : finding.id ∈ ids) :
    (Database.upsertFinding jobId executionId rows finding).filter
        (ForeignFinding executionId ids) =
      rows.filter (ForeignFinding executionId ids) := by
  unfold Database.upsertFinding
  split
  · apply filter_set
    · intro row _ same
      have known : row.finding.id ∈ ids := of_decide_eq_true same ▸ listed
      simp [ForeignFinding, known]
    · intro row _ _
      simp [ForeignFinding]
  · apply filter_append_row
    simp [ForeignFinding]

theorem storeFindings_foreign (db : Database) (lease : ExecutionLease)
    (findings : List Finding) :
    (db.storeFindings lease findings).findings.filter
        (ForeignFinding lease.executionId (findings.map Finding.id)) =
      db.findings.filter
        (ForeignFinding lease.executionId (findings.map Finding.id)) := by
  have stored : ∀ (reported : List Finding) (rows : List FindingRow),
      (∀ finding ∈ reported, finding.id ∈ findings.map Finding.id) →
      (reported.foldl (Database.upsertFinding lease.jobId lease.executionId)
          rows).filter
          (ForeignFinding lease.executionId (findings.map Finding.id)) =
        rows.filter
          (ForeignFinding lease.executionId (findings.map Finding.id)) := by
    intro reported
    induction reported with
    | nil => exact fun rows _ => rfl
    | cons finding reported ih =>
        intro rows listed
        rw [List.forall_mem_cons] at listed
        rw [List.foldl_cons, ih _ listed.2,
          upsertFinding_foreign rows listed.1]
  show ((findings.foldl (Database.upsertFinding lease.jobId lease.executionId)
    db.findings).filter _).filter _ = _
  rw [List.filter_filter, ← stored findings db.findings
    fun finding member => List.mem_map_of_mem member]
  apply List.filter_congr
  intro row _
  by_cases own : row.executionId = some lease.executionId
  · simp [ForeignFinding, own]
  · simp [ForeignFinding, own]

/-! ## Scanner runs and reports -/

theorem upsertScannerRun_foreign {executionId : Text}
    (rows : List ScannerRunRow) (record : ScannerRunRecord) :
    (Database.upsertScannerRun executionId rows record).filter
        (fun row => row.executionId ≠ executionId) =
      rows.filter fun row => row.executionId ≠ executionId := by
  unfold Database.upsertScannerRun
  dsimp only
  split
  · apply filter_set
    · intro row _ same
      have own := (Bool.and_eq_true_iff.1 same).1
      simpa using own
    · intro row _ same
      have own := (Bool.and_eq_true_iff.1 same).1
      simpa using own
  · apply filter_append_row
    simp

theorem storeScannerRuns_foreign (db : Database) (lease : ExecutionLease)
    (records : List ScannerRunRecord) :
    (db.storeScannerRuns lease records).scannerRuns.filter
        (fun row => row.executionId ≠ lease.executionId) =
      db.scannerRuns.filter
        fun row => row.executionId ≠ lease.executionId := by
  show (records.foldl (Database.upsertScannerRun lease.executionId)
    db.scannerRuns).filter _ = _
  generalize db.scannerRuns = rows
  induction records generalizing rows with
  | nil => rfl
  | cons record records ih =>
      rw [List.foldl_cons, ih, upsertScannerRun_foreign]

theorem storeReport_foreign (db : Database) (lease : ExecutionLease)
    (finalization : Finalization) :
    (db.storeReport lease finalization).reports.filter
        (fun row => row.executionId ≠ some lease.executionId) =
      db.reports.filter
        fun row => row.executionId ≠ some lease.executionId := by
  unfold Database.storeReport
  split
  · rfl
  · dsimp only
    split
    · apply filter_set
      · intro row _ own
        simpa using own
      · intro row _ own
        simpa using own
    · apply filter_append_row
      simp

/-! ## Finalization -/

/-- Every row of another execution is as it was, except a finding whose id is
reported. -/
structure OthersKept (lease : ExecutionLease) (finalization : Finalization)
    (db after : Database) : Prop where
  findings :
    after.findings.filter (ForeignFinding lease.executionId
        (finalization.findings.map Finding.id)) =
      db.findings.filter (ForeignFinding lease.executionId
        (finalization.findings.map Finding.id))
  scannerRuns :
    after.scannerRuns.filter (fun row => row.executionId ≠ lease.executionId) =
      db.scannerRuns.filter fun row => row.executionId ≠ lease.executionId
  reports :
    after.reports.filter (fun row => row.executionId ≠ some lease.executionId) =
      db.reports.filter fun row => row.executionId ≠ some lease.executionId
  executions :
    after.executions.filter (fun execution =>
        execution.id ≠ lease.executionId) =
      db.executions.filter fun execution => execution.id ≠ lease.executionId

theorem storeResult_others (db : Database) (lease : ExecutionLease)
    (finalization : Finalization) :
    OthersKept lease finalization db (db.storeResult lease finalization) where
  findings := by
    have found := storeFindings_foreign db lease finalization.findings
    have same : (db.storeResult lease finalization).findings =
        (db.storeFindings lease finalization.findings).findings := by
      unfold Database.storeResult Database.storeReport
      dsimp only
      split
      · rfl
      · split
        · rfl
        · rfl
    rw [same]
    exact found
  scannerRuns := by
    have stored := storeScannerRuns_foreign db lease finalization.scannerRuns
    have same : (db.storeResult lease finalization).scannerRuns =
        (db.storeScannerRuns lease finalization.scannerRuns).scannerRuns := by
      unfold Database.storeResult Database.storeReport
      dsimp only
      split
      · rfl
      · split
        · rfl
        · rfl
    rw [same]
    exact stored
  reports := storeReport_foreign _ lease finalization
  executions := by rw [(store_frame db lease finalization).2.2]

theorem closeExecution_others {db after : Database} {lease : ExecutionLease}
    {change : AuditExecution → AuditExecution} {count : Nat}
    (success : db.closeExecution lease change = .ok (count, after))
    (kept : ∀ execution, (change execution).id = execution.id) :
    after.executions.filter (fun execution =>
        execution.id ≠ lease.executionId) =
      db.executions.filter fun execution =>
        execution.id ≠ lease.executionId := by
  rcases updateExecution_eq_ok success with ⟨-, same⟩
  rw [same]
  apply filter_set
  · intro execution _ selected
    have own := (Bool.and_eq_true_iff.1 selected).1
    simpa using own
  · intro execution _ selected
    have own := (Bool.and_eq_true_iff.1 selected).1
    rw [kept]
    simpa using own

theorem finalizeExecution_others {db after : Database} {lease : ExecutionLease}
    {finalization : Finalization}
    (success : db.finalizeExecution lease finalization = .ok ((), after)) :
    OthersKept lease finalization db after := by
  simp only [Database.finalizeExecution, Result.bind_eq_ok] at success
  rcases success with ⟨execution, leased, flag, read, ⟨_, consumed⟩, clear,
    ⟨_, closed⟩, close, ⟨_, final⟩, job, done⟩
  cases done
  have consumedEq := consumeCancellation_eq_ok clear
  have stored := storeResult_others consumed lease finalization
  have executions := closeExecution_others close fun _ => rfl
  rcases updateExecution_eq_ok close with ⟨-, closedEq⟩
  rcases closeJob_eq_ok job with ⟨-, finalEq⟩
  rw [finalEq]
  constructor
  · show closed.findings.filter _ = _
    rw [closedEq]
    exact stored.findings.trans (by rw [consumedEq])
  · show closed.scannerRuns.filter _ = _
    rw [closedEq]
    exact stored.scannerRuns.trans (by rw [consumedEq])
  · show closed.reports.filter _ = _
    rw [closedEq]
    exact stored.reports.trans (by rw [consumedEq])
  · show closed.executions.filter _ = _
    rw [executions]
    exact stored.executions.trans (by rw [consumedEq])

/-- A finalization that commits leaves the rows of every other execution, the
reported findings apart; one that is refused leaves the database. -/
theorem finalization_touches_own (db after : Database) (lease : ExecutionLease)
    (finalization : Finalization) :
    (Statement.answer db (.finalizeExecution lease finalization) =
        (.ok (), after) →
      OthersKept lease finalization db after) ∧
    (∀ error, Statement.answer db (.finalizeExecution lease finalization) =
        (.error error, after) →
      after = db) := by
  unfold Statement.answer
  constructor
  · intro answered
    split at answered
    · rename_i result last success
      cases answered
      exact finalizeExecution_others success
    · cases answered
  · intro error answered
    split at answered
    · cases answered
    · cases answered
      rfl

/-! ## A retry with the detection of an earlier attempt -/

def passwordFinding : Finding where
  id := "finding-1"
  agentSource := "gitleaks"
  title := "Hardcoded password"
  description := "A password in the source"
  severity := .high
  evidence := none
  remediation := none
  cweId := none
  owaspCategory := none
  confidence := none
  scannerName := none
  scannerMode := none
  filePath := none
  lineNumber := none
  metadataJson := none

def retryLease : ExecutionLease := ⟨"execution-2", "job-1", 2, "owner-2"⟩

def retriedJob : AuditJob where
  id := "job-1"
  userId := "user-1"
  status := .running
  cancelRequested := false
  cancelRequestedAt := none
  commitSha := none
  securityScore := none
  errorMessage := none
  createdAt := 0
  startedAt := some 0
  finishedAt := none

def failedAttempt : AuditExecution where
  id := "execution-1"
  jobId := "job-1"
  attemptNumber := 1
  status := .partial_
  commitSha := none
  startedAt := 0
  finishedAt := some 1
  failureReason := none
  ownerToken := some "owner-1"
  heartbeatAt := none
  canonicalJson := none

def retriedDatabase : Database where
  now := 2
  jobs := [retriedJob]
  executions :=
    [failedAttempt,
     { failedAttempt with
       id := "execution-2"
       attemptNumber := 2
       status := .running
       finishedAt := none
       ownerToken := some "owner-2" }]
  findings :=
    [⟨passwordFinding, "job-1", some "execution-1"⟩,
     ⟨{ passwordFinding with id := "finding-2" }, "job-1",
       some "execution-1"⟩]
  scannerRuns := []
  reports := []

def retryFinalization : Finalization where
  findings := [passwordFinding]
  scannerRuns := []
  coverageComplete := false
  canonicalJson := none
  reportMarkdown := none
  reportJson := none
  reportHtml := none
  securityScore := none
  jobStatus := .partial_
  failureReason := none

theorem finalization_touches_own_retried :
    OthersKept retryLease retryFinalization retriedDatabase
      (Statement.answer retriedDatabase
        (.finalizeExecution retryLease retryFinalization)).2 :=
  (finalization_touches_own retriedDatabase _ retryLease
    retryFinalization).1 (Prod.ext (by rfl) rfl)

/-- The detection of the earlier attempt is taken over by the retry. -/
theorem retried_finding_adopted :
    ∃ after,
      Statement.answer retriedDatabase
          (.finalizeExecution retryLease retryFinalization) =
        (.ok (), after) ∧
      (⟨passwordFinding, "job-1", some "execution-1"⟩ : FindingRow) ∈
        retriedDatabase.findings ∧
      (⟨passwordFinding, "job-1", some "execution-1"⟩ : FindingRow) ∉
        after.findings :=
  ⟨(Statement.answer retriedDatabase
      (.finalizeExecution retryLease retryFinalization)).2,
    Prod.ext (by rfl) rfl, by decide +kernel, by decide +kernel⟩

end FireCrow.Orchestrator.Execution
