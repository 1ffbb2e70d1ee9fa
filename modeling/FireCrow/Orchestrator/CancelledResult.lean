import FireCrow.Orchestrator.ExecutionSafety

/-!
# What a cancelled execution keeps

Finalization lets a request to cancel override the status and the score, and
writes everything else as it was handed in.
-/

namespace FireCrow.Orchestrator

open FireCrow.Library FireCrow.Schemas

namespace Execution

/-- What finalization commits when the pipeline resolves to cancelled. -/
def cancelledOutcome : Finalization where
  findings := []
  scannerRuns := []
  coverageComplete := false
  canonicalJson := none
  reportMarkdown := none
  reportJson := none
  reportHtml := none
  securityScore := none
  jobStatus := .cancelled
  failureReason := some "Job cancelled by user"

/-- The execution has no findings, no report and no canonical document. -/
structure Database.WithoutResult (executionId : Text) (db : Database) : Prop where
  findings : ∀ row ∈ db.findings, row.executionId ≠ some executionId
  reports : ∀ row ∈ db.reports, row.executionId ≠ some executionId
  canonical : ∀ execution, db.execution? executionId = some execution →
    execution.canonicalJson = none

/-- Nothing was stored for the execution yet. -/
structure Database.Unreported (executionId : Text) (db : Database) : Prop where
  findings : ∀ row ∈ db.findings, row.executionId ≠ some executionId
  scannerRuns : ∀ row ∈ db.scannerRuns, row.executionId ≠ executionId
  reports : ∀ row ∈ db.reports, row.executionId ≠ some executionId

/-! ## What is stored -/

/-- A row that every step keeps and that some step gives is there at the
end. -/
theorem exists_of_foldl {Row Item : Type} {step : List Row → Item → List Row}
    {holds : Row → Prop}
    (keeps : ∀ rows item, (∃ row ∈ rows, holds row) →
      ∃ row ∈ step rows item, holds row) {items : List Item} {item : Item}
    (member : item ∈ items) (gives : ∀ rows, ∃ row ∈ step rows item, holds row)
    (rows : List Row) : ∃ row ∈ items.foldl step rows, holds row := by
  have kept : ∀ (rest : List Item) (rows : List Row),
      (∃ row ∈ rows, holds row) → ∃ row ∈ rest.foldl step rows, holds row := by
    intro rest
    induction rest with
    | nil => exact fun _ here => here
    | cons next rest ih => exact fun rows here => ih _ (keeps rows next here)
  induction items generalizing rows with
  | nil => cases member
  | cons next rest ih =>
      rcases List.mem_cons.1 member with rfl | later
      · exact kept rest _ (gives rows)
      · exact ih later _

section Stored

variable {jobId executionId : Text}

theorem upsertFinding_gives (rows : List FindingRow) (finding : Finding) :
    ∃ row ∈ Database.upsertFinding jobId executionId rows finding,
      row.finding.id = finding.id ∧ row.executionId = some executionId := by
  unfold Database.upsertFinding
  split
  · rename_i known
    rcases List.any_eq_true.1 known with ⟨row, member, same⟩
    refine ⟨_, List.mem_map.2 ⟨row, member, rfl⟩, ?_⟩
    simp only [same, if_true]
    exact ⟨by simpa using same, trivial⟩
  · exact ⟨_, List.mem_append_right _ (List.mem_singleton.2 rfl), rfl, rfl⟩

theorem upsertFinding_keeps {name : Text} (rows : List FindingRow)
    (finding : Finding)
    (here : ∃ row ∈ rows,
      row.finding.id = name ∧ row.executionId = some executionId) :
    ∃ row ∈ Database.upsertFinding jobId executionId rows finding,
      row.finding.id = name ∧ row.executionId = some executionId := by
  rcases here with ⟨row, member, named, owned⟩
  unfold Database.upsertFinding
  split
  · refine ⟨_, List.mem_map.2 ⟨row, member, rfl⟩, ?_⟩
    split
    · exact ⟨named, rfl⟩
    · exact ⟨named, owned⟩
  · exact ⟨row, List.mem_append_left _ member, named, owned⟩

theorem upsertScannerRun_gives (rows : List ScannerRunRow)
    (record : ScannerRunRecord) :
    ∃ row ∈ Database.upsertScannerRun executionId rows record,
      row.executionId = executionId := by
  unfold Database.upsertScannerRun
  dsimp only
  split
  · rename_i known
    rcases List.any_eq_true.1 known with ⟨row, member, same⟩
    refine ⟨_, List.mem_map.2 ⟨row, member, rfl⟩, ?_⟩
    simp only [Bool.and_eq_true, decide_eq_true_eq] at same
    split <;> exact same.1
  · exact ⟨_, List.mem_append_right _ (List.mem_singleton.2 rfl), rfl⟩

theorem upsertScannerRun_keeps (rows : List ScannerRunRow)
    (record : ScannerRunRecord)
    (here : ∃ row ∈ rows, row.executionId = executionId) :
    ∃ row ∈ Database.upsertScannerRun executionId rows record,
      row.executionId = executionId := by
  rcases here with ⟨row, member, owned⟩
  unfold Database.upsertScannerRun
  dsimp only
  split
  · refine ⟨_, List.mem_map.2 ⟨row, member, rfl⟩, ?_⟩
    split <;> exact owned
  · exact ⟨row, List.mem_append_left _ member, owned⟩

variable (db : Database) (lease : ExecutionLease)

theorem storeFindings_none_iff (findings : List Finding) :
    (∀ row ∈ (db.storeFindings lease findings).findings,
      row.executionId ≠ some lease.executionId) ↔ findings = [] := by
  constructor
  · intro none
    refine List.eq_nil_iff_forall_not_mem.2 fun finding member => ?_
    have keeps := fun rows item => @upsertFinding_keeps lease.jobId
      lease.executionId finding.id rows item
    rcases exists_of_foldl keeps member
      (fun rows => upsertFinding_gives rows finding) db.findings with
      ⟨row, stored, named, owned⟩
    refine none row (List.mem_filter.2 ⟨stored, ?_⟩) owned
    simp only [named, Bool.not_eq_true', Bool.and_eq_false_iff,
      decide_eq_false_iff_not, not_not]
    exact Or.inr (List.mem_map_of_mem member)
  · rintro rfl row stored
    simpa using (List.mem_filter.1 stored).2

theorem storeScannerRuns_none_iff (records : List ScannerRunRecord)
    (fresh : ∀ row ∈ db.scannerRuns, row.executionId ≠ lease.executionId) :
    (db.storeScannerRuns lease records).scannerRuns = db.scannerRuns ↔
      records = [] := by
  constructor
  · intro same
    refine List.eq_nil_iff_forall_not_mem.2 fun record member => ?_
    rcases exists_of_foldl
      (fun rows item => upsertScannerRun_keeps rows item) member
      (fun rows => upsertScannerRun_gives rows record) db.scannerRuns with
      ⟨row, stored, owned⟩
    rw [show records.foldl _ db.scannerRuns = db.scannerRuns from same] at stored
    exact fresh row stored owned
  · rintro rfl
    rfl

/-- The execution has no report exactly when it had none and none is handed
in. -/
theorem storeReport_none_iff (finalization : Finalization) :
    (∀ row ∈ (db.storeReport lease finalization).reports,
      row.executionId ≠ some lease.executionId) ↔
      finalization.reportMarkdown = none ∧
        ∀ row ∈ db.reports, row.executionId ≠ some lease.executionId := by
  unfold Database.storeReport
  cases finalization.reportMarkdown with
  | none => simp
  | some markdown =>
      simp only [reduceCtorEq, false_and, iff_false]
      intro none
      split at none
      · rename_i known
        rcases List.any_eq_true.1 known with ⟨row, member, same⟩
        refine none _ (List.mem_map.2 ⟨row, member, rfl⟩) ?_
        rw [if_pos same]
        simpa using same
      · exact none _ (List.mem_append_right _ (List.mem_singleton.2 rfl)) rfl

end Stored

/-! ## Commits -/

section Commit

variable {db after : Database} {lease : ExecutionLease}
  {finalization : Finalization}

section

variable (success : db.finalizeExecution lease finalization = .ok ((), after))
include success

/-- What a commit stores besides jobs and executions. -/
theorem finalizeExecution_stored :
    after.findings = (db.storeFindings lease finalization.findings).findings ∧
      after.scannerRuns =
        (db.storeScannerRuns lease finalization.scannerRuns).scannerRuns ∧
      after.reports = (db.storeReport lease finalization).reports := by
  simp only [Database.finalizeExecution, Result.bind_eq_ok] at success
  rcases success with ⟨execution, leased, flag, read, ⟨_, consumed⟩, clear,
    ⟨_, closed⟩, close, ⟨_, final⟩, job, done⟩
  cases done
  have consumedEq := consumeCancellation_eq_ok clear
  rcases updateExecution_eq_ok close with ⟨_, closedEq⟩
  rcases closeJob_eq_ok job with ⟨_, finalEq⟩
  rw [finalEq, closedEq, consumedEq]
  unfold Database.storeResult Database.storeReport Database.storeFindings
    Database.storeScannerRuns
  dsimp only
  split
  · exact ⟨rfl, rfl, rfl⟩
  · split <;> exact ⟨rfl, rfl, rfl⟩

theorem finalizeExecution_row :
    ∃ execution, after.execution? lease.executionId = some execution ∧
      execution.canonicalJson = finalization.canonicalJson ∧
      execution.failureReason = finalization.failureReason := by
  have effect := finalizeExecution_effect success
  rcases effect.admitted.2 with ⟨execution, found, owned, running⟩
  have id := (execution?_mem found).2
  refine ⟨_, effect.execution? found, ?_⟩
  simp [Statement.executionAfter, id, owned, running]

theorem withoutResult_iff :
    after.WithoutResult lease.executionId ↔
      finalization.findings = [] ∧ finalization.reportMarkdown = none ∧
        finalization.canonicalJson = none ∧
        ∀ row ∈ db.reports, row.executionId ≠ some lease.executionId := by
  rcases finalizeExecution_stored success with ⟨findings, _, reports⟩
  rcases finalizeExecution_row success with ⟨execution, row, canonical, _⟩
  constructor
  · intro none
    have noFindings := none.findings
    have noReports := none.reports
    rw [findings, storeFindings_none_iff] at noFindings
    rw [reports, storeReport_none_iff] at noReports
    exact ⟨noFindings, noReports.1,
      canonical.symm.trans (none.canonical execution row), noReports.2⟩
  · rintro ⟨noFindings, noMarkdown, noCanonical, noReports⟩
    constructor
    · rw [findings, storeFindings_none_iff]
      exact noFindings
    · rw [reports, storeReport_none_iff]
      exact ⟨noMarkdown, noReports⟩
    · intro other found
      rw [row, Option.some.injEq] at found
      rw [← found, canonical, noCanonical]

end

theorem finalScore_cancelled {flag complete : Bool} {status : JobStatus}
    {score : Option ℚ} (cancelled : finalStatus flag status = .cancelled) :
    finalScore flag complete status score = none := by
  unfold finalScore
  rw [if_neg]
  rintro ⟨_, completed⟩
  rw [cancelled] at completed
  cases completed

theorem finalStatus_cancelled (flag : Bool) :
    finalStatus flag .cancelled = .cancelled := by
  cases flag <;> rfl

theorem cancelled_rows {outcome : Finalization}
    (cancelled : finalStatus (db.cancelled lease.jobId)
      finalization.jobStatus = .cancelled)
    (same : finalStatus (db.cancelled lease.jobId) outcome.jobStatus =
      .cancelled)
    (reason : finalization.failureReason = outcome.failureReason)
    (canonical : finalization.canonicalJson = outcome.canonicalJson) :
    (Statement.finalizeExecution lease finalization).jobAfter db =
        (Statement.finalizeExecution lease outcome).jobAfter db ∧
      (Statement.finalizeExecution lease finalization).executionAfter db =
        (Statement.finalizeExecution lease outcome).executionAfter db := by
  constructor
  · funext job
    simp only [Statement.jobAfter, cancelled, same, reason,
      finalScore_cancelled cancelled, finalScore_cancelled same]
  · funext execution
    simp only [Statement.executionAfter, cancelled, same, reason, canonical]

/-- The commit leaves the state that the pipeline's own cancellation leaves
exactly when it is handed in what that one is. -/
theorem same_as_cancelled_iff {other : Database}
    (success : db.finalizeExecution lease finalization = .ok ((), after))
    (cancelled : finalStatus (db.cancelled lease.jobId)
      finalization.jobStatus = .cancelled)
    (pipeline : db.finalizeExecution lease cancelledOutcome = .ok ((), other))
    (fresh : db.Unreported lease.executionId) :
    after = other ↔
      finalization.findings = [] ∧ finalization.scannerRuns = [] ∧
        finalization.reportMarkdown = none ∧
        finalization.canonicalJson = none ∧
        finalization.failureReason = cancelledOutcome.failureReason := by
  rcases finalizeExecution_stored success with ⟨findings, scannerRuns, reports⟩
  rcases finalizeExecution_stored pipeline with
    ⟨otherFindings, otherRuns, otherReports⟩
  have effect := finalizeExecution_effect success
  have otherEffect := finalizeExecution_effect pipeline
  constructor
  · intro same
    have none : other.WithoutResult lease.executionId :=
      (withoutResult_iff pipeline).2 ⟨rfl, rfl, rfl, fresh.reports⟩
    rw [← same, withoutResult_iff success] at none
    rcases finalizeExecution_row success with ⟨row, found, _, reason⟩
    rcases finalizeExecution_row pipeline with ⟨_, otherFound, _, otherReason⟩
    rw [← same, found, Option.some.injEq] at otherFound
    rw [← otherFound, reason] at otherReason
    have runs : after.scannerRuns = db.scannerRuns := by
      rw [same, otherRuns]
      rfl
    rw [scannerRuns, storeScannerRuns_none_iff db lease _ fresh.scannerRuns]
      at runs
    exact ⟨none.1, runs, none.2.1, none.2.2.1, otherReason⟩
  · rintro ⟨noFindings, noRuns, noMarkdown, noCanonical, reason⟩
    rcases cancelled_rows cancelled (finalStatus_cancelled _) reason noCanonical
      with ⟨jobs, executions⟩
    have fields : ∀ left right : Database, left.now = right.now →
        left.jobs = right.jobs → left.executions = right.executions →
        left.findings = right.findings →
        left.scannerRuns = right.scannerRuns → left.reports = right.reports →
          left = right := by
      rintro ⟨⟩ ⟨⟩
      simp only [Database.mk.injEq]
      exact fun now jobs executions findings runs reports =>
        ⟨now, jobs, executions, findings, runs, reports⟩
    refine fields after other ?_ ?_ ?_ ?_ ?_ ?_
    · rw [effect.now, otherEffect.now]
    · rw [effect.jobs, otherEffect.jobs, jobs]
      rfl
    · rw [effect.executions, otherEffect.executions, executions]
      rfl
    · rw [findings, otherFindings, noFindings]
      rfl
    · rw [scannerRuns, otherRuns, noRuns]
      rfl
    · rw [reports, otherReports]
      simp only [Database.storeReport, noMarkdown, cancelledOutcome]

end Commit

/-! ## A schedule -/

/-- A worker opens an execution, and the user cancels the job. -/
def cancelledEarly : List (Action Operation) :=
  [.call 0 (.createJob "job-1" "user-1"), .advance 0 1,
    .call 1 (.claimJob "job-1"), .advance 1 1,
    .call 2 (.beginExecution uuids "job-1"), .advance 2 9,
    .call 3 (.cancelJob "job-1" "user-1"), .advance 3 1]

/-- The document of an audit that completed. -/
def documented : Finalization :=
  { result .completed (some 90) with
    canonicalJson := some "{}"
    reportMarkdown := some "# Audit" }

def finalizing (finalization : Finalization) : Database :=
  (machine.answer (reached cancelledEarly).state (.finalizeExecution
    (lease 1 "execution-1" "token-1") finalization)).2

end Execution

open Execution

/-- A commit that records an execution as cancelled leaves it without findings,
report and canonical document exactly when it was handed in without them; and
it leaves the state that the pipeline's own cancellation leaves exactly when
scanner runs and reason are handed in alike as well. -/
theorem cancelled_result_iff {db after other : Database}
    {lease : ExecutionLease} {finalization : Execution.Finalization}
    (success : db.finalizeExecution lease finalization = .ok ((), after))
    (cancelled : finalStatus (db.cancelled lease.jobId)
      finalization.jobStatus = .cancelled)
    (pipeline : db.finalizeExecution lease cancelledOutcome = .ok ((), other)) :
    (after.WithoutResult lease.executionId ↔
      finalization.findings = [] ∧ finalization.reportMarkdown = none ∧
        finalization.canonicalJson = none ∧
        ∀ row ∈ db.reports, row.executionId ≠ some lease.executionId) ∧
      (db.Unreported lease.executionId →
        (after = other ↔
          finalization.findings = [] ∧ finalization.scannerRuns = [] ∧
            finalization.reportMarkdown = none ∧
            finalization.canonicalJson = none ∧
            finalization.failureReason = cancelledOutcome.failureReason)) :=
  ⟨withoutResult_iff success,
    same_as_cancelled_iff success cancelled pipeline⟩

theorem cancelled_result_iff_empty :
    (finalizing (result .completed none)).WithoutResult "execution-1" := by
  have success : (reached cancelledEarly).state.finalizeExecution
      (lease 1 "execution-1" "token-1") (result .completed none) =
        .ok ((), finalizing (result .completed none)) := rfl
  have pipeline : (reached cancelledEarly).state.finalizeExecution
      (lease 1 "execution-1" "token-1") cancelledOutcome =
        .ok ((), finalizing cancelledOutcome) := rfl
  exact (cancelled_result_iff success (by decide) pipeline).1.2
    ⟨rfl, rfl, rfl, by decide⟩

/-- A request that lands just before finalization leaves the document of the
completed audit on the cancelled execution. -/
theorem documented_cancelled :
    ¬ ∀ (db after : Database) lease finalization,
      db.finalizeExecution lease finalization = .ok ((), after) →
        finalStatus (db.cancelled lease.jobId) finalization.jobStatus =
            .cancelled →
          after.WithoutResult lease.executionId := by
  intro always
  have success : (reached cancelledEarly).state.finalizeExecution
      (lease 1 "execution-1" "token-1") documented =
        .ok ((), finalizing documented) := rfl
  have none := always _ _ _ _ success (by decide)
  rw [withoutResult_iff success] at none
  cases none.2.1

end FireCrow.Orchestrator
