import FireCrow.Orchestrator.ExecutionSafety

/-!
# The state an audit run returns

The status of a run is decided in memory and handed to the transaction that
finalizes it, which may decide otherwise.  Only a refused finalization makes
the run look at the job again.
-/

namespace FireCrow.Orchestrator.Execution

open FireCrow.Library FireCrow.Schemas

/-- How the phases of a run ended. -/
inductive Outcome where
  | failed (phase message : Text)
  | cancelled
  | partial_ (reason : Text)
  | ok

/-- What a run holds when its phases have ended. -/
structure RunState where
  status : JobStatus
  securityScore : Option ℚ
  findings : List Finding
  scannerRuns : List ScannerRunRecord
  coverageComplete : Bool
  canonicalJson : Option Text
  reportMarkdown : Option Text
  reportJson : Option Text
  reportHtml : Option Text

def engineUnavailableReason : Text :=
  "No vulnerability analysis engine is installed in this build. The repository was not fetched, read, or analyzed, and no findings were produced."

/-- Failure wins over cancellation, and cancellation over completion. -/
def finalJobStatus (engineAvailable : Bool) : Outcome → JobStatus
  | .failed _ _ => .failed
  | .cancelled => .cancelled
  | .partial_ _ => .partial_
  | .ok => if engineAvailable then .completed else .engineUnavailable

/-- A finalization without a result. -/
def bareFinalization (status : JobStatus) (reason : Text) : Finalization where
  findings := []
  scannerRuns := []
  coverageComplete := false
  canonicalJson := none
  reportMarkdown := none
  reportJson := none
  reportHtml := none
  securityScore := none
  jobStatus := status
  failureReason := some reason

/-- The finalization of a run. -/
def finalizationOf (engineAvailable : Bool) (state : RunState) :
    Outcome → Finalization
  | .failed phase message =>
      bareFinalization .failed
        (phase ++ (" phase failed: " : Text) ++ message)
  | .cancelled => bareFinalization .cancelled "Job cancelled by user"
  | .partial_ reason =>
      { findings := state.findings
        scannerRuns := state.scannerRuns
        coverageComplete := false
        canonicalJson := state.canonicalJson
        reportMarkdown := state.reportMarkdown
        reportJson := state.reportJson
        reportHtml := state.reportHtml
        securityScore := none
        jobStatus := .partial_
        failureReason := some (("partial coverage: " : Text) ++ reason) }
  | .ok =>
      { findings := state.findings
        scannerRuns := state.scannerRuns
        coverageComplete := state.coverageComplete
        canonicalJson := state.canonicalJson
        reportMarkdown := state.reportMarkdown
        reportJson := state.reportJson
        reportHtml := state.reportHtml
        securityScore := state.securityScore
        jobStatus :=
          if engineAvailable then .completed else .engineUnavailable
        failureReason :=
          if engineAvailable then none else some engineUnavailableReason }

/-- The end of `execute_audit_job`: the reply to the finalization, and when it
was refused the job as it is read again. -/
def conclude (state : RunState) (finalStatus : JobStatus)
    (finalized : Except AppError Unit)
    (reread : Except AppError (Option AuditJob)) : RunState :=
  match finalized with
  | .ok _ => { state with status := finalStatus }
  | .error _ =>
      match reread with
      | .ok (some job) =>
          { state with
            status := job.status
            securityScore := job.securityScore }
      | _ => state

theorem finalizationOf_status (engineAvailable : Bool) (state : RunState)
    (outcome : Outcome) :
    (finalizationOf engineAvailable state outcome).jobStatus =
      finalJobStatus engineAvailable outcome := by
  cases outcome with
  | failed | cancelled | partial_ | ok => rfl

/-! ## What a committed finalization leaves -/

theorem closed_eq (job : AuditJob) (now : Timestamp) (status : JobStatus)
    (score : Option ℚ) (message : Option Text) :
    (job.closed now status score message).status =
        (if Database.finalizable job.status then status else job.status) ∧
      (job.closed now status score message).securityScore =
        (if Database.finalizable job.status then score
        else job.securityScore) := by
  unfold AuditJob.closed
  cases Database.finalizable job.status with
  | false | true => exact ⟨rfl, rfl⟩

theorem finalizeExecution_job {db after : Database} {lease : ExecutionLease}
    {finalization : Finalization} {before : AuditJob}
    (success : db.finalizeExecution lease finalization = .ok ((), after))
    (job : db.job? lease.jobId = some before) :
    ∃ left, after.job? lease.jobId = some left ∧
      left.status =
        (if Database.finalizable before.status then
          finalStatus before.cancelRequested finalization.jobStatus
        else before.status) ∧
      left.securityScore =
        (if Database.finalizable before.status then
          finalScore before.cancelRequested finalization.coverageComplete
            finalization.jobStatus finalization.securityScore
        else before.securityScore) := by
  have effect := finalizeExecution_effect success
  have named := (job?_mem job).2
  have flag : db.cancelled lease.jobId = before.cancelRequested := by
    unfold Database.cancelled
    rw [job]
    rfl
  refine ⟨_, effect.job? job, ?_⟩
  simp only [Statement.jobAfter, named, flag, if_pos]
  have same : (if before.cancelRequested = true then before.cleared
        else before).status = before.status ∧
      (if before.cancelRequested = true then before.cleared
        else before).securityScore = before.securityScore := by
    split
    · exact ⟨rfl, rfl⟩
    · exact ⟨rfl, rfl⟩
  rw [← same.1, ← same.2]
  exact closed_eq _ _ _ _ _

/-- A returned state has the status and the score of a row. -/
def RunState.Agrees (state : RunState) (job : AuditJob) : Prop :=
  state.status = job.status ∧ state.securityScore = job.securityScore

/-- The row and the state before a finalization under which it leaves what the
run returns: nobody has asked to cancel a run that ends otherwise, and a score
is held only by a completed run with complete coverage.  A job that is
completed already keeps its own. -/
def Undisturbed (engineAvailable : Bool) (outcome : Outcome) (state : RunState)
    (before : AuditJob) : Prop :=
  if Database.finalizable before.status then
    (before.cancelRequested = true →
      finalJobStatus engineAvailable outcome = .cancelled) ∧
    (state.securityScore.isSome = true →
      state.coverageComplete = true ∧
        finalJobStatus engineAvailable outcome = .completed)
  else
    finalJobStatus engineAvailable outcome = before.status ∧
      state.securityScore = before.securityScore

/-- Only a completed run hands a score over. -/
theorem finalizationOf_score (engineAvailable : Bool) (state : RunState)
    (outcome : Outcome) (cancelled : Bool) :
    finalScore cancelled
        (finalizationOf engineAvailable state outcome).coverageComplete
        (finalizationOf engineAvailable state outcome).jobStatus
        (finalizationOf engineAvailable state outcome).securityScore =
      if state.coverageComplete = true ∧
          finalStatus cancelled (finalJobStatus engineAvailable outcome) =
            .completed then
        state.securityScore
      else none := by
  cases outcome with
  | failed | cancelled =>
      cases cancelled <;> simp [finalizationOf, bareFinalization, finalScore,
        finalJobStatus, finalStatus]
  | partial_ reason =>
      cases cancelled <;> simp [finalizationOf, finalScore, finalJobStatus,
        finalStatus]
  | ok => rfl

theorem agrees_iff (cancelled complete : Bool) (status : JobStatus)
    (score : Option ℚ) :
    (status = finalStatus cancelled status ∧
      score = if complete = true ∧ finalStatus cancelled status = .completed
        then score else none) ↔
      (cancelled = true → status = .cancelled) ∧
        (score.isSome = true → complete = true ∧ status = .completed) := by
  have kept : status = finalStatus cancelled status ↔
      (cancelled = true → status = .cancelled) := by
    unfold finalStatus
    by_cases wins : cancelled = true ∧ status ≠ .cancelled
    · rw [if_pos wins]
      exact ⟨fun same => absurd same wins.2, fun only => only wins.1⟩
    · rw [if_neg wins]
      refine ⟨fun _ asked => ?_, fun _ => rfl⟩
      by_contra other
      exact wins ⟨asked, other⟩
  rw [← kept]
  apply and_congr_right
  intro same
  rw [← same]
  cases score with
  | none => simp
  | some value =>
      by_cases held : complete = true ∧ status = .completed
      · simp [held]
      · simp [held]

def scannedState : RunState where
  status := .running
  securityScore := some 100
  findings := []
  scannerRuns := []
  coverageComplete := true
  canonicalJson := none
  reportMarkdown := none
  reportJson := none
  reportHtml := none

def scannedLease : ExecutionLease := ⟨"execution-1", "job-1", 1, "owner-1"⟩

def scannedJob (cancelRequested : Bool) : AuditJob where
  id := "job-1"
  userId := "user-1"
  status := .running
  cancelRequested := cancelRequested
  cancelRequestedAt := none
  commitSha := none
  securityScore := none
  errorMessage := none
  createdAt := 0
  startedAt := some 0
  finishedAt := none

def scannedExecution : AuditExecution where
  id := "execution-1"
  jobId := "job-1"
  attemptNumber := 1
  status := .running
  commitSha := none
  startedAt := 0
  finishedAt := none
  failureReason := none
  ownerToken := some "owner-1"
  heartbeatAt := none
  canonicalJson := none

def scannedDatabase (cancelRequested : Bool) : Database where
  now := 1
  jobs := [scannedJob cancelRequested]
  executions := [scannedExecution]
  findings := []
  scannerRuns := []
  reports := []

/-- The commit of the scanned run. -/
def scannedCommit (cancelRequested : Bool) : Except AppError Unit × Database :=
  Statement.answer (scannedDatabase cancelRequested)
    (.finalizeExecution scannedLease (finalizationOf true scannedState .ok))

end FireCrow.Orchestrator.Execution
