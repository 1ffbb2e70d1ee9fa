import FireCrow.Library.Table
import FireCrow.Orchestrator.Pipeline

/-!
# The tables of jobs and executions

The rows that the execution protocol reads and writes, with the triggers,
checks and unique indexes of their tables, and the transactions that write
several of them at once.

A job is the question, an execution one attempt to answer it.  The lifecycle
guard of the jobs and the freeze of the terminal executions are triggers, so
they hold whatever statement writes a row.
-/

namespace FireCrow.Orchestrator.Execution

open FireCrow.Library FireCrow.Schemas

/-- Microseconds. -/
abbrev Timestamp := Int

/-- What the database reports when it refuses a statement. -/
inductive DatabaseError where
  | uniqueViolation
  | foreignKeyViolation
  | restrictViolation
  | outOfRange
  | rowNotFound
  | unavailable
deriving DecidableEq

inductive AppError where
  | database (error : DatabaseError)
  | conflict (message : Text)
  | notFound (message : Text)
  | internal (message : Text)
deriving DecidableEq

/-! ## Rows -/

/-- A row of `audit_jobs`. -/
structure AuditJob where
  id : Text
  userId : Text
  status : JobStatus
  cancelRequested : Bool
  cancelRequestedAt : Option Timestamp
  commitSha : Option Text
  securityScore : Option ℚ
  errorMessage : Option Text
  createdAt : Timestamp
  startedAt : Option Timestamp
  finishedAt : Option Timestamp
deriving DecidableEq

/-- A row of `audit_executions`. -/
structure AuditExecution where
  id : Text
  jobId : Text
  attemptNumber : Nat
  status : JobStatus
  commitSha : Option Text
  startedAt : Timestamp
  finishedAt : Option Timestamp
  failureReason : Option Text
  ownerToken : Option Text
  heartbeatAt : Option Timestamp
  canonicalJson : Option Text
deriving DecidableEq

/-- The last sign of life: the heartbeat, or else the start. -/
def AuditExecution.lastBeat (execution : AuditExecution) : Timestamp :=
  execution.heartbeatAt.getD execution.startedAt

/-- One scanner's outcome, as persisted per execution. -/
structure ScannerRunRecord where
  scanner : Text
  version : Text
  parser : Text
  mode : Text
  image : Text
  status : Text
  findingCount : Option Int32
  coverageKnown : Bool
  detail : Option Text
  limitations : List Text
deriving DecidableEq

/-- A row of `findings`. -/
structure FindingRow where
  finding : Finding
  jobId : Text
  executionId : Option Text
deriving DecidableEq

/-- A row of `audit_scanner_runs`. -/
structure ScannerRunRow where
  executionId : Text
  record : ScannerRunRecord
deriving DecidableEq

/-- A row of `audit_reports`. -/
structure ReportRow where
  jobId : Text
  executionId : Option Text
  markdown : Text
  html : Option Text
  json : Option Text
deriving DecidableEq

structure Database where
  now : Timestamp
  jobs : List AuditJob
  executions : List AuditExecution
  findings : List FindingRow
  scannerRuns : List ScannerRunRow
  reports : List ReportRow
deriving DecidableEq

/-- An execution opened by a worker, with the token that proves ownership. -/
structure ExecutionLease where
  executionId : Text
  jobId : Text
  attemptNumber : Nat
  ownerToken : Text
deriving DecidableEq

/-- Everything the terminal moment of an execution makes durable. -/
structure Finalization where
  findings : List Finding
  scannerRuns : List ScannerRunRecord
  coverageComplete : Bool
  canonicalJson : Option Text
  reportMarkdown : Option Text
  reportJson : Option Text
  reportHtml : Option Text
  securityScore : Option ℚ
  jobStatus : JobStatus
  failureReason : Option Text

/-! ## Triggers -/

/-- The legal transitions of a job's status; an unchanged status is legal. -/
def lifecycleGuard (old new : JobStatus) : Bool :=
  if new = old then true
  else
    match old with
    | .completed => false
    | .queued => new ∈ [.running, .failed, .cancelled]
    | .running =>
        new ∈ [.completed, .partial_, .failed, .cancelled, .engineUnavailable,
          .queued]
    | .failed | .cancelled | .partial_ | .engineUnavailable => new = .queued

def AuditJob.permits (old new : AuditJob) : Bool :=
  lifecycleGuard old.status new.status

/-- A terminal row is frozen, a bound snapshot is immutable, and `queued` is
no status of an execution. -/
def AuditExecution.permits (old new : AuditExecution) : Bool :=
  old.status = .running &&
    (old.commitSha.isNone || new.commitSha = old.commitSha) &&
    new.status ≠ .queued

namespace Database

/-! ## Reads -/

def job? (db : Database) (jobId : Text) : Option AuditJob :=
  db.jobs.find? fun job => job.id = jobId

def execution? (db : Database) (executionId : Text) : Option AuditExecution :=
  db.executions.find? fun execution => execution.id = executionId

/-- The running executions of a job. -/
def runningOf (db : Database) (jobId : Text) : List AuditExecution :=
  db.executions.filter fun execution =>
    execution.jobId = jobId && execution.status = .running

/-- The executions of a job, in the order of their insertion. -/
def attemptsOf (db : Database) (jobId : Text) : List AuditExecution :=
  db.executions.filter fun execution => execution.jobId = jobId

/-- `MAX(attempt_number)`, zero without an execution. -/
def lastAttempt (db : Database) (jobId : Text) : Nat :=
  ((db.attemptsOf jobId).map AuditExecution.attemptNumber).foldl max 0

/-! ## Updates -/

/-- `UPDATE audit_jobs SET … WHERE id=… AND …`, with the rows affected. -/
def updateJob (db : Database) (jobId : Text) (guard : AuditJob → Bool)
    (change : AuditJob → AuditJob) : Except AppError (Nat × Database) :=
  let selects := fun job : AuditJob => job.id = jobId && guard job
  match Table.update AuditJob.permits selects change db.jobs with
  | some jobs => .ok (db.jobs.countP selects, { db with jobs := jobs })
  | none => .error (.database .restrictViolation)

/-- `UPDATE audit_executions SET … WHERE id=… AND …`. -/
def updateExecution (db : Database) (executionId : Text)
    (guard : AuditExecution → Bool)
    (change : AuditExecution → AuditExecution) :
    Except AppError (Nat × Database) :=
  let selects := fun execution : AuditExecution =>
    execution.id = executionId && guard execution
  match Table.update AuditExecution.permits selects change db.executions with
  | some executions =>
      .ok (db.executions.countP selects, { db with executions := executions })
  | none => .error (.database .restrictViolation)

/-- The row of a new job. -/
def newJob (db : Database) (jobId userId : Text) : AuditJob where
  id := jobId
  userId := userId
  status := .queued
  cancelRequested := false
  cancelRequestedAt := none
  commitSha := none
  securityScore := none
  errorMessage := none
  createdAt := db.now
  startedAt := none
  finishedAt := none

/-- The insert of `create_audit_job`, under the primary key. -/
def insertJob (db : Database) (jobId userId : Text) :
    Except AppError (Unit × Database) :=
  if (db.job? jobId).isSome then .error (.database .uniqueViolation)
  else .ok ((), { db with jobs := db.jobs ++ [db.newJob jobId userId] })

/-- The row of a new execution. -/
def newExecution (db : Database) (lease : ExecutionLease) : AuditExecution where
  id := lease.executionId
  jobId := lease.jobId
  attemptNumber := lease.attemptNumber
  status := .running
  commitSha := none
  startedAt := db.now
  finishedAt := none
  failureReason := none
  ownerToken := some lease.ownerToken
  heartbeatAt := some db.now
  canonicalJson := none

/-- The insert of `begin_execution`: the primary key, the unique attempt of a
job, its one running execution, and the foreign key. -/
def insertExecution (db : Database) (lease : ExecutionLease) :
    Except AppError (Unit × Database) :=
  if db.executions.any fun execution =>
      execution.id = lease.executionId ||
        (execution.jobId = lease.jobId &&
          (execution.attemptNumber = lease.attemptNumber ||
            execution.status = .running)) then
    .error (.database .uniqueViolation)
  else if (db.job? lease.jobId).isNone then
    .error (.database .foreignKeyViolation)
  else
    .ok ((), { db with executions := db.executions ++ [db.newExecution lease] })

/-! ## Findings, scanner runs and reports -/

/-- `INSERT INTO findings … ON CONFLICT (id) DO UPDATE`. -/
def upsertFinding (jobId executionId : Text) (rows : List FindingRow)
    (finding : Finding) : List FindingRow :=
  if rows.any fun row => row.finding.id = finding.id then
    Table.set (fun row => row.finding.id = finding.id)
      (fun row =>
        { row with
          executionId := some executionId
          finding :=
            { row.finding with
              title := finding.title
              description := finding.description
              severity := finding.severity
              evidence := finding.evidence
              metadataJson := finding.metadataJson } })
      rows
  else rows ++ [⟨finding, jobId, some executionId⟩]

/-- Store the findings of an execution and drop those it no longer reports. -/
def storeFindings (db : Database) (lease : ExecutionLease)
    (findings : List Finding) : Database :=
  let stored := findings.foldl
    (upsertFinding lease.jobId lease.executionId) db.findings
  { db with
    findings := stored.filter fun row =>
      !(row.executionId = some lease.executionId &&
        row.finding.id ∉ findings.map Finding.id) }

/-- `INSERT INTO audit_scanner_runs … ON CONFLICT (execution_id, scanner) DO
UPDATE`. -/
def upsertScannerRun (executionId : Text) (rows : List ScannerRunRow)
    (record : ScannerRunRecord) : List ScannerRunRow :=
  let same := fun row : ScannerRunRow =>
    row.executionId = executionId && row.record.scanner = record.scanner
  if rows.any same then
    Table.set same
      (fun row =>
        { row with
          record :=
            { row.record with
              status := record.status
              findingCount := record.findingCount
              coverageKnown := record.coverageKnown
              detail := record.detail
              limitations := record.limitations } })
      rows
  else rows ++ [⟨executionId, record⟩]

def storeScannerRuns (db : Database) (lease : ExecutionLease)
    (records : List ScannerRunRecord) : Database :=
  { db with
    scannerRuns :=
      records.foldl (upsertScannerRun lease.executionId) db.scannerRuns }

/-- `INSERT INTO audit_reports … ON CONFLICT (execution_id) DO UPDATE`, when
there is a rendered report. -/
def storeReport (db : Database) (lease : ExecutionLease)
    (finalization : Finalization) : Database :=
  match finalization.reportMarkdown with
  | none => db
  | some markdown =>
      let same := fun row : ReportRow =>
        row.executionId = some lease.executionId
      if db.reports.any same then
        { db with
          reports := Table.set same
            (fun row =>
              { row with
                markdown := markdown
                html := finalization.reportHtml
                json := finalization.reportJson })
            db.reports }
      else
        { db with
          reports := db.reports ++
            [{ jobId := lease.jobId
               executionId := some lease.executionId
               markdown := markdown
               html := finalization.reportHtml
               json := finalization.reportJson }] }

/-- Findings, scanner runs and report of one execution.  The triggers on
these tables refuse nothing while the execution runs. -/
def storeResult (db : Database) (lease : ExecutionLease)
    (finalization : Finalization) : Database :=
  let db := db.storeFindings lease finalization.findings
  let db := db.storeScannerRuns lease finalization.scannerRuns
  db.storeReport lease finalization

/-! ## Transactions -/

/-- The status of a job that finalization may still change. -/
def finalizable (status : JobStatus) : Bool :=
  status ∈ [.queued, .running, .failed, .cancelled, .partial_,
    .engineUnavailable]

/-- The running execution of a lease holder, or why it is refused. -/
def leasedExecution (db : Database) (lease : ExecutionLease) :
    Except AppError AuditExecution :=
  match db.execution? lease.executionId with
  | none =>
      .error (.notFound (("audit execution " : Text) ++ lease.executionId))
  | some execution =>
      if execution.ownerToken ≠ some lease.ownerToken then
        .error (.conflict
          (("execution " : Text) ++ lease.executionId ++
            (" is owned by another worker; this one is stale" : Text)))
      else if execution.status ≠ .running then
        .error (.conflict
          (("execution " : Text) ++ lease.executionId ++
            (" is already " : Text) ++ execution.status.asStr ++
            (" and is immutable" : Text)))
      else .ok execution

/-- `SELECT cancel_requested FROM audit_jobs WHERE id=$1 FOR UPDATE`. -/
def cancellation (db : Database) (jobId : Text) : Except AppError Bool :=
  match db.job? jobId with
  | none => .error (.database .rowNotFound)
  | some job => .ok job.cancelRequested

/-- The request describes one execution and is consumed with it. -/
def clearCancellation (db : Database) (jobId : Text) :
    Except AppError (Nat × Database) :=
  db.updateJob jobId (fun _ => true) fun job =>
    { job with cancelRequested := false, cancelRequestedAt := none }

/-- A request that finalization has read is consumed by it. -/
def consumeCancellation (db : Database) (jobId : Text) (cancelled : Bool) :
    Except AppError (Nat × Database) :=
  if cancelled then db.clearCancellation jobId else .ok (0, db)

/-- The terminal row of the execution of a lease. -/
def closeExecution (db : Database) (lease : ExecutionLease)
    (change : AuditExecution → AuditExecution) :
    Except AppError (Nat × Database) :=
  db.updateExecution lease.executionId
    (fun execution =>
      execution.ownerToken = some lease.ownerToken &&
        execution.status = .running)
    change

/-- The job's status moves with its execution. -/
def closeJob (db : Database) (jobId : Text) (status : JobStatus)
    (score : Option ℚ) (message : Option Text) :
    Except AppError (Nat × Database) :=
  db.updateJob jobId (fun job => finalizable job.status) fun job =>
    { job with
      status := status
      finishedAt := some db.now
      securityScore := score
      errorMessage := message }

/-- Commit an execution's entire final state in one transaction. -/
def finalizeExecution (db : Database) (lease : ExecutionLease)
    (finalization : Finalization) : Except AppError (Unit × Database) := do
  let _ ← db.leasedExecution lease
  let cancelled ← db.cancellation lease.jobId
  let (_, db) ← db.consumeCancellation lease.jobId cancelled
  let status := finalStatus cancelled finalization.jobStatus
  let score :=
    finalScore cancelled finalization.coverageComplete finalization.jobStatus
      finalization.securityScore
  let db := db.storeResult lease finalization
  let (_, db) ← db.closeExecution lease fun execution =>
    { execution with
      status := status
      finishedAt := some db.now
      failureReason := finalization.failureReason
      canonicalJson := finalization.canonicalJson
      heartbeatAt := some db.now }
  let (_, db) ←
    db.closeJob lease.jobId status score finalization.failureReason
  return ((), db)

/-- Finalize an execution that ended without a result. -/
def finalizeWithoutFindings (db : Database) (lease : ExecutionLease)
    (status : JobStatus) (reason : Text) :
    Except AppError (Unit × Database) := do
  let _ ← db.leasedExecution lease
  let (_, db) ← db.closeExecution lease fun execution =>
    { execution with
      status := status
      finishedAt := some db.now
      failureReason := some reason
      heartbeatAt := some db.now }
  let (_, db) ← db.closeJob lease.jobId status none (some reason)
  let (_, db) ← db.clearCancellation lease.jobId
  return ((), db)

/-- The running row that has given no sign of life since the cutoff. -/
def abandoned? (db : Database) (executionId : Text)
    (staleBefore : Timestamp) : Option AuditExecution :=
  db.executions.find? fun execution =>
    execution.id = executionId && execution.status = .running &&
      execution.lastBeat < staleBefore

/-- The job goes back to the queue when no execution of it is running. -/
def releaseJob (db : Database) (jobId : Text) :
    Except AppError (Nat × Database) :=
  if (db.runningOf jobId).length = 0 then
    db.updateJob jobId (fun job => job.status = .running) fun job =>
      { job with status := .queued }
  else .ok (0, db)

/-- Close an execution whose owner stopped heartbeating. -/
def reapAbandonedExecution (db : Database) (executionId : Text)
    (staleBefore : Timestamp) (reason : Text) :
    Except AppError (Bool × Database) :=
  match db.abandoned? executionId staleBefore with
  | none => .ok (false, db)
  | some found => do
      let (_, db) ← db.updateExecution executionId
        (fun execution => execution.status = .running)
        fun execution =>
          { execution with
            status := .failed
            finishedAt := some db.now
            failureReason := some reason
            heartbeatAt := some db.now }
      let (_, db) ← db.clearCancellation found.jobId
      let (_, db) ← db.releaseJob found.jobId
      return (true, db)

end Database

end FireCrow.Orchestrator.Execution
