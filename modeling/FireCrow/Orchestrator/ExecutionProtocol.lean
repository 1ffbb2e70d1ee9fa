import FireCrow.Library.Interleaving
import FireCrow.Orchestrator.ExecutionStore

/-!
# The execution protocol

The operations of workers, callers and recovery as programs over single SQL
statements and transactions.

`generate_uuid` and the clock of the application are sources of the process;
`NOW()` is the clock of the database, which is the same one here.
-/

namespace FireCrow.Orchestrator.Execution

open FireCrow.Library FireCrow.Schemas

/-! ## Statements -/

/-- A statement or a transaction of the protocol. -/
inductive Statement where
  /-- The insert of `create_audit_job`. -/
  | createJob (jobId userId : Text)
  /-- The claim of `worker_loop`, skipping rows that others hold locked. -/
  | claimQueued (skipped : List Text)
  /-- The claim of `claim_job_for_execution`. -/
  | claimJob (jobId : Text)
  | runningExecution (jobId : Text)
  | jobStatus (jobId : Text)
  /-- `begin_execution`: terminal to queued. -/
  | reopenJob (jobId : Text)
  /-- `begin_execution`: queued to running. -/
  | launchJob (jobId : Text)
  | nextAttempt (jobId : Text)
  | insertExecution (lease : ExecutionLease)
  | bindSnapshot (executionId ownerToken commitSha : Text)
  /-- `run_pipeline` pins the snapshot on the job. -/
  | recordCommit (jobId commitSha : Text)
  | heartbeat (executionId ownerToken : Text)
  | requestCancellation (jobId userId : Text)
  | ownedJobStatus (jobId userId : Text)
  | runningCount (jobId : Text)
  | retryJob (jobId userId : Text)
  | utcNow
  | abandonedExecutions (cutoff : Timestamp)
  | reapAbandonedExecution (executionId : Text) (staleBefore : Timestamp)
      (reason : Text)
  | stuckJobs (cutoff : Timestamp)
  /-- The update of the second loop of `sweep_zombie_jobs`. -/
  | failStuckJob (jobId : Text)
  | failJobIfUnowned (jobId reason : Text)
  | finalizeExecution (lease : ExecutionLease) (finalization : Finalization)
  | finalizeWithoutFindings (lease : ExecutionLease) (status : JobStatus)
      (reason : Text)

/-- What a statement returns. -/
def Statement.Answer : Statement → Type
  | .createJob .. => Unit
  | .claimQueued .. => Option Text
  | .claimJob .. => Nat
  | .runningExecution .. => Option Text
  | .jobStatus .. => Option JobStatus
  | .reopenJob .. => Nat
  | .launchJob .. => Nat
  | .nextAttempt .. => Nat
  | .insertExecution .. => Unit
  | .bindSnapshot .. => Nat
  | .recordCommit .. => Nat
  | .heartbeat .. => Nat
  | .requestCancellation .. => Nat
  | .ownedJobStatus .. => Option JobStatus
  | .runningCount .. => Nat
  | .retryJob .. => Nat
  | .utcNow => Timestamp
  | .abandonedExecutions .. => List (Text × Text)
  | .reapAbandonedExecution .. => Bool
  | .stuckJobs .. => List Text
  | .failStuckJob .. => Nat
  | .failJobIfUnowned .. => Nat
  | .finalizeExecution .. => Unit
  | .finalizeWithoutFindings .. => Unit

namespace Database

/-- Terminal statuses that a retry may reopen. -/
def reopenable (status : JobStatus) : Bool :=
  status ∈ [.failed, .cancelled, .partial_, .engineUnavailable]

/-- Queued and running jobs. -/
def live (status : JobStatus) : Bool := status ∈ [.queued, .running]

def claim (db : Database) (jobId : Text) : Except AppError (Nat × Database) :=
  db.updateJob jobId (fun job => job.status = .queued) fun job =>
    { job with status := .running, startedAt := some db.now }

/-- The oldest queued job whose row nobody holds. -/
def oldestQueued (db : Database) (skipped : List Text) : Option AuditJob :=
  (sortBy AuditJob.createdAt
    (db.jobs.filter fun job =>
      job.status = .queued && job.id ∉ skipped)).head?

def claimQueued (db : Database) (skipped : List Text) :
    Except AppError (Option Text × Database) :=
  match db.oldestQueued skipped with
  | none => .ok (none, db)
  | some job => do
      let (_, db) ← db.claim job.id
      return (some job.id, db)

def reopenJob (db : Database) (jobId : Text) :
    Except AppError (Nat × Database) :=
  db.updateJob jobId (fun _ => true) fun job => { job with status := .queued }

def launchJob (db : Database) (jobId : Text) :
    Except AppError (Nat × Database) :=
  db.updateJob jobId (fun job => job.status = .queued) fun job =>
    { job with
      status := .running
      startedAt := some (job.startedAt.getD db.now) }

/-- The next attempt number, an `INTEGER`. -/
def nextAttempt (db : Database) (jobId : Text) :
    Except AppError (Nat × Database) :=
  let next := db.lastAttempt jobId + 1
  if next < 2 ^ 31 then .ok (next, db) else .error (.database .outOfRange)

def bindSnapshot (db : Database) (executionId ownerToken commitSha : Text) :
    Except AppError (Nat × Database) :=
  db.updateExecution executionId
    (fun execution => execution.ownerToken = some ownerToken)
    fun execution => { execution with commitSha := some commitSha }

def recordCommit (db : Database) (jobId commitSha : Text) :
    Except AppError (Nat × Database) :=
  db.updateJob jobId (fun _ => true) fun job =>
    { job with commitSha := some commitSha }

def heartbeat (db : Database) (executionId ownerToken : Text) :
    Except AppError (Nat × Database) :=
  db.updateExecution executionId
    (fun execution =>
      execution.ownerToken = some ownerToken && execution.status = .running)
    fun execution => { execution with heartbeatAt := some db.now }

def requestCancellation (db : Database) (jobId userId : Text) :
    Except AppError (Nat × Database) :=
  db.updateJob jobId (fun job => job.userId = userId && live job.status)
    fun job =>
      { job with cancelRequested := true, cancelRequestedAt := some db.now }

def retryJob (db : Database) (jobId userId : Text) :
    Except AppError (Nat × Database) :=
  db.updateJob jobId (fun job => job.userId = userId && reopenable job.status)
    fun job =>
      { job with
        status := .queued
        cancelRequested := false
        cancelRequestedAt := none
        errorMessage := none }

/-- Running executions without a sign of life since the cutoff. -/
def abandonedExecutions (db : Database) (cutoff : Timestamp) :
    List (Text × Text) :=
  (db.executions.filter fun execution =>
    execution.status = .running && execution.lastBeat < cutoff).map
      fun execution => (execution.id, execution.jobId)

/-- Running jobs, started before the cutoff, without a running execution. -/
def stuckJobs (db : Database) (cutoff : Timestamp) : List Text :=
  (db.jobs.filter fun job =>
    job.status = .running && (job.startedAt.all fun start => start < cutoff) &&
      (db.runningOf job.id).isEmpty).map AuditJob.id

def abandonedMessage : Text :=
  "Job abandoned / worker terminated (no active heartbeat or execution)"

def failStuckJob (db : Database) (jobId : Text) :
    Except AppError (Nat × Database) :=
  db.updateJob jobId (fun job => job.status = .running) fun job =>
    { job with
      status := .failed
      finishedAt := some db.now
      errorMessage := some abandonedMessage }

/-- Fail a job whose worker never opened an execution. -/
def failJobIfUnowned (db : Database) (jobId reason : Text) :
    Except AppError (Nat × Database) :=
  db.updateJob jobId
    (fun job => live job.status && (db.runningOf jobId).isEmpty) fun job =>
      { job with
        status := .failed
        errorMessage := some reason
        finishedAt := some db.now }

end Database

/-- What a statement does. -/
def Statement.run (db : Database) : (statement : Statement) →
    Except AppError (statement.Answer × Database)
  | .createJob jobId userId => db.insertJob jobId userId
  | .claimQueued skipped => db.claimQueued skipped
  | .claimJob jobId => db.claim jobId
  | .runningExecution jobId =>
      .ok ((db.runningOf jobId).head?.map AuditExecution.id, db)
  | .jobStatus jobId => .ok ((db.job? jobId).map AuditJob.status, db)
  | .reopenJob jobId => db.reopenJob jobId
  | .launchJob jobId => db.launchJob jobId
  | .nextAttempt jobId => db.nextAttempt jobId
  | .insertExecution lease => db.insertExecution lease
  | .bindSnapshot executionId ownerToken commitSha =>
      db.bindSnapshot executionId ownerToken commitSha
  | .recordCommit jobId commitSha => db.recordCommit jobId commitSha
  | .heartbeat executionId ownerToken => db.heartbeat executionId ownerToken
  | .requestCancellation jobId userId => db.requestCancellation jobId userId
  | .ownedJobStatus jobId userId =>
      .ok (((db.job? jobId).filter fun job => job.userId = userId).map
        AuditJob.status, db)
  | .runningCount jobId => .ok ((db.runningOf jobId).length, db)
  | .retryJob jobId userId => db.retryJob jobId userId
  | .utcNow => .ok (db.now, db)
  | .abandonedExecutions cutoff => .ok (db.abandonedExecutions cutoff, db)
  | .reapAbandonedExecution executionId staleBefore reason =>
      db.reapAbandonedExecution executionId staleBefore reason
  | .stuckJobs cutoff => .ok (db.stuckJobs cutoff, db)
  | .failStuckJob jobId => db.failStuckJob jobId
  | .failJobIfUnowned jobId reason => db.failJobIfUnowned jobId reason
  | .finalizeExecution lease finalization =>
      db.finalizeExecution lease finalization
  | .finalizeWithoutFindings lease status reason =>
      db.finalizeWithoutFindings lease status reason

/-- The reply to a statement: its answer, or the error it was refused with. -/
abbrev Statement.Reply (statement : Statement) : Type :=
  Except AppError statement.Answer

/-- A refused statement leaves the database. -/
def Statement.answer (db : Database) (statement : Statement) :
    statement.Reply × Database :=
  match statement.run db with
  | .ok (answer, after) => (.ok answer, after)
  | .error error => (.error error, db)

/-! ## Operations -/

abbrev Task := Program Statement Statement.Reply AppError

/-- Execute one statement. -/
def query (statement : Statement) : Task statement.Answer :=
  .ask statement .done

/-- Execute one statement and look at its error. -/
def tryQuery (statement : Statement) : Task statement.Reply :=
  (query statement).attempt

/-- Move the job of a new attempt to `running`.  The outcome of the last step
is ignored. -/
def launch (jobId : Text) : Option JobStatus → Task Unit
  | none => pure ()
  | some status => do
      if Database.reopenable status then
        let _ ← query (.reopenJob jobId)
      let _ ← tryQuery (.launchJob jobId)

/-- Insert the next attempt, again after every conflict. -/
def insertAttempt (uuids : Nat → Text) (jobId ownerToken : Text) :
    Nat → Task ExecutionLease
  | 0 =>
      .fail (.internal
        (("could not open an execution for job " : Text) ++ jobId ++
          (" after repeated conflicts" : Text)))
  | tries + 1 => do
      let next : Nat ← query (.nextAttempt jobId)
      let lease : ExecutionLease := ⟨uuids tries, jobId, next, ownerToken⟩
      let inserted ← tryQuery (.insertExecution lease)
      match inserted with
      | .ok _ => return lease
      | .error error =>
          if error = .database .uniqueViolation then
            insertAttempt uuids jobId ownerToken tries
          else .fail error

/-- Begin the next attempt for a job. -/
def beginExecution (uuids : Nat → Text) (jobId : Text) :
    Task ExecutionLease := do
  let existing : Option Text ← query (.runningExecution jobId)
  match existing with
  | some existing =>
      .fail (.conflict
        (("job " : Text) ++ jobId ++ (" already has running execution " : Text)
          ++ existing))
  | none =>
      let status : Option JobStatus ← query (.jobStatus jobId)
      launch jobId status
      insertAttempt uuids jobId (uuids 5) 5

/-- Bind an execution to the snapshot it judges. -/
def bindSnapshot (executionId ownerToken commitSha : Text) : Task Unit := do
  let updated : Nat ← query (.bindSnapshot executionId ownerToken commitSha)
  if updated ≠ 1 then
    .fail (.conflict
      (("execution " : Text) ++ executionId ++
        (" is not owned by this worker" : Text)))

/-- Record a request to cancel a job. -/
def cancelJob (jobId userId : Text) : Task Unit := do
  let updated : Nat ← query (.requestCancellation jobId userId)
  if updated = 0 then
    .fail (.notFound "Job not found, already finished, or access denied")

/-- Requeue a terminal job. -/
def retryJob (jobId userId : Text) : Task Unit := do
  let status : Option JobStatus ← query (.ownedJobStatus jobId userId)
  match status with
  | none => .fail (.notFound "Job not found")
  | some status =>
      if status ∈ [JobStatus.completed, .running, .queued] then
        .fail (.conflict
          (("job " : Text) ++ jobId ++ (" is " : Text) ++ status.asStr ++
            (" and cannot be retried" : Text)))
      else
        let running : Nat ← query (.runningCount jobId)
        if 0 < running then
          .fail (.conflict
            (("job " : Text) ++ jobId ++
              (" already has a running execution" : Text)))
        else
          let updated : Nat ← query (.retryJob jobId userId)
          if updated = 0 then
            .fail (.conflict
              (("job " : Text) ++ jobId ++
                (" cannot be retried from its current state" : Text)))

/-- Without a sign of life for this long an execution is abandoned. -/
def staleAfter : Timestamp := 5 * 60 * 1000000

/-- Reap the executions of a list; errors are skipped. -/
def reapAll (cutoff : Timestamp) (reason : Text) :
    List (Text × Text) → Nat → Task Nat
  | [], total => pure total
  | (executionId, _) :: rest, total => do
      let reaped : Except AppError Bool ←
        tryQuery (.reapAbandonedExecution executionId cutoff reason)
      reapAll cutoff reason rest
        (if reaped = .ok true then total + 1 else total)

/-- Fail the jobs of a list that are still running. -/
def failAll : List Text → Nat → Task Nat
  | [], total => pure total
  | jobId :: rest, total => do
      let affected : Nat ← query (.failStuckJob jobId)
      failAll rest (total + affected)

def sweptReason : Text :=
  "execution owner stopped heartbeating (recovered by zombie sweeper)"

/-- Reclaim abandoned executions, and jobs that run without one. -/
def sweepZombieJobs : Task Nat := do
  let now : Timestamp ← query .utcNow
  let cutoff := now - staleAfter
  let abandoned : List (Text × Text) ← query (.abandonedExecutions cutoff)
  let total ← reapAll cutoff sweptReason abandoned 0
  let stuck : List Text ← query (.stuckJobs cutoff)
  failAll stuck total

def reapedReason : Text :=
  "execution owner stopped heartbeating (recovered by reaper)"

/-- One round of the reaper of the worker pool. -/
def reaperRound : Task Nat := do
  let now : Timestamp ← query .utcNow
  let cutoff := now - staleAfter
  let abandoned : Except AppError (List (Text × Text)) ←
    tryQuery (.abandonedExecutions cutoff)
  reapAll cutoff reapedReason (abandoned.toOption.getD []) 0

/-- What a worker, a caller or the recovery may start. -/
inductive Operation where
  | createJob (jobId userId : Text)
  | claimQueued (skipped : List Text)
  | claimJob (jobId : Text)
  | beginExecution (uuids : Nat → Text) (jobId : Text)
  | bindSnapshot (executionId ownerToken commitSha : Text)
  | recordCommit (jobId commitSha : Text)
  | heartbeat (executionId ownerToken : Text)
  | cancelJob (jobId userId : Text)
  | retryJob (jobId userId : Text)
  | reapAbandonedExecution (executionId : Text) (staleBefore : Timestamp)
      (reason : Text)
  | reaperRound
  | sweepZombieJobs
  | failJobIfUnowned (jobId reason : Text)
  | finalizeExecution (lease : ExecutionLease) (finalization : Finalization)
  | finalizeWithoutFindings (lease : ExecutionLease) (status : JobStatus)
      (reason : Text)

def Operation.program : Operation → Task Unit
  | .createJob jobId userId => (query (.createJob jobId userId)).discard
  | .claimQueued skipped => (query (.claimQueued skipped)).discard
  | .claimJob jobId => (query (.claimJob jobId)).discard
  | .beginExecution uuids jobId =>
      (Execution.beginExecution uuids jobId).discard
  | .bindSnapshot executionId ownerToken commitSha =>
      Execution.bindSnapshot executionId ownerToken commitSha
  | .recordCommit jobId commitSha =>
      (query (.recordCommit jobId commitSha)).discard
  | .heartbeat executionId ownerToken =>
      (query (.heartbeat executionId ownerToken)).discard
  | .cancelJob jobId userId => Execution.cancelJob jobId userId
  | .retryJob jobId userId => Execution.retryJob jobId userId
  | .reapAbandonedExecution executionId staleBefore reason =>
      (query (.reapAbandonedExecution executionId staleBefore reason)).discard
  | .reaperRound => Execution.reaperRound.discard
  | .sweepZombieJobs => Execution.sweepZombieJobs.discard
  | .failJobIfUnowned jobId reason =>
      (query (.failJobIfUnowned jobId reason)).discard
  | .finalizeExecution lease finalization =>
      (query (.finalizeExecution lease finalization)).discard
  | .finalizeWithoutFindings lease status reason =>
      (query (.finalizeWithoutFindings lease status reason)).discard

/-! ## What the operations issue -/

/-- The statement neither creates a job nor reaps an execution. -/
def Statement.Ordinary : Statement → Prop
  | .createJob .. => False
  | .reapAbandonedExecution .. => False
  | _ => True

/-- An ordinary statement that neither opens nor finalizes an execution. -/
def Statement.Plain : Statement → Prop
  | .insertExecution .. => False
  | .finalizeExecution .. => False
  | .finalizeWithoutFindings .. => False
  | statement => statement.Ordinary

theorem Statement.Plain.ordinary (statement : Statement)
    (plain : statement.Plain) : statement.Ordinary := by
  cases statement <;> first | exact plain | exact plain.elim

theorem query_asks {statement : Statement} {among : Statement → Prop}
    (free : among statement) : (query statement).Asks among :=
  ⟨free, fun _ => trivial⟩

theorem discard_asks {Result : Type} {program : Task Result}
    {among : Statement → Prop} (asks : program.Asks among) :
    program.discard.Asks among :=
  Program.Asks.bind asks fun _ => trivial

theorem launch_plain (jobId : Text) (status : Option JobStatus) :
    (launch jobId status).Asks Statement.Plain := by
  cases status with
  | none => trivial
  | some status =>
      have last : (tryQuery (.launchJob jobId) >>= fun _ => pure ()).Asks
          Statement.Plain :=
        Program.Asks.bind (query_asks trivial).attempt fun _ => trivial
      unfold launch
      dsimp only
      split
      · exact Program.Asks.bind (query_asks trivial) fun _ => last
      · exact last

theorem insertAttempt_ordinary (uuids : Nat → Text) (jobId ownerToken : Text)
    (tries : Nat) :
    (insertAttempt uuids jobId ownerToken tries).Asks Statement.Ordinary := by
  induction tries with
  | zero => trivial
  | succ tries ih =>
      apply Program.Asks.bind (query_asks trivial)
      intro next
      apply Program.Asks.bind (query_asks trivial).attempt
      intro inserted
      cases inserted with
      | ok _ => trivial
      | error error =>
          dsimp only
          split
          · exact ih
          · trivial

theorem beginExecution_ordinary (uuids : Nat → Text) (jobId : Text) :
    (beginExecution uuids jobId).Asks Statement.Ordinary := by
  apply Program.Asks.bind (query_asks trivial)
  intro existing
  cases existing with
  | some existing => trivial
  | none =>
      apply Program.Asks.bind (query_asks trivial)
      intro status
      apply Program.Asks.bind
        ((launch_plain jobId status).mono Statement.Plain.ordinary)
      intro _
      exact insertAttempt_ordinary uuids jobId (uuids 5) 5

theorem retryJob_plain (jobId userId : Text) :
    (retryJob jobId userId).Asks Statement.Plain := by
  apply Program.Asks.bind (query_asks trivial)
  intro status
  cases status with
  | none => trivial
  | some status =>
      dsimp only
      split
      · trivial
      · apply Program.Asks.bind (query_asks trivial)
        intro running
        split
        · trivial
        · apply Program.Asks.bind (query_asks trivial)
          intro updated
          split <;> trivial

theorem failAll_plain (stuck : List Text) (total : Nat) :
    (failAll stuck total).Asks Statement.Plain := by
  induction stuck generalizing total with
  | nil => trivial
  | cons jobId rest ih =>
      exact Program.Asks.bind (query_asks trivial) fun _ => ih _

/-! ## The machine -/

/-- A lease that `begin_execution` returned: its execution is in the table. -/
def Database.Leased (db : Database) (lease : ExecutionLease) : Prop :=
  ∃ execution ∈ db.executions, execution.id = lease.executionId ∧
    execution.jobId = lease.jobId ∧
    execution.attemptNumber = lease.attemptNumber ∧
    execution.ownerToken = some lease.ownerToken

instance (db : Database) (lease : ExecutionLease) :
    Decidable (db.Leased lease) := by
  unfold Database.Leased
  infer_instance

/-- Only a lease holder finalizes. -/
def Operation.permitted (db : Database) : Operation → Prop
  | .finalizeExecution lease _ => db.Leased lease
  | .finalizeWithoutFindings lease _ _ => db.Leased lease
  | _ => True

instance (db : Database) (operation : Operation) :
    Decidable (operation.permitted db) := by
  cases operation <;> unfold Operation.permitted <;> infer_instance

/-- The processes over one database. -/
def machine :
    Machine Database Statement Statement.Reply AppError Operation where
  answer := Statement.answer
  failure _ := .error (.database .unavailable)
  elapse db duration := { db with now := db.now + duration }
  program := Operation.program
  permitted := Operation.permitted

instance (db : Database) (operation : Operation) :
    Decidable (machine.permitted db operation) :=
  inferInstanceAs (Decidable (operation.permitted db))

abbrev Configuration := Config Database Statement Statement.Reply AppError

/-- An empty database and no process. -/
def start : Configuration where
  state :=
    { now := 0
      jobs := []
      executions := []
      findings := []
      scannerRuns := []
      reports := [] }
  processes _ := none

/-- What a run reaches whose steps all meet a condition. -/
def Reachable
    (condition : Condition Database Statement Statement.Reply Operation)
    (config : Configuration) : Prop :=
  machine.Run condition start config

end FireCrow.Orchestrator.Execution
