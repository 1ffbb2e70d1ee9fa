import FireCrow.Orchestrator.ExecutionProtocol

/-!
# What each statement does to the rows

`jobAfter` and `executionAfter` are the row that a statement makes of a row,
and `Effect` says that a statement which succeeds does exactly this to the
tables of jobs and executions, within the triggers.  The invariants of the
protocol are read off these two functions.
-/

namespace FireCrow.Orchestrator.Execution

open FireCrow.Library FireCrow.Schemas

/-! ## Rows after a statement -/

/-- The job without a pending request. -/
def AuditJob.cleared (job : AuditJob) : AuditJob :=
  { job with cancelRequested := false, cancelRequestedAt := none }

/-- The job as a transaction that closes its execution leaves it. -/
def AuditJob.closed (job : AuditJob) (now : Timestamp) (status : JobStatus)
    (score : Option ℚ) (message : Option Text) : AuditJob :=
  if Database.finalizable job.status then
    { job with
      status := status
      finishedAt := some now
      securityScore := score
      errorMessage := message }
  else job

/-- The request that finalization reads. -/
def Database.cancelled (db : Database) (jobId : Text) : Bool :=
  (db.job? jobId).any AuditJob.cancelRequested

/-- The job of an abandoned execution, back in the queue when no other
execution of it is running. -/
def AuditJob.released (job : AuditJob) (alone : Bool) : AuditJob :=
  if alone && job.status = .running then
    { job.cleared with status := .queued }
  else job.cleared

/-- No execution of the job is running but this one. -/
def Database.onlyRunning (db : Database) (executionId jobId : Text) : Bool :=
  db.executions.all fun execution =>
    !(execution.jobId = jobId && execution.status = .running) ||
      execution.id = executionId

/-- The job that a statement leaves for a job. -/
def Statement.jobAfter (db : Database) :
    Statement → AuditJob → AuditJob
  | .claimQueued skipped, job =>
      match db.oldestQueued skipped with
      | none => job
      | some oldest =>
          if job.id = oldest.id && job.status = .queued then
            { job with status := .running, startedAt := some db.now }
          else job
  | .claimJob jobId, job =>
      if job.id = jobId && job.status = .queued then
        { job with status := .running, startedAt := some db.now }
      else job
  | .reopenJob jobId, job =>
      if job.id = jobId then { job with status := .queued } else job
  | .launchJob jobId, job =>
      if job.id = jobId && job.status = .queued then
        { job with
          status := .running
          startedAt := some (job.startedAt.getD db.now) }
      else job
  | .recordCommit jobId commitSha, job =>
      if job.id = jobId then { job with commitSha := some commitSha } else job
  | .requestCancellation jobId userId, job =>
      if job.id = jobId && (job.userId = userId && Database.live job.status)
      then
        { job with cancelRequested := true, cancelRequestedAt := some db.now }
      else job
  | .retryJob jobId userId, job =>
      if job.id = jobId &&
          (job.userId = userId && Database.reopenable job.status) then
        { job.cleared with status := .queued, errorMessage := none }
      else job
  | .failStuckJob jobId, job =>
      if job.id = jobId && job.status = .running then
        { job with
          status := .failed
          finishedAt := some db.now
          errorMessage := some Database.abandonedMessage }
      else job
  | .failJobIfUnowned jobId reason, job =>
      if job.id = jobId &&
          (Database.live job.status && (db.runningOf jobId).isEmpty) then
        { job with
          status := .failed
          errorMessage := some reason
          finishedAt := some db.now }
      else job
  | .reapAbandonedExecution executionId staleBefore _, job =>
      match db.abandoned? executionId staleBefore with
      | none => job
      | some found =>
          if job.id = found.jobId then
            job.released (db.onlyRunning executionId found.jobId)
          else job
  | .finalizeExecution lease finalization, job =>
      let cancelled := db.cancelled lease.jobId
      if job.id = lease.jobId then
        (if cancelled then job.cleared else job).closed db.now
          (finalStatus cancelled finalization.jobStatus)
          (finalScore cancelled finalization.coverageComplete
            finalization.jobStatus finalization.securityScore)
          finalization.failureReason
      else job
  | .finalizeWithoutFindings lease status reason, job =>
      if job.id = lease.jobId then
        (job.closed db.now status none (some reason)).cleared
      else job
  | _, job => job

/-- The execution that a statement leaves for an execution. -/
def Statement.executionAfter (db : Database) :
    Statement → AuditExecution → AuditExecution
  | .bindSnapshot executionId ownerToken commitSha, execution =>
      if execution.id = executionId &&
          execution.ownerToken = some ownerToken then
        { execution with commitSha := some commitSha }
      else execution
  | .heartbeat executionId ownerToken, execution =>
      if execution.id = executionId &&
          (execution.ownerToken = some ownerToken &&
            execution.status = .running) then
        { execution with heartbeatAt := some db.now }
      else execution
  | .reapAbandonedExecution executionId staleBefore reason, execution =>
      if (db.abandoned? executionId staleBefore).isSome &&
          (execution.id = executionId && execution.status = .running) then
        { execution with
          status := .failed
          finishedAt := some db.now
          failureReason := some reason
          heartbeatAt := some db.now }
      else execution
  | .finalizeExecution lease finalization, execution =>
      if execution.id = lease.executionId &&
          (execution.ownerToken = some lease.ownerToken &&
            execution.status = .running) then
        { execution with
          status :=
            finalStatus (db.cancelled lease.jobId) finalization.jobStatus
          finishedAt := some db.now
          failureReason := finalization.failureReason
          canonicalJson := finalization.canonicalJson
          heartbeatAt := some db.now }
      else execution
  | .finalizeWithoutFindings lease status reason, execution =>
      if execution.id = lease.executionId &&
          (execution.ownerToken = some lease.ownerToken &&
            execution.status = .running) then
        { execution with
          status := status
          finishedAt := some db.now
          failureReason := some reason
          heartbeatAt := some db.now }
      else execution
  | _, execution => execution

/-- The jobs that a statement inserts. -/
def Statement.newJobs (db : Database) : Statement → List AuditJob
  | .createJob jobId userId => [db.newJob jobId userId]
  | _ => []

/-- The executions that a statement inserts. -/
def Statement.newExecutions (db : Database) : Statement → List AuditExecution
  | .insertExecution lease => [db.newExecution lease]
  | _ => []

/-- What a statement checked before it succeeded. -/
def Statement.Admitted (db : Database) : Statement → Prop
  | .createJob jobId _ => db.job? jobId = none
  | .insertExecution lease =>
      (∃ job, db.job? lease.jobId = some job) ∧
        ∀ execution ∈ db.executions, execution.id ≠ lease.executionId ∧
          (execution.jobId = lease.jobId →
            execution.attemptNumber ≠ lease.attemptNumber ∧
              execution.status ≠ .running)
  | .finalizeExecution lease _ =>
      (∃ job, db.job? lease.jobId = some job) ∧
        ∃ execution, db.execution? lease.executionId = some execution ∧
          execution.ownerToken = some lease.ownerToken ∧
          execution.status = .running
  | .finalizeWithoutFindings lease _ _ =>
      ∃ execution, db.execution? lease.executionId = some execution ∧
        execution.ownerToken = some lease.ownerToken ∧
        execution.status = .running
  | _ => True

/-- What a statement that succeeds does to jobs and executions. -/
structure Statement.Effect (db : Database) (statement : Statement)
    (after : Database) : Prop where
  now : after.now = db.now
  jobs : after.jobs =
    db.jobs.map (statement.jobAfter db) ++ statement.newJobs db
  executions : after.executions =
    db.executions.map (statement.executionAfter db) ++
      statement.newExecutions db
  lifecycle : ∀ job ∈ db.jobs,
    lifecycleGuard job.status (statement.jobAfter db job).status = true
  permitted : ∀ execution ∈ db.executions,
    statement.executionAfter db execution = execution ∨
      execution.permits (statement.executionAfter db execution) = true
  admitted : statement.Admitted db

/-! ## Updates -/

@[simp]
theorem lifecycleGuard_self (status : JobStatus) :
    lifecycleGuard status status = true := by
  simp [lifecycleGuard]

variable {db after : Database} {jobId : Text} {affected : Nat}

theorem updateJob_eq_ok
    {guard : AuditJob → Bool} {change : AuditJob → AuditJob}
    (success : db.updateJob jobId guard change = .ok (affected, after)) :
    (∀ job ∈ db.jobs, lifecycleGuard job.status
      (if job.id = jobId && guard job then change job else job).status =
        true) ∧
      affected = db.jobs.countP (fun job => job.id = jobId && guard job) ∧
      after = { db with
        jobs := db.jobs.map fun job =>
          if job.id = jobId && guard job then change job else job } := by
  unfold Database.updateJob at success
  dsimp only at success
  split at success
  · rename_i jobs updated
    cases success
    rcases Table.update_eq_some.1 updated with ⟨permitted, rfl⟩
    refine ⟨fun job member => ?_, rfl, rfl⟩
    split
    · rename_i selected
      exact permitted job member selected
    · exact lifecycleGuard_self _
  · cases success

variable {executionId : Text}

theorem updateExecution_eq_ok
    {guard : AuditExecution → Bool} {change : AuditExecution → AuditExecution}
    (success :
      db.updateExecution executionId guard change = .ok (affected, after)) :
    (∀ execution ∈ db.executions,
      (if execution.id = executionId && guard execution then change execution
        else execution) = execution ∨
        execution.permits
          (if execution.id = executionId && guard execution then
            change execution else execution) = true) ∧
      after = { db with
        executions := db.executions.map fun execution =>
          if execution.id = executionId && guard execution then
            change execution
          else execution } := by
  unfold Database.updateExecution at success
  dsimp only at success
  split at success
  · rename_i executions updated
    cases success
    rcases Table.update_eq_some.1 updated with ⟨permitted, rfl⟩
    refine ⟨fun execution member => ?_, rfl⟩
    split
    · rename_i selected
      exact Or.inr (permitted execution member selected)
    · exact Or.inl rfl
  · cases success

/-- An update that the lifecycle permits is carried out. -/
theorem updateJob_ok (db : Database) (jobId : Text) (guard : AuditJob → Bool)
    (change : AuditJob → AuditJob)
    (permitted : ∀ job ∈ db.jobs, job.id = jobId → guard job = true →
      lifecycleGuard job.status (change job).status = true) :
    ∃ count, db.updateJob jobId guard change = .ok (count, { db with
      jobs := db.jobs.map fun job =>
        if job.id = jobId && guard job then change job else job }) := by
  have updated : Table.update AuditJob.permits
      (fun job => job.id = jobId && guard job) change db.jobs =
        some (Table.set (fun job => job.id = jobId && guard job) change
          db.jobs) := by
    refine Table.update_eq_some.2 ⟨fun job member selected => ?_, rfl⟩
    simp only [Bool.and_eq_true, decide_eq_true_eq] at selected
    exact permitted job member selected.1 selected.2
  unfold Database.updateJob
  simp only [updated]
  exact ⟨_, rfl⟩

theorem updateExecution_ok (db : Database) (executionId : Text)
    (guard : AuditExecution → Bool) (change : AuditExecution → AuditExecution)
    (permitted : ∀ execution ∈ db.executions, execution.id = executionId →
      guard execution = true → execution.permits (change execution) = true) :
    ∃ count, db.updateExecution executionId guard change =
      .ok (count, { db with
        executions := db.executions.map fun execution =>
          if execution.id = executionId && guard execution then
            change execution
          else execution }) := by
  have updated : Table.update AuditExecution.permits
      (fun execution => execution.id = executionId && guard execution) change db.executions =
        some (Table.set (fun execution => execution.id = executionId && guard execution) change
          db.executions) := by
    refine Table.update_eq_some.2 ⟨fun execution member selected => ?_, rfl⟩
    simp only [Bool.and_eq_true, decide_eq_true_eq] at selected
    exact permitted execution member selected.1 selected.2
  unfold Database.updateExecution
  simp only [updated]
  exact ⟨_, rfl⟩

variable {statement : Statement}

/-- A statement that only updates jobs. -/
theorem Effect.of_updateJob
    {guard : AuditJob → Bool} {change : AuditJob → AuditJob}
    (success : db.updateJob jobId guard change = .ok (affected, after))
    (job : statement.jobAfter db = fun job =>
      if job.id = jobId && guard job then change job else job)
    (execution : statement.executionAfter db = id)
    (newJobs : statement.newJobs db = [])
    (newExecutions : statement.newExecutions db = [])
    (admitted : statement.Admitted db) : statement.Effect db after := by
  rcases updateJob_eq_ok success with ⟨permitted, _, rfl⟩
  constructor
  · rfl
  · rw [job, newJobs, List.append_nil]
  · rw [execution, newExecutions, List.append_nil, List.map_id]
  · rw [job]
    exact permitted
  · rw [execution]
    exact fun _ _ => Or.inl rfl
  · exact admitted

/-- A statement that only reads. -/
theorem Effect.of_read (job : statement.jobAfter db = id)
    (execution : statement.executionAfter db = id)
    (newJobs : statement.newJobs db = [])
    (newExecutions : statement.newExecutions db = [])
    (admitted : statement.Admitted db) : statement.Effect db db := by
  constructor
  · rfl
  · rw [job, newJobs, List.append_nil, List.map_id]
  · rw [execution, newExecutions, List.append_nil, List.map_id]
  · rw [job]
    exact fun _ _ => lifecycleGuard_self _
  · rw [execution]
    exact fun _ _ => Or.inl rfl
  · exact admitted

/-! ## Transactions -/

variable {lease : ExecutionLease}

theorem leasedExecution_eq_ok {execution : AuditExecution} :
    db.leasedExecution lease = .ok execution ↔
      db.execution? lease.executionId = some execution ∧
        execution.ownerToken = some lease.ownerToken ∧
        execution.status = .running := by
  unfold Database.leasedExecution
  cases db.execution? lease.executionId with
  | none => simp
  | some found =>
      simp only [Option.some.injEq]
      split
      · rename_i stale
        simp only [reduceCtorEq, false_iff]
        rintro ⟨rfl, owned, _⟩
        exact stale owned
      · rename_i owned
        split
        · rename_i terminal
          simp only [reduceCtorEq, false_iff]
          rintro ⟨rfl, _, running⟩
          exact terminal running
        · rename_i running
          simp only [Except.ok.injEq]
          constructor
          · rintro rfl
            exact ⟨rfl, not_not.1 owned, not_not.1 running⟩
          · exact fun found => found.1

theorem cancellation_eq_ok {flag : Bool}
    (read : db.cancellation jobId = .ok flag) :
    (∃ job, db.job? jobId = some job) ∧ flag = db.cancelled jobId := by
  unfold Database.cancellation at read
  unfold Database.cancelled
  cases found : db.job? jobId with
  | none => simp [found] at read
  | some job =>
      simp only [found, Except.ok.injEq] at read
      exact ⟨⟨job, rfl⟩, by simp [read]⟩

/-- Storing the result of an execution leaves jobs and executions. -/
theorem store_frame (db : Database) (lease : ExecutionLease)
    (finalization : Finalization) :
    (db.storeResult lease finalization).now = db.now ∧
      (db.storeResult lease finalization).jobs = db.jobs ∧
      (db.storeResult lease finalization).executions = db.executions := by
  unfold Database.storeResult Database.storeReport
  dsimp only
  split
  · exact ⟨rfl, rfl, rfl⟩
  · split <;> exact ⟨rfl, rfl, rfl⟩

/-- The job once its request is consumed. -/
def AuditJob.consumed (job : AuditJob) (jobId : Text) (flag : Bool) : AuditJob :=
  if job.id = jobId && flag then job.cleared else job

@[simp]
theorem AuditJob.consumed_id (job : AuditJob) (jobId : Text) (flag : Bool) :
    (job.consumed jobId flag).id = job.id := by
  unfold AuditJob.consumed
  split <;> rfl

@[simp]
theorem AuditJob.consumed_status (job : AuditJob) (jobId : Text)
    (flag : Bool) : (job.consumed jobId flag).status = job.status := by
  unfold AuditJob.consumed
  split <;> rfl

variable {count : Nat}

theorem clearCancellation_eq_ok
    (success : db.clearCancellation jobId = .ok (count, after)) :
    after = { db with
      jobs := db.jobs.map fun job => job.consumed jobId true } := by
  rcases updateJob_eq_ok success with ⟨_, _, rfl⟩
  rfl

theorem consumeCancellation_eq_ok {flag : Bool}
    (success : db.consumeCancellation jobId flag = .ok (count, after)) :
    after = { db with
      jobs := db.jobs.map fun job => job.consumed jobId flag } := by
  unfold Database.consumeCancellation at success
  cases flag with
  | true => exact clearCancellation_eq_ok success
  | false =>
      cases success
      have same : ∀ job : AuditJob, job.consumed jobId false = job := by
        intro job
        simp [AuditJob.consumed]
      simp only [same, List.map_id']

theorem closeJob_eq_ok
    {status : JobStatus} {score : Option ℚ} {message : Option Text}
    (success :
      db.closeJob jobId status score message = .ok (count, after)) :
    (∀ job ∈ db.jobs, job.id = jobId → lifecycleGuard job.status
      (job.closed db.now status score message).status = true) ∧
      after = { db with
        jobs := db.jobs.map fun job =>
          if job.id = jobId then job.closed db.now status score message
          else job } := by
  rcases updateJob_eq_ok success with ⟨permitted, _, rfl⟩
  have same : ∀ job : AuditJob,
      (if job.id = jobId && Database.finalizable job.status then
        { job with
          status := status
          finishedAt := some db.now
          securityScore := score
          errorMessage := message }
      else job) =
        if job.id = jobId then job.closed db.now status score message
        else job := by
    intro job
    unfold AuditJob.closed
    by_cases named : job.id = jobId <;> simp [named]
  refine ⟨fun job member named => ?_, ?_⟩
  · have kept := permitted job member
    rw [same job, if_pos named] at kept
    exact kept
  · congr 1
    exact List.map_congr_left fun job _ => same job

theorem finalizeExecution_effect {finalization : Finalization}
    (success : db.finalizeExecution lease finalization = .ok ((), after)) :
    (Statement.finalizeExecution lease finalization).Effect db after := by
  simp only [Database.finalizeExecution, Result.bind_eq_ok] at success
  rcases success with ⟨execution, leased, flag, read, ⟨_, consumed⟩, clear,
    ⟨_, closed⟩, close, ⟨_, final⟩, job, done⟩
  cases done
  rcases cancellation_eq_ok read with ⟨found, rfl⟩
  have consumedEq := consumeCancellation_eq_ok clear
  have frame := store_frame consumed lease finalization
  rcases updateExecution_eq_ok close with ⟨permitted, closedEq⟩
  rcases closeJob_eq_ok job with ⟨lifecycle, finalEq⟩
  have now : closed.now = db.now := by
    rw [closedEq]
    exact frame.1.trans (by rw [consumedEq])
  have jobs : closed.jobs = db.jobs.map fun job =>
      job.consumed lease.jobId (db.cancelled lease.jobId) := by
    rw [closedEq]
    exact frame.2.1.trans (by rw [consumedEq])
  have executions :
      (consumed.storeResult lease finalization).executions =
        db.executions :=
    frame.2.2.trans (by rw [consumedEq])
  have stamp : (consumed.storeResult lease finalization).now = db.now :=
    frame.1.trans (by rw [consumedEq])
  rw [executions] at permitted
  simp only [stamp] at permitted
  have jobAfter : ∀ job : AuditJob,
      (Statement.finalizeExecution lease finalization).jobAfter db job =
        if (job.consumed lease.jobId (db.cancelled lease.jobId)).id =
            lease.jobId then
          (job.consumed lease.jobId (db.cancelled lease.jobId)).closed db.now
            (finalStatus (db.cancelled lease.jobId) finalization.jobStatus)
            (finalScore (db.cancelled lease.jobId)
              finalization.coverageComplete finalization.jobStatus
              finalization.securityScore)
            finalization.failureReason
        else job.consumed lease.jobId (db.cancelled lease.jobId) := by
    intro job
    rw [AuditJob.consumed_id]
    by_cases named : job.id = lease.jobId <;>
      simp [Statement.jobAfter, AuditJob.consumed, named]
  constructor
  · rw [finalEq]
    exact now
  · rw [finalEq]
    simp only [now, jobs, List.map_map, Statement.newJobs, List.append_nil]
    exact List.map_congr_left fun job _ => (jobAfter job).symm
  · rw [finalEq, closedEq]
    simp only [executions, stamp, Statement.newExecutions, List.append_nil]
    rfl
  · intro job member
    rw [jobAfter job]
    split
    · rename_i named
      have inJobs : job.consumed lease.jobId (db.cancelled lease.jobId) ∈
          closed.jobs := by
        rw [jobs]
        exact List.mem_map_of_mem member
      have kept := lifecycle _ inJobs named
      rwa [AuditJob.consumed_status, now] at kept
    · rw [AuditJob.consumed_status]
      exact lifecycleGuard_self _
  · exact permitted
  · exact ⟨found, execution, leasedExecution_eq_ok.1 leased⟩

theorem finalizeWithoutFindings_effect {status : JobStatus} {reason : Text}
    (success :
      db.finalizeWithoutFindings lease status reason = .ok ((), after)) :
    (Statement.finalizeWithoutFindings lease status reason).Effect db
      after := by
  simp only [Database.finalizeWithoutFindings, Result.bind_eq_ok] at success
  rcases success with ⟨execution, leased, ⟨_, closed⟩, close, ⟨_, moved⟩, job,
    ⟨_, cleared⟩, clear, done⟩
  cases done
  rcases updateExecution_eq_ok close with ⟨permitted, rfl⟩
  rcases closeJob_eq_ok job with ⟨lifecycle, rfl⟩
  have clearEq := clearCancellation_eq_ok clear
  have jobAfter : ∀ job : AuditJob,
      (Statement.finalizeWithoutFindings lease status reason).jobAfter db job =
        (if job.id = lease.jobId then
          job.closed db.now status none (some reason)
        else job).consumed lease.jobId true := by
    intro job
    unfold AuditJob.consumed AuditJob.closed
    by_cases named : job.id = lease.jobId
    · simp only [Statement.jobAfter, named, if_true]
      split <;> simp [AuditJob.closed, *]
    · simp [Statement.jobAfter, named]
  constructor
  · rw [clearEq]
  · rw [clearEq]
    simp only [List.map_map, Statement.newJobs, List.append_nil]
    exact List.map_congr_left fun job _ => (jobAfter job).symm
  · rw [clearEq]
    simp only [Statement.newExecutions, List.append_nil]
    rfl
  · intro job member
    rw [jobAfter job, AuditJob.consumed_status]
    split
    · rename_i named
      exact lifecycle job member named
    · exact lifecycleGuard_self _
  · exact permitted
  · exact ⟨execution, leasedExecution_eq_ok.1 leased⟩

/-- The execution that recovery closes. -/
def AuditExecution.reaped (execution : AuditExecution) (now : Timestamp)
    (reason : Text) : AuditExecution :=
  { execution with
    status := .failed
    finishedAt := some now
    failureReason := some reason
    heartbeatAt := some now }

/-- Once an execution is closed, its job has no running execution when it was
the only one. -/
theorem runningOf_reaped (db : Database) (executionId jobId reason : Text) :
    ((db.executions.map fun execution =>
      if execution.id = executionId && execution.status = .running then
        execution.reaped db.now reason
      else execution).filter fun execution =>
        execution.jobId = jobId && execution.status = .running).length = 0 ↔
      db.onlyRunning executionId jobId = true := by
  simp only [List.length_eq_zero_iff, List.filter_eq_nil_iff, List.mem_map,
    Bool.and_eq_true, decide_eq_true_eq, not_and, Database.onlyRunning,
    List.all_eq_true, Bool.or_eq_true, Bool.not_eq_true', Bool.and_eq_false_iff,
    decide_eq_false_iff_not]
  constructor
  · intro none execution member
    by_cases same : execution.id = executionId
    · exact Or.inr same
    · by_cases job : execution.jobId = jobId
      · refine Or.inl (Or.inr fun running => ?_)
        exact none execution ⟨execution, member, by simp [same]⟩ job running
      · exact Or.inl (Or.inl job)
  · rintro only _ ⟨execution, member, rfl⟩
    split
    · intro _ running
      cases running
    · rename_i other
      intro job running
      rcases only execution member with (no | no) | same
      · exact no job
      · exact no running
      · exact other ⟨same, running⟩

theorem reapAbandonedExecution_effect
    {reason : Text} {staleBefore : Timestamp} {reaped : Bool}
    (success : db.reapAbandonedExecution executionId staleBefore reason =
      .ok (reaped, after)) :
    (Statement.reapAbandonedExecution executionId staleBefore reason).Effect db
      after := by
  unfold Database.reapAbandonedExecution at success
  cases found : db.abandoned? executionId staleBefore with
  | none =>
      rw [found] at success
      cases success
      refine Effect.of_read ?_ ?_ rfl rfl trivial
      · funext job
        simp [Statement.jobAfter, found]
      · funext execution
        simp [Statement.executionAfter, found]
  | some execution =>
      simp only [found, Result.bind_eq_ok] at success
      rcases success with ⟨⟨_, closed⟩, close, ⟨_, cleared⟩, clear,
        ⟨_, final⟩, release, done⟩
      cases done
      rcases updateExecution_eq_ok close with ⟨permitted, rfl⟩
      have clearEq := clearCancellation_eq_ok clear
      have executionAfter :
          (Statement.reapAbandonedExecution executionId staleBefore
            reason).executionAfter db = fun execution =>
              if execution.id = executionId && execution.status = .running then
                execution.reaped db.now reason
              else execution := by
        funext execution
        simp [Statement.executionAfter, found, AuditExecution.reaped]
      have alone : (cleared.runningOf execution.jobId).length = 0 ↔
          db.onlyRunning executionId execution.jobId = true := by
        rw [clearEq]
        exact runningOf_reaped db executionId execution.jobId reason
      unfold Database.releaseJob at release
      by_cases only : db.onlyRunning executionId execution.jobId = true
      · rw [if_pos (alone.2 only)] at release
        rcases updateJob_eq_ok release with ⟨lifecycle, _, rfl⟩
        subst clearEq
        have jobAfter : ∀ job : AuditJob,
            (Statement.reapAbandonedExecution executionId staleBefore
              reason).jobAfter db job =
              let job := job.consumed execution.jobId true
              if job.id = execution.jobId && job.status = .running then
                { job with status := .queued }
              else job := by
          intro job
          by_cases named : job.id = execution.jobId
          · simp [Statement.jobAfter, found, only, AuditJob.released,
              AuditJob.consumed, AuditJob.cleared, named]
          · simp [Statement.jobAfter, found, AuditJob.consumed, named]
        constructor
        · rfl
        · simp only [List.map_map, Statement.newJobs, List.append_nil]
          exact List.map_congr_left fun job _ => (jobAfter job).symm
        · simp only [executionAfter, Statement.newExecutions, List.append_nil]
          rfl
        · intro job member
          have kept := lifecycle _ (List.mem_map_of_mem member)
          rw [jobAfter job]
          simp only [AuditJob.consumed_status] at kept ⊢
          exact kept
        · rw [executionAfter]
          exact permitted
        · trivial
      · rw [if_neg (fun zero => only (alone.1 zero))] at release
        cases release
        subst clearEq
        have jobAfter : ∀ job : AuditJob,
            (Statement.reapAbandonedExecution executionId staleBefore
              reason).jobAfter db job =
              job.consumed execution.jobId true := by
          intro job
          by_cases named : job.id = execution.jobId
          · simp [Statement.jobAfter, found, only, AuditJob.released,
              AuditJob.consumed, named]
          · simp [Statement.jobAfter, found, AuditJob.consumed, named]
        constructor
        · rfl
        · simp only [Statement.newJobs, List.append_nil]
          exact List.map_congr_left fun job _ => (jobAfter job).symm
        · simp only [executionAfter, Statement.newExecutions, List.append_nil]
          rfl
        · intro job member
          rw [jobAfter job, AuditJob.consumed_status]
          exact lifecycleGuard_self _
        · rw [executionAfter]
          exact permitted
        · trivial

/-! ## Single statements -/

theorem claimQueued_effect {skipped : List Text} {claimed : Option Text}
    (success : db.claimQueued skipped = .ok (claimed, after)) :
    (Statement.claimQueued skipped).Effect db after := by
  unfold Database.claimQueued at success
  cases found : db.oldestQueued skipped with
  | none =>
      rw [found] at success
      cases success
      refine Effect.of_read ?_ rfl rfl rfl trivial
      funext job
      simp [Statement.jobAfter, found]
  | some oldest =>
      simp only [found, Result.bind_eq_ok] at success
      rcases success with ⟨⟨_, claimed⟩, claim, done⟩
      cases done
      refine Effect.of_updateJob claim ?_ rfl rfl rfl trivial
      funext job
      simp [Statement.jobAfter, found]

theorem insertExecution_effect
    (success : db.insertExecution lease = .ok ((), after)) :
    (Statement.insertExecution lease).Effect db after := by
  unfold Database.insertExecution at success
  split at success
  · cases success
  · rename_i unique
    split at success
    · cases success
    · rename_i known
      cases success
      constructor
      · rfl
      · exact (List.map_id _).symm.trans (List.append_nil _).symm
      · exact congrArg (· ++ _) (List.map_id _).symm
      · exact fun _ _ => lifecycleGuard_self _
      · exact fun _ _ => Or.inl rfl
      · refine ⟨Option.ne_none_iff_exists'.1 (by simpa using known), ?_⟩
        intro execution member
        simp only [List.any_eq_true, not_exists, not_and] at unique
        have kept := unique execution member
        simp only [Bool.or_eq_true, Bool.and_eq_true, decide_eq_true_eq,
          not_or, not_and] at kept
        exact kept

theorem insertJob_effect {userId : Text}
    (success : db.insertJob jobId userId = .ok ((), after)) :
    (Statement.createJob jobId userId).Effect db after := by
  unfold Database.insertJob at success
  split at success
  · cases success
  · rename_i unique
    cases success
    constructor
    · rfl
    · exact congrArg (· ++ _) (List.map_id _).symm
    · exact (List.map_id _).symm.trans (List.append_nil _).symm
    · exact fun _ _ => lifecycleGuard_self _
    · exact fun _ _ => Or.inl rfl
    · simpa [Statement.Admitted] using unique

/-- A statement that only updates executions. -/
theorem Effect.of_updateExecution {guard : AuditExecution → Bool}
    {change : AuditExecution → AuditExecution}
    (success :
      db.updateExecution executionId guard change = .ok (affected, after))
    (job : statement.jobAfter db = id)
    (execution : statement.executionAfter db = fun execution =>
      if execution.id = executionId && guard execution then change execution
      else execution)
    (newJobs : statement.newJobs db = [])
    (newExecutions : statement.newExecutions db = [])
    (admitted : statement.Admitted db) : statement.Effect db after := by
  rcases updateExecution_eq_ok success with ⟨permitted, rfl⟩
  constructor
  · rfl
  · rw [job, newJobs, List.append_nil, List.map_id]
  · rw [execution, newExecutions, List.append_nil]
  · rw [job]
    exact fun _ _ => lifecycleGuard_self _
  · rw [execution]
    exact permitted
  · exact admitted

/-- What a statement that succeeds does. -/
theorem Statement.effect {answer : statement.Answer}
    (success : statement.run db = .ok (answer, after)) :
    statement.Effect db after := by
  cases statement with
  | createJob jobId userId => exact insertJob_effect success
  | claimQueued skipped => exact claimQueued_effect success
  | claimJob | launchJob | requestCancellation | retryJob | failStuckJob
  | failJobIfUnowned =>
      exact Effect.of_updateJob success rfl rfl rfl rfl trivial
  | runningExecution | jobStatus | ownedJobStatus | runningCount | utcNow
  | abandonedExecutions | stuckJobs =>
      cases success
      exact Effect.of_read rfl rfl rfl rfl trivial
  | reopenJob | recordCommit =>
      refine Effect.of_updateJob success ?_ rfl rfl rfl trivial
      funext job
      simp [Statement.jobAfter]
  | nextAttempt jobId =>
      simp only [Statement.run, Database.nextAttempt] at success
      split at success
      · cases success
        exact Effect.of_read rfl rfl rfl rfl trivial
      · cases success
  | insertExecution lease => exact insertExecution_effect success
  | bindSnapshot | heartbeat =>
      exact Effect.of_updateExecution success rfl rfl rfl rfl trivial
  | reapAbandonedExecution executionId staleBefore reason =>
      exact reapAbandonedExecution_effect success
  | finalizeExecution lease finalization =>
      exact finalizeExecution_effect success
  | finalizeWithoutFindings lease status reason =>
      exact finalizeWithoutFindings_effect success

end FireCrow.Orchestrator.Execution
