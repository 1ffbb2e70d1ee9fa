import FireCrow.Orchestrator.ExecutionSafety

/-!
# Agreement of jobs and executions

A job and its latest execution agree as long as three statements stay where
the rest of the protocol means them to be: an execution is opened on a running
job, and a job with a running execution is neither reopened by another worker
nor failed by the sweep.
-/

namespace FireCrow.Orchestrator

open FireCrow.Library FireCrow.Schemas

namespace Execution

/-! ## Reading an audit back -/

/-- One scanner row in the reconstructed audit. -/
structure ScannerRunSummary where
  scanner : Text
  status : Text
  coverageKnown : Bool
  findingCount : Option Int32
  limitations : List Text
deriving DecidableEq

structure ReconstructedAudit where
  executionId : Text
  jobId : Text
  attemptNumber : Nat
  status : JobStatus
  commitSha : Option Text
  failureReason : Option Text
  scannerRuns : List ScannerRunSummary
  findingCount : Nat
  canonicalJson : Option Text
  securityScore : Option ℚ
deriving DecidableEq

namespace Database

/-- `ORDER BY attempt_number DESC LIMIT 1`. -/
def latestExecution (db : Database) (jobId : Text) : Option AuditExecution :=
  (db.attemptsOf jobId).argmax AuditExecution.attemptNumber

/-- The latest attempt of a job from persisted rows only, as its reads answer
in one state. -/
def reconstructLatestAudit (db : Database) (jobId : Text) :
    Except AppError (Option ReconstructedAudit) :=
  match db.latestExecution jobId with
  | none => .ok none
  | some execution =>
      match db.job? jobId with
      | none => .error (.database .rowNotFound)
      | some job =>
          .ok (some
            { executionId := execution.id
              jobId := execution.jobId
              attemptNumber := execution.attemptNumber
              status := execution.status
              commitSha := execution.commitSha
              failureReason := execution.failureReason
              scannerRuns :=
                (sortBy (fun row => row.record.scanner)
                  (db.scannerRuns.filter fun row =>
                    row.executionId = execution.id)).map fun row =>
                      { scanner := row.record.scanner
                        status := row.record.status
                        coverageKnown := row.record.coverageKnown
                        findingCount := row.record.findingCount
                        limitations := row.record.limitations }
              findingCount := db.findings.countP fun row =>
                row.executionId = some execution.id
              canonicalJson := execution.canonicalJson
              securityScore := job.securityScore })

end Database

/-- The latest execution is the one that was opened last. -/
theorem Database.Consistent.latestExecution_eq {db : Database}
    (consistent : db.Consistent) (jobId : Text) :
    db.latestExecution jobId = (db.attemptsOf jobId).getLast? := by
  unfold Database.latestExecution
  have numbers := consistent.attempts jobId
  rcases List.eq_nil_or_concat (db.attemptsOf jobId) with none | ⟨old, last, rows⟩
  · rw [none]
    rfl
  · rw [List.concat_eq_append] at rows
    rw [rows] at numbers ⊢
    rw [List.map_append, List.length_append, List.length_singleton,
      List.range'_1_concat] at numbers
    rcases List.append_inj numbers (by simp) with ⟨earlier, newest⟩
    simp only [List.map_cons, List.map_nil, List.cons.injEq, and_true] at newest
    rw [List.getLast?_append, List.argmax_concat]
    cases best : old.argmax AuditExecution.attemptNumber with
    | none => rfl
    | some found =>
        have member : found.attemptNumber ∈ List.range' 1 old.length :=
          earlier ▸ List.mem_map_of_mem (List.argmax_mem best)
        rw [List.mem_range'_1] at member
        have below : found.attemptNumber < last.attemptNumber := by omega
        simp [below]

/-! ## Agreement -/

/-- A job that has a running execution is running. -/
def Database.Agrees (db : Database) : Prop :=
  ∀ execution ∈ db.executions, execution.status = .running →
    ∀ job ∈ db.jobs, job.id = execution.jobId → job.status = .running

/-- A unique index refuses the row. -/
def Database.Collides (db : Database) (lease : ExecutionLease) : Prop :=
  ∃ execution ∈ db.executions, execution.id = lease.executionId ∨
    execution.jobId = lease.jobId ∧
      (execution.attemptNumber = lease.attemptNumber ∨
        execution.status = .running)

/-- An execution is opened on a running job, and a job with a running
execution is neither reopened nor failed by the sweep. -/
def Statement.Keeps (db : Database) : Statement → Prop
  | .insertExecution lease =>
      db.Collides lease ∨
        ∀ job ∈ db.jobs, job.id = lease.jobId → job.status = .running
  | .reopenJob jobId => db.runningOf jobId = []
  | .failStuckJob jobId => db.runningOf jobId = []
  | _ => True

/-- The statements of a run keep jobs and executions together. -/
def together : Condition Database Statement Statement.Reply Operation
  | db, .executed _ statement _, _ => statement.Keeps db
  | _, _, _ => True

variable {executionId jobId : Text}

theorem running_of_execution? {db : Database} {execution : AuditExecution}
    (found : db.execution? executionId = some execution)
    (job : execution.jobId = jobId) (running : execution.status = .running) :
    execution ∈ db.runningOf jobId :=
  mem_runningOf.2 ⟨(execution?_mem found).1, job, running⟩

section Step

variable {db after : Database} {statement : Statement}

/-- A job stays running as long as its execution does. -/
theorem job_stays_running (consistent : db.Consistent)
    (required : statement.Required db) (admitted : statement.Admitted db)
    (keeps : statement.Keeps db) {execution : AuditExecution} {job : AuditJob}
    (member : execution ∈ db.executions)
    (runs : execution.status = .running) (named : job.id = execution.jobId)
    (running : job.status = .running)
    (still : (statement.executionAfter db execution).status = .running) :
    (statement.jobAfter db job).status = .running := by
  have inRunning : execution ∈ db.runningOf job.id :=
    mem_runningOf.2 ⟨member, named.symm, runs⟩
  cases statement with
  | claimQueued skipped =>
      simp only [Statement.jobAfter]
      split
      · exact running
      · split
        · rfl
        · exact running
  | claimJob | launchJob =>
      simp only [Statement.jobAfter]
      split
      · rfl
      · exact running
  | reopenJob jobId =>
      simp only [Statement.jobAfter]
      split
      · rename_i same
        rw [← same] at keeps
        rw [show db.runningOf job.id = [] from keeps] at inRunning
        cases inRunning
      · exact running
  | recordCommit | requestCancellation =>
      simp only [Statement.jobAfter]
      split <;> exact running
  | retryJob jobId userId =>
      simp [Statement.jobAfter, running, Database.reopenable]
  | failStuckJob jobId =>
      simp only [Statement.jobAfter]
      split
      · rename_i selected
        simp only [Bool.and_eq_true, decide_eq_true_eq] at selected
        rw [← selected.1] at keeps
        rw [show db.runningOf job.id = [] from keeps] at inRunning
        cases inRunning
      · exact running
  | failJobIfUnowned jobId reason =>
      simp only [Statement.jobAfter]
      split
      · rename_i selected
        simp only [Bool.and_eq_true, decide_eq_true_eq,
          List.isEmpty_iff] at selected
        rw [selected.1, selected.2.2] at inRunning
        cases inRunning
      · exact running
  | reapAbandonedExecution executionId staleBefore reason =>
      simp only [Statement.jobAfter]
      split
      · exact running
      · rename_i found abandoned
        split
        · rename_i same
          unfold AuditJob.released
          split
          · rename_i selected
            simp only [Bool.and_eq_true, Database.onlyRunning, List.all_eq_true,
              Bool.or_eq_true, Bool.not_eq_true', Bool.and_eq_false_iff,
              decide_eq_true_eq, decide_eq_false_iff_not] at selected
            have reaped := (selected.1 execution member).resolve_left
              (by simp [← same, named, runs])
            simp [Statement.executionAfter, abandoned, reaped, runs] at still
          · exact running
        · exact running
  | finalizeExecution lease finalization =>
      simp only [Statement.jobAfter]
      split
      · rename_i same
        rcases admitted.2 with ⟨row, found, owned, open_⟩
        have jobId := consistent.leased_jobId required found
        have equal := consistent.running_unique inRunning
          (running_of_execution? found (jobId.trans same.symm) open_)
        subst equal
        have id := (execution?_mem found).2
        simp only [Statement.executionAfter, id, owned, runs, decide_true,
          Bool.and_self, if_true] at still
        unfold AuditJob.closed
        have status : (if db.cancelled lease.jobId then job.cleared
            else job).status = .running := by
          split <;> exact running
        rw [status, if_pos (by rfl)]
        exact still
      · exact running
  | finalizeWithoutFindings lease status reason =>
      simp only [Statement.jobAfter]
      split
      · rename_i same
        rcases admitted with ⟨row, found, owned, open_⟩
        have jobId := consistent.leased_jobId required found
        have equal := consistent.running_unique inRunning
          (running_of_execution? found (jobId.trans same.symm) open_)
        subst equal
        have id := (execution?_mem found).2
        simp only [Statement.executionAfter, id, owned, runs, decide_true,
          Bool.and_self, if_true] at still
        unfold AuditJob.closed
        rw [running, if_pos (by rfl)]
        exact still
      · exact running
  | _ => exact running

theorem not_collides {lease : ExecutionLease}
    (admitted : (Statement.insertExecution lease).Admitted db) :
    ¬ db.Collides lease := by
  rintro ⟨execution, member, same | ⟨job, same | running⟩⟩
  · exact (admitted.2 execution member).1 same
  · exact ((admitted.2 execution member).2 job).1 same
  · exact ((admitted.2 execution member).2 job).2 running

theorem Database.Agrees.step (agrees : db.Agrees) (consistent : db.Consistent)
    (required : statement.Required db) (effect : statement.Effect db after)
    (keeps : statement.Keeps db) : after.Agrees := by
  intro execution inExecutions runs job inJobs named
  rcases mem_executions_after effect inExecutions with
    ⟨before, inside, rfl⟩ | ⟨lease, rfl, rfl⟩
  · rw [executionAfter_jobId] at named
    have was := running_before (effect.permitted before inside) runs
    rcases mem_jobs_after effect inJobs with
      ⟨old, inOld, rfl⟩ | ⟨jobId, userId, rfl, rfl⟩
    · rw [jobAfter_id] at named
      exact job_stays_running consistent required effect.admitted keeps inside
        was named (agrees before inside was old inOld named) runs
    · rcases List.mem_map.1 (consistent.known before inside) with
        ⟨job, member, same⟩
      have absent := List.find?_eq_none.1 effect.admitted job member
      exact absurd (same.trans named.symm) (by simpa [Database.newJob] using absent)
  · have opened := keeps.resolve_left (not_collides effect.admitted)
    rcases mem_jobs_after effect inJobs with
      ⟨old, inOld, same⟩ | ⟨_, _, different, _⟩
    · rw [same] at named ⊢
      exact opened old inOld named
    · cases different

/-! ## Breaking the agreement -/

theorem mem_of_runningOf_ne_nil {jobId : Text} (some : db.runningOf jobId ≠ []) :
    ∃ execution ∈ db.executions, execution.jobId = jobId ∧
      execution.status = .running := by
  rcases List.exists_mem_of_ne_nil _ some with ⟨execution, member⟩
  exact ⟨execution, mem_runningOf.1 member⟩

/-- Moving a running job with a running execution elsewhere breaks the
agreement. -/
theorem not_agrees_of_moved (consistent : db.Consistent) (agrees : db.Agrees)
    {jobId : Text} (runs : db.runningOf jobId ≠ []) (guard : AuditJob → Bool)
    (change : AuditJob → AuditJob) {status : JobStatus}
    (guarded : ∀ job : AuditJob, job.status = .running → guard job = true)
    (named : ∀ job, (change job).id = job.id)
    (moved : ∀ job, (change job).status = status)
    (legal : lifecycleGuard .running status = true)
    (elsewhere : status ≠ .running) :
    ∃ count after, db.updateJob jobId guard change = .ok (count, after) ∧
      ¬ after.Agrees := by
  rcases mem_of_runningOf_ne_nil runs with ⟨execution, member, same, running⟩
  rcases updateJob_ok db jobId guard change (fun job inside named _ => by
      rw [agrees execution member running job inside (named.trans same.symm),
        moved]
      exact legal) with ⟨count, success⟩
  refine ⟨count, _, success, fun after => ?_⟩
  rcases List.mem_map.1 (consistent.known execution member) with
    ⟨job, inside, id⟩
  have jobRuns := agrees execution member running job inside id
  have changed := after execution member running (change job)
    (List.mem_map.2 ⟨job, inside, by
      simp [id.trans same, guarded job jobRuns]⟩) ((named job).trans id)
  exact elsewhere ((moved job).symm.trans changed)

/-- Opening an execution on a job that is not running breaks it as well. -/
theorem not_agrees_of_opened {lease : ExecutionLease}
    (fresh : ¬ db.Collides lease) {job : AuditJob} (member : job ∈ db.jobs)
    (named : job.id = lease.jobId) (idle : job.status ≠ .running) :
    ∃ after, db.insertExecution lease = .ok ((), after) ∧ ¬ after.Agrees := by
  refine ⟨{ db with
    executions := db.executions ++ [db.newExecution lease] }, ?_, ?_⟩
  · unfold Database.insertExecution
    rw [if_neg, if_neg]
    · simp only [Database.job?, Option.isNone_iff_eq_none, List.find?_eq_none,
        not_forall]
      exact ⟨job, member, by simp [named]⟩
    · intro collides
      simp only [List.any_eq_true, Bool.or_eq_true, Bool.and_eq_true,
        decide_eq_true_eq] at collides
      exact fresh collides
  · intro agrees
    exact idle (agrees (db.newExecution lease) (by simp) rfl job member named)

/-- Carrying out a statement keeps the agreement exactly when it keeps to the
condition. -/
theorem agrees_answer_iff (consistent : db.Consistent) (agrees : db.Agrees)
    (required : statement.Required db) :
    (machine.answer db statement).2.Agrees ↔ statement.Keeps db := by
  constructor
  · intro kept
    by_contra breaks
    cases statement with
    | insertExecution lease =>
        simp only [Statement.Keeps, not_or, not_forall] at breaks
        rcases breaks with ⟨fresh, job, member, named, idle⟩
        rcases not_agrees_of_opened fresh member named idle with
          ⟨after, success, broken⟩
        refine broken ?_
        simpa [machine, Statement.answer, Statement.run, success] using kept
    | reopenJob jobId =>
        rcases not_agrees_of_moved consistent agrees breaks
          (fun _ => true) (fun job => { job with status := .queued })
          (fun _ _ => rfl) (fun _ => rfl) (fun _ => rfl) rfl (by decide) with
          ⟨count, after, success, broken⟩
        refine broken ?_
        simpa [machine, Statement.answer, Statement.run, Database.reopenJob,
          success] using kept
    | failStuckJob jobId =>
        rcases not_agrees_of_moved consistent agrees breaks
          (fun job => job.status = .running)
          (fun job =>
            { job with
              status := .failed
              finishedAt := some db.now
              errorMessage := some Database.abandonedMessage })
          (fun _ running => by simp [running]) (fun _ => rfl) (fun _ => rfl)
          rfl (by decide) with ⟨count, after, success, broken⟩
        refine broken ?_
        simpa [machine, Statement.answer, Statement.run, Database.failStuckJob,
          success] using kept
    | _ => exact breaks trivial
  · intro keeps
    rcases answer_cases db statement with
      ⟨answer, after, success, equal⟩ | ⟨error, _, equal⟩
    · rw [equal]
      exact agrees.step consistent required (Statement.effect success) keeps
    · rw [equal]
      exact agrees

end Step

variable {config : Configuration}

theorem Reachable.agrees
    (reachable : Reachable together config) : config.state.Agrees := by
  refine Sound.keeps guarantees Database.Agrees sound_start ?_ ?_ reachable ?_
  · intro db process statement reply consistent required met agrees
    exact (agrees_answer_iff consistent agrees required).2 met
  · exact fun _ _ agrees => agrees
  · intro execution member
    cases member

/-! ## Until the job is reopened -/

/-- No step leaves the job in the queue. -/
def notReopened (jobId : Text) :
    Condition Database Statement Statement.Reply Operation
  | _, _, next => ∀ job ∈ next.jobs, job.id = jobId → job.status ≠ .queued

/-- An execution runs, or its job took over its terminal status and runs no
other. -/
def Database.Tracks (db : Database) (executionId jobId : Text) : Prop :=
  ∃ execution, db.execution? executionId = some execution ∧
    execution.jobId = jobId ∧
    (execution.status = .running ∨
      execution.status ≠ .running ∧ execution.status ≠ .queued ∧
        db.runningOf jobId = [] ∧
        ∀ job ∈ db.jobs, job.id = jobId → job.status = execution.status)

theorem terminal_stays {old new : JobStatus}
    (guarded : lifecycleGuard old new = true) (idle : old ≠ .running)
    (waiting : old ≠ .queued) : new = old ∨ new = .queued := by
  cases old <;> cases new <;> simp [lifecycleGuard] at guarded idle waiting ⊢

section Step

variable {db after : Database} {statement : Statement}

theorem runningOf_closed (consistent : db.Consistent)
    (effect : statement.Effect db after) {jobId : Text}
    {execution : AuditExecution} (runs : execution ∈ db.runningOf jobId)
    (closed : (statement.executionAfter db execution).status ≠ .running) :
    after.runningOf jobId = [] := by
  refine List.eq_nil_iff_forall_not_mem.2 fun other member => ?_
  rcases mem_runningOf_after effect member with
    ⟨before, was, rfl⟩ | ⟨lease, rfl, job⟩
  · rw [consistent.running_unique was runs] at member
    exact closed (mem_runningOf.1 member).2.2
  · rcases mem_runningOf.1 runs with ⟨inside, same, running⟩
    exact ((effect.admitted.2 execution inside).2 (same.trans job.symm)).2
      running

/-- A statement that closes the running execution of a running job gives the
job its status, or puts the job back into the queue. -/
theorem closes_job (consistent : db.Consistent)
    (required : statement.Required db) (effect : statement.Effect db after)
    {execution : AuditExecution} {job : AuditJob}
    (member : execution ∈ db.executions)
    (runs : execution.status = .running) (named : job.id = execution.jobId)
    (running : job.status = .running)
    (closed : (statement.executionAfter db execution).status ≠ .running) :
    (statement.jobAfter db job).status = .queued ∨
      (statement.jobAfter db job).status =
        (statement.executionAfter db execution).status := by
  have closes := closes_of_terminal consistent member runs closed
  have inRunning : execution ∈ db.runningOf job.id :=
    mem_runningOf.2 ⟨member, named.symm, runs⟩
  cases statement with
  | finalizeExecution lease finalization =>
      rcases closes with ⟨id, owned⟩
      rcases effect.admitted.2 with ⟨row, found, _, _⟩
      have jobId := consistent.leased_jobId required found
      rcases execution?_mem found with ⟨inside, same⟩
      have equal := consistent.execution_unique inside member (same.trans id)
      subst equal
      have status : (if db.cancelled lease.jobId then job.cleared
          else job).status = .running := by
        split <;> exact running
      refine Or.inr ?_
      simp only [Statement.jobAfter, named.trans jobId, if_true,
        AuditJob.closed, status, Statement.executionAfter, same, owned, runs,
        decide_true, Bool.and_self]
      rw [if_pos (by rfl)]
  | finalizeWithoutFindings lease status reason =>
      rcases closes with ⟨id, owned⟩
      rcases effect.admitted with ⟨row, found, _, _⟩
      have jobId := consistent.leased_jobId required found
      rcases execution?_mem found with ⟨inside, same⟩
      have equal := consistent.execution_unique inside member (same.trans id)
      subst equal
      refine Or.inr ?_
      simp only [Statement.jobAfter, named.trans jobId, if_true,
        AuditJob.closed, running, Statement.executionAfter, same, owned, runs,
        decide_true, Bool.and_self]
      rw [if_pos (by rfl)]
      rfl
  | reapAbandonedExecution executionId staleBefore reason =>
      have closed := closed
      simp only [Statement.executionAfter] at closed
      split at closed
      · rename_i selected
        simp only [Bool.and_eq_true, decide_eq_true_eq,
          Option.isSome_iff_exists] at selected
        rcases selected with ⟨⟨found, abandoned⟩, id, _⟩
        rcases abandoned?_mem abandoned with ⟨inside, same, _, _⟩
        have equal := consistent.execution_unique inside member
          (same.trans id.symm)
        subst equal
        have only : db.onlyRunning executionId found.jobId = true := by
          simp only [Database.onlyRunning, List.all_eq_true, Bool.or_eq_true,
            Bool.not_eq_true', Bool.and_eq_false_iff, decide_eq_true_eq,
            decide_eq_false_iff_not]
          intro other inOther
          by_cases both : other.jobId = found.jobId ∧ other.status = .running
          · have unique := consistent.running_unique inRunning
              (mem_runningOf.2 ⟨inOther, both.1.trans named.symm, both.2⟩)
            exact Or.inr (unique ▸ id)
          · exact Or.inl (not_and_or.1 both)
        refine Or.inl ?_
        simp [Statement.jobAfter, abandoned, named, only, AuditJob.released,
          running]
      · exact absurd runs closed
  | _ => exact closes.elim

/-- While its job is not reopened, an execution is tracked. -/
theorem Database.Tracks.step {executionId jobId : Text}
    (tracks : db.Tracks executionId jobId) (agrees : db.Agrees)
    (consistent : db.Consistent) (required : statement.Required db)
    (effect : statement.Effect db after) (keeps : statement.Keeps db)
    (stays : ∀ job ∈ after.jobs, job.id = jobId → job.status ≠ .queued) :
    after.Tracks executionId jobId := by
  rcases tracks with ⟨execution, found, rfl, state⟩
  rcases execution?_mem found with ⟨member, _⟩
  have permitted := effect.permitted execution member
  refine ⟨_, effect.execution? found, executionAfter_jobId _ _ _, ?_⟩
  rcases state with runs | ⟨idle, waiting, none, status⟩
  · by_cases closed :
      (statement.executionAfter db execution).status = .running
    · exact Or.inl closed
    · have unqueued :
          (statement.executionAfter db execution).status ≠ .queued := by
        rcases permitted with same | permitted
        · rw [same, runs]
          decide
        · simp only [AuditExecution.permits, Bool.and_eq_true,
            decide_eq_true_eq] at permitted
          exact permitted.2
      refine Or.inr ⟨closed, unqueued, runningOf_closed consistent effect
        (mem_runningOf.2 ⟨member, rfl, runs⟩) closed, ?_⟩
      intro job inJobs named
      have notQueued := stays job inJobs named
      rcases mem_jobs_after effect inJobs with
        ⟨before, inside, rfl⟩ | ⟨_, _, rfl, rfl⟩
      · rw [jobAfter_id] at named
        have running := agrees execution member runs before inside named
        exact (closes_job consistent required effect member runs named running
          closed).resolve_left notQueued
      · exact absurd rfl notQueued
  · have same := (executionAfter_continues permitted).frozen idle
    rw [same]
    refine Or.inr ⟨idle, waiting, ?_, ?_⟩
    · refine List.eq_nil_iff_forall_not_mem.2 fun other inRunning => ?_
      rcases mem_runningOf_after effect inRunning with
        ⟨before, was, _⟩ | ⟨lease, rfl, job⟩
      · rw [none] at was
        cases was
      · have opened := keeps.resolve_left (not_collides effect.admitted)
        rcases effect.admitted.1 with ⟨owner, known⟩
        have inside := List.mem_of_find?_eq_some known
        have id : owner.id = lease.jobId := by
          simpa using List.find?_some known
        exact idle ((status owner inside (id.trans job)).symm.trans
          (opened owner inside id))
    · intro job inJobs named
      have notQueued := stays job inJobs named
      rcases mem_jobs_after effect inJobs with
        ⟨before, inside, rfl⟩ | ⟨_, _, rfl, rfl⟩
      · rw [jobAfter_id] at named
        have was := status before inside named
        have guarded := effect.lifecycle before inside
        rw [was] at guarded
        exact (terminal_stays guarded idle waiting).resolve_right notQueued
      · exact absurd rfl notQueued

end Step

theorem run_tracks {before after : Configuration}
    (reachable : Reachable together before)
    (run : machine.Run
      (fun db event next => together db event next ∧
        notReopened jobId db event next) before after)
    (tracks : before.state.Tracks executionId jobId) :
    after.state.Tracks executionId jobId := by
  have kept : after.state.Agrees ∧ after.state.Tracks executionId jobId := by
    refine Sound.keeps guarantees
      (fun db => db.Agrees ∧ db.Tracks executionId jobId) reachable.sound ?_ ?_
        run ⟨reachable.agrees, tracks⟩
    · intro db process statement reply consistent required met kept
      refine ⟨(agrees_answer_iff consistent kept.1 required).2 met.1, ?_⟩
      have stays := met.2
      rcases answer_cases db statement with
        ⟨answer, next, success, equal⟩ | ⟨error, _, equal⟩
      · rw [equal] at stays ⊢
        exact kept.2.step kept.1 consistent required (Statement.effect success)
          met.1 stays
      · rw [equal]
        exact kept.2
    · exact fun _ _ kept => kept
  exact kept.2

/-! ## Scores -/

/-- The finalization of this execution wrote the score, in a run that goes on
to the configuration. -/
def Wrote (config : Configuration) (executionId : Text) (score : ℚ) : Prop :=
  ∃ before written process lease finalization reply,
    Reachable together before ∧
      machine.Step before
        (.executed process (.finalizeExecution lease finalization) reply)
        written ∧
      machine.Run together written config ∧
      lease.executionId = executionId ∧
      finalization.coverageComplete = true ∧
      finalization.securityScore = some score ∧
      (∃ execution, before.state.execution? executionId = some execution ∧
        execution.status = .running) ∧
      ∃ execution, written.state.execution? executionId = some execution ∧
        execution.status = .completed

/-- The score of a job was written by its latest execution. -/
def Scored (config : Configuration) : Prop :=
  ∀ job ∈ config.state.jobs, ∀ score, job.securityScore = some score →
    ∃ execution, (config.state.attemptsOf job.id).getLast? = some execution ∧
      Wrote config execution.id score

variable {score : ℚ}

theorem Wrote.later {next : Configuration}
    (wrote : Wrote config executionId score)
    {event : Event Statement Statement.Reply Operation}
    (step : machine.Step config event next)
    (met : together config.state event next.state) :
    Wrote next executionId score := by
  rcases wrote with ⟨before, written, process, lease, finalization, reply,
    reachable, wrote, run, rest⟩
  exact ⟨before, written, process, lease, finalization, reply, reachable, wrote,
    run.tail ⟨event, step, met⟩, rest⟩

theorem finalScore_eq_some {flag complete : Bool} {status : JobStatus}
    {offered : Option ℚ}
    (scored : finalScore flag complete status offered = some score) :
    complete = true ∧ finalStatus flag status = .completed ∧
      offered = some score := by
  unfold finalScore at scored
  split at scored
  · rename_i both
    exact ⟨both.1, both.2, scored⟩
  · cases scored

/-- The executions of a completed job stay the same. -/
theorem attemptsOf_completed {db after : Database} {statement : Statement}
    (effect : statement.Effect db after) (keeps : statement.Keeps db)
    {job : AuditJob} (member : job ∈ db.jobs)
    (completed : job.status = .completed) :
    after.attemptsOf job.id =
      (db.attemptsOf job.id).map (statement.executionAfter db) := by
  rw [effect.attemptsOf]
  rcases newExecutions_cases db statement with none | ⟨lease, rfl⟩
  · rw [none, List.filter_nil, List.append_nil]
  · have opened := keeps.resolve_left (not_collides effect.admitted)
    have other : lease.jobId ≠ job.id := by
      intro same
      have running := opened job member same.symm
      rw [completed] at running
      cases running
    simp [Statement.newExecutions, Database.newExecution, other]

section

variable (reachable : Reachable together config)
include reachable

theorem Scored.execute {next : Configuration} (scored : Scored config)
    {process : Nat} {statement : Statement} {reply : statement.Reply}
    {answer : statement.Answer}
    (step : machine.Step config (.executed process statement reply) next)
    (keeps : statement.Keeps config.state)
    (success : statement.run config.state = .ok (answer, next.state)) :
    Scored next := by
  have sound := reachable.sound
  have required : statement.Required config.state := sound.required step
  have effect := Statement.effect success
  have after := sound.inv.step required effect
  intro job member score written
  rcases mem_jobs_after effect member with
    ⟨before, inside, rfl⟩ | ⟨_, _, _, rfl⟩
  · rw [jobAfter_id]
    rcases jobAfter_score config.state statement before with
      kept | none | ⟨lease, finalization, rfl, named, _, value⟩
    · rw [kept] at written
      rcases scored before inside score written with ⟨execution, last, wrote⟩
      have completed := sound.inv.scored before inside (by simp [written])
      refine ⟨statement.executionAfter config.state execution, ?_, ?_⟩
      · rw [attemptsOf_completed effect keeps inside completed,
          List.getLast?_map, last, Option.map_some]
      · rw [executionAfter_id]
        exact wrote.later step keeps
    · rw [none] at written
      cases written
    · rw [value] at written
      rcases finalScore_eq_some written with ⟨complete, status, offered⟩
      rcases effect.admitted.2 with ⟨execution, found, owned, running⟩
      have job := sound.inv.leased_jobId required found
      rcases execution?_mem found with ⟨row, id⟩
      have last := sound.inv.latestRuns before.id execution
        (mem_attemptsOf.2 ⟨row, job.trans named.symm⟩) running
      obtain ⟨closed, closedEq⟩ : ∃ closed, closed =
          (Statement.finalizeExecution lease finalization).executionAfter
            config.state execution := ⟨_, rfl⟩
      have closedId : closed.id = lease.executionId := by
        rw [closedEq, executionAfter_id, id]
      refine ⟨closed, ?_, config, next, process, lease, finalization, reply,
        reachable, step, .refl, closedId.symm, complete, offered,
        ⟨execution, closedId ▸ found, running⟩, closed, ?_, ?_⟩
      · rw [effect.attemptsOf]
        simp only [Statement.newExecutions, List.filter_nil, List.append_nil,
          List.getLast?_map, last, Option.map_some, closedEq]
      · rw [closedId, closedEq]
        exact effect.execution? found
      · simp [closedEq, Statement.executionAfter, id, owned, running, status]
  · cases written

/-- In a run that keeps to the condition every score is that of the latest
execution. -/
theorem Reachable.scored : Scored config := by
  induction reachable with
  | refl =>
      intro job member
      cases member
  | @tail middle last head moves ih =>
      rcases moves with ⟨event, step, met⟩
      have unmoved : last.state.jobs = middle.state.jobs →
          last.state.executions = middle.state.executions → Scored last := by
        intro jobs executions job member score written
        rw [jobs] at member
        rcases ih job member score written with ⟨execution, latest, wrote⟩
        refine ⟨execution, ?_, wrote.later step met⟩
        unfold Database.attemptsOf at latest ⊢
        rwa [executions]
      have answered : ∀ {process statement} {reply : statement.Reply},
          event = .executed process statement reply →
            last.state = (machine.answer middle.state statement).2 →
              Scored last := by
        intro process statement reply same state
        subst same
        rcases answer_cases middle.state statement with
          ⟨answer, next, success, equal⟩ | ⟨error, _, equal⟩
        · rw [equal] at state
          subst state
          exact ih.execute head step met success
        · rw [equal] at state
          exact unmoved (by rw [state]) (by rw [state])
      cases step with
      | call => exact unmoved rfl rfl
      | execute running executes =>
          cases executes with
          | answered => exact answered rfl rfl
          | failed => exact unmoved rfl rfl
          | lost => exact answered rfl rfl
      | crash | elapse => exact unmoved rfl rfl

/-- The score that is read back was written by the execution that is. -/
theorem reconstructed_score {audit : ReconstructedAudit}
    (read : config.state.reconstructLatestAudit jobId = .ok (some audit))
    (scored : audit.securityScore = some score) :
    Wrote config audit.executionId score := by
  unfold Database.reconstructLatestAudit at read
  rw [reachable.sound.inv.latestExecution_eq] at read
  split at read
  · cases read
  · rename_i execution latest
    split at read
    · cases read
    · rename_i job found
      cases read
      have id : job.id = jobId := by simpa using List.find?_some found
      rcases reachable.scored job (List.mem_of_find?_eq_some found) score scored
        with ⟨last, same, wrote⟩
      rw [id, latest, Option.some.injEq] at same
      exact same ▸ wrote

end

/-! ## Finalizing -/

section Finalization

variable {db : Database} {lease : ExecutionLease} {finalization : Finalization}
  {execution : AuditExecution}

theorem cancellation_ok {jobId : Text} {job : AuditJob}
    (found : db.job? jobId = some job) :
    db.cancellation jobId = .ok job.cancelRequested := by
  simp [Database.cancellation, found]

theorem consumeCancellation_ok (db : Database) (jobId : Text) (flag : Bool) :
    ∃ count after, db.consumeCancellation jobId flag = .ok (count, after) ∧
      after.jobs = db.jobs.map fun job => job.consumed jobId flag := by
  have result : ∃ count after,
      db.consumeCancellation jobId flag = .ok (count, after) := by
    cases flag with
    | false => exact ⟨0, db, rfl⟩
    | true =>
        rcases updateJob_ok db jobId (fun _ => true)
          (fun job =>
            { job with cancelRequested := false, cancelRequestedAt := none })
          (fun job _ _ _ => lifecycleGuard_self job.status) with ⟨count, success⟩
        exact ⟨count, _, success⟩
  rcases result with ⟨count, after, success⟩
  exact ⟨count, after, success, by rw [consumeCancellation_eq_ok success]⟩

/-- A terminal status of an execution. -/
def terminal (status : JobStatus) : Prop := status ≠ .running ∧ status ≠ .queued

theorem finalStatus_terminal (flag : Bool) {status : JobStatus}
    (closes : terminal status) : terminal (finalStatus flag status) := by
  unfold finalStatus
  split
  · exact ⟨by decide, by decide⟩
  · exact closes

theorem running_to_terminal {status : JobStatus} (closes : terminal status) :
    lifecycleGuard .running status = true := by
  rcases closes with ⟨idle, waiting⟩
  cases status <;> simp [lifecycleGuard] at idle waiting ⊢

theorem closeExecution_ok (db : Database) (lease : ExecutionLease)
    (change : AuditExecution → AuditExecution)
    (snapshot : ∀ execution, (change execution).commitSha = execution.commitSha)
    (unqueued : ∀ execution, (change execution).status ≠ .queued) :
    ∃ count after, db.closeExecution lease change = .ok (count, after) ∧
      after.jobs = db.jobs := by
  rcases updateExecution_ok db lease.executionId
    (fun execution =>
      execution.ownerToken = some lease.ownerToken &&
        execution.status = .running) change
    (by
      intro other _ _ selected
      simp only [Bool.and_eq_true, decide_eq_true_eq] at selected
      simp [AuditExecution.permits, selected.2, unqueued, snapshot])
    with ⟨count, success⟩
  exact ⟨count, _, success, rfl⟩

theorem closeJob_ok (db : Database) (jobId : Text) (status : JobStatus)
    (legal : ∀ job ∈ db.jobs, job.id = jobId →
      lifecycleGuard job.status status = true) (score : Option ℚ)
    (message : Option Text) :
    ∃ count after,
      db.closeJob jobId status score message = .ok (count, after) := by
  rcases updateJob_ok db jobId (fun job => Database.finalizable job.status)
    (fun job =>
      { job with
        status := status
        finishedAt := some db.now
        securityScore := score
        errorMessage := message })
    (fun job inside named _ => legal job inside named) with ⟨count, success⟩
  exact ⟨count, _, success⟩

/-- A lease holder finalizes a running execution of a running job. -/
theorem finalizeExecution_ok (consistent : db.Consistent) (agrees : db.Agrees)
    (leased : db.Leased lease)
    (found : db.execution? lease.executionId = some execution)
    (running : execution.status = .running)
    (closes : terminal finalization.jobStatus) :
    ∃ after, db.finalizeExecution lease finalization = .ok ((), after) := by
  rcases execution?_mem found with ⟨member, id⟩
  have jobId := consistent.leased_jobId leased found
  have owned : execution.ownerToken = some lease.ownerToken := by
    rcases leased with ⟨granted, inside, named, _, _, token⟩
    rw [consistent.execution_unique member inside (id.trans named.symm)]
    exact token
  have known : ∃ job, db.job? lease.jobId = some job := by
    rcases List.mem_map.1 (consistent.known execution member) with
      ⟨job, inside, same⟩
    refine Option.ne_none_iff_exists'.1 fun none => ?_
    exact List.find?_eq_none.1 none job inside (by simp [same, jobId])
  rcases known with ⟨job, row⟩
  have ends := finalStatus_terminal job.cancelRequested closes
  rcases consumeCancellation_ok db lease.jobId job.cancelRequested with
    ⟨_, between, consume, jobs⟩
  have stored := (store_frame between lease finalization).2.1
  rcases closeExecution_ok (between.storeResult lease finalization) lease
    (fun execution =>
      { execution with
        status := finalStatus job.cancelRequested finalization.jobStatus
        finishedAt := some (between.storeResult lease finalization).now
        failureReason := finalization.failureReason
        canonicalJson := finalization.canonicalJson
        heartbeatAt := some (between.storeResult lease finalization).now })
    (fun _ => rfl) (fun _ => ends.2) with ⟨_, closed, close, closedJobs⟩
  rcases closeJob_ok closed lease.jobId
    (finalStatus job.cancelRequested finalization.jobStatus)
    (by
      intro other inside named
      rw [closedJobs, stored, jobs] at inside
      rcases List.mem_map.1 inside with ⟨before, was, rfl⟩
      rw [AuditJob.consumed_id] at named
      rw [AuditJob.consumed_status, agrees execution member running before was
        (named.trans jobId.symm)]
      exact running_to_terminal ends)
    (finalScore job.cancelRequested finalization.coverageComplete
      finalization.jobStatus finalization.securityScore)
    finalization.failureReason with ⟨_, after, finish⟩
  refine ⟨after, ?_⟩
  simp only [Database.finalizeExecution, Result.bind_eq_ok]
  exact ⟨execution, leasedExecution_eq_ok.2 ⟨found, owned, running⟩,
    job.cancelRequested, cancellation_ok row, (_, between), consume,
    (_, closed), close, (_, after), finish, rfl⟩

end Finalization

theorem finalizeExecution_agrees {db : Database} {lease : ExecutionLease}
    {finalization : Finalization} {execution : AuditExecution}
    (consistent : db.Consistent) (agrees : db.Agrees) (leased : db.Leased lease)
    (found : db.execution? lease.executionId = some execution)
    (running : execution.status = .running)
    (closes : terminal finalization.jobStatus) :
    ∃ after closed job, db.finalizeExecution lease finalization =
        .ok ((), after) ∧
      after.execution? lease.executionId = some closed ∧
      after.job? lease.jobId = some job ∧
      closed.status =
        finalStatus (db.cancelled lease.jobId) finalization.jobStatus ∧
      job.status = closed.status := by
  rcases finalizeExecution_ok consistent agrees leased found running closes with
    ⟨after, success⟩
  have effect := finalizeExecution_effect success
  rcases effect.admitted with ⟨⟨job, row⟩, other, same, owned, _⟩
  rw [found, Option.some.injEq] at same
  subst same
  rcases execution?_mem found with ⟨member, id⟩
  have jobId := consistent.leased_jobId leased found
  have named : job.id = lease.jobId := by simpa using List.find?_some row
  have jobRuns := agrees execution member running job
    (List.mem_of_find?_eq_some row) (named.trans jobId.symm)
  have status : ((Statement.finalizeExecution lease
      finalization).executionAfter db execution).status =
        finalStatus (db.cancelled lease.jobId) finalization.jobStatus := by
    simp [Statement.executionAfter, id, owned, running]
  have ends := finalStatus_terminal (db.cancelled lease.jobId) closes
  have notQueued : ((Statement.finalizeExecution lease finalization).jobAfter
      db job).status ≠ .queued := by
    have cleared : (if db.cancelled lease.jobId then job.cleared
        else job).status = .running := by
      split <;> exact jobRuns
    simp only [Statement.jobAfter, named, if_true, AuditJob.closed, cleared]
    rw [if_pos (by rfl)]
    exact ends.2
  refine ⟨after, _, _, success, effect.execution? found, effect.job? row,
    status, ?_⟩
  have required :
      (Statement.finalizeExecution lease finalization).Required db := leased
  exact (closes_job consistent required effect member running
    (named.trans jobId.symm) jobRuns (status ▸ ends.1)).resolve_left notQueued

/-! ## Schedules -/

instance (db : Database) (statement : Statement) :
    Decidable (statement.Keeps db) := by
  cases statement <;> unfold Statement.Keeps Database.Collides <;> infer_instance

instance (db : Database) : Decidable db.Agrees := by
  unfold Database.Agrees
  infer_instance

def keeping (db : Database) (statement : Statement) : Bool :=
  decide (statement.Keeps db)

theorem keeping_admits : Admits machine keeping together := by
  constructor
  · intro db process statement allowed
    have met : statement.Keeps db := of_decide_eq_true allowed
    exact met
  · intros
    trivial
  · intros
    trivial
  · intros
    trivial

/-- A worker claims a job, opens an execution and completes it. -/
def completedRun : List (Action Operation) :=
  [.call 0 (.createJob "job-1" "user-1"), .advance 0 1,
    .call 1 (.claimJob "job-1"), .advance 1 1,
    .call 2 (.beginExecution uuids "job-1"), .advance 2 9,
    .call 3 (.finalizeExecution (lease 1 "execution-1" "token-1")
      (result .completed (some 90))), .advance 3 1]

/-- A worker claims a job and stalls.  The job is swept, retried and completed
by another, and then the first worker opens its execution and fails. -/
def stalledRun : List (Action Operation) :=
  [.call 0 (.createJob "job-1" "user-1"), .advance 0 1,
    .call 1 (.claimJob "job-1"), .advance 1 1, .wait 360000000,
    .call 2 .sweepZombieJobs, .advance 2 9,
    .call 3 (.retryJob "job-1" "user-1"), .advance 3 9,
    .call 4 (.claimJob "job-1"), .advance 4 1,
    .call 5 (.beginExecution uuids "job-1"), .advance 5 9,
    .call 6 (.finalizeExecution (lease 1 "execution-1" "token-1")
      (result .completed (some 90))), .advance 6 1,
    .call 7 (.beginExecution laterUuids "job-1"), .advance 7 9]

def failedRun : List (Action Operation) :=
  stalledRun ++
    [.call 8 (.finalizeExecution (lease 2 "execution-2" "token-2")
      (result .failed none)), .advance 8 1]

end Execution

open Execution

/-- In every run that opens executions on running jobs only, and neither
reopens nor sweeps a job with a running execution, a job with a running
execution is running; a terminal execution and its job agree until the job is
reopened; the score that is read back was written by the execution that is;
and a lease holder finalizes both rows alike.  Every statement outside of the
condition breaks the first of these. -/
theorem job_execution_agree {config : Configuration}
    (reachable : Reachable together config) :
    (∀ jobId job, config.state.runningOf jobId ≠ [] →
      config.state.job? jobId = some job → job.status = .running) ∧
      (∀ later executionId jobId execution now job,
        machine.Run (fun db event next => together db event next ∧
          notReopened jobId db event next) config later →
        config.state.execution? executionId = some execution →
        execution.jobId = jobId → execution.status = .running →
        later.state.execution? executionId = some now →
        now.status ≠ .running → later.state.job? jobId = some job →
          job.status = now.status) ∧
      (∀ jobId audit score,
        config.state.reconstructLatestAudit jobId = .ok (some audit) →
        audit.securityScore = some score →
          Wrote config audit.executionId score) ∧
      (∀ lease finalization execution, config.state.Leased lease →
        config.state.execution? lease.executionId = some execution →
        execution.status = .running → terminal finalization.jobStatus →
          ∃ after closed job,
            config.state.finalizeExecution lease finalization =
              .ok ((), after) ∧
            after.execution? lease.executionId = some closed ∧
            after.job? lease.jobId = some job ∧
            closed.status = finalStatus (config.state.cancelled lease.jobId)
              finalization.jobStatus ∧
            job.status = closed.status) ∧
      ∀ statement : Statement, statement.Required config.state →
        ((machine.answer config.state statement).2.Agrees ↔
          statement.Keeps config.state) := by
  have consistent := reachable.sound.inv
  have agrees := reachable.agrees
  refine ⟨?_, ?_, ?_, ?_, ?_⟩
  · intro jobId job runs found
    rcases mem_of_runningOf_ne_nil runs with ⟨execution, member, same, running⟩
    have named : job.id = jobId := by simpa using List.find?_some found
    exact agrees execution member running job (List.mem_of_find?_eq_some found)
      (named.trans same.symm)
  · intro later executionId jobId execution now job run found same running row
      closed owner
    rcases run_tracks reachable run ⟨execution, found, same, Or.inl running⟩
      with ⟨last, lastRow, _, state⟩
    rw [row, Option.some.injEq] at lastRow
    subst lastRow
    rcases state with runs | ⟨_, _, _, status⟩
    · exact absurd runs closed
    · have named : job.id = jobId := by simpa using List.find?_some owner
      exact status job (List.mem_of_find?_eq_some owner) named
  · exact fun jobId audit score read scored =>
      reconstructed_score reachable read scored
  · exact fun lease finalization execution leased found running closes =>
      finalizeExecution_agrees consistent agrees leased found running closes
  · exact fun statement required =>
      agrees_answer_iff consistent agrees required

theorem job_execution_agree_completedRun :
    ((machine.schedule keeping start completedRun).state.reconstructLatestAudit
        "job-1").map (Option.map ReconstructedAudit.securityScore) =
          .ok (some (some 90)) ∧
      ∀ audit, (machine.schedule keeping start
        completedRun).state.reconstructLatestAudit "job-1" = .ok (some audit) →
        audit.securityScore = some 90 →
          Wrote (machine.schedule keeping start completedRun) audit.executionId
            90 :=
  ⟨by decide, fun audit => (job_execution_agree
    (keeping_admits.schedule start completedRun)).2.2.1 "job-1" audit 90⟩

/-- A worker that stalled between its claim and its execution opens one on a
completed job.  Then the two disagree for good, and the failed execution is
read back with the score of the attempt before it. -/
theorem stalledRun_disagrees :
    ¬ (∀ config, Reachable anyStep config → config.state.Agrees) ∧
      ((reached failedRun).state.reconstructLatestAudit "job-1").map
        (Option.map fun audit =>
          (audit.attemptNumber, audit.status, audit.securityScore)) =
            .ok (some (2, .failed, some 90)) := by
  refine ⟨fun always => ?_, by decide⟩
  have broken : ¬ (reached stalledRun).state.Agrees := by decide
  exact broken (always _ (reached_reachable stalledRun))

end FireCrow.Orchestrator
