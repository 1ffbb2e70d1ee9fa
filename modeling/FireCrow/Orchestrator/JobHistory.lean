import FireCrow.Api.ActiveJobs
import FireCrow.Orchestrator.JobAgreement

/-!
# The history of a job

The executions of a job do not overlap in time.  A completed job is closed for
good, also where a stalled worker opens another execution of it, and every
other status moves along `can_transition` until the job is reopened.
-/

namespace FireCrow.Orchestrator

open FireCrow.Library FireCrow.Schemas

namespace Execution

variable {db after : Database} {job : AuditJob} {statement : Statement}
  {execution : AuditExecution}

/-! ## Attempts -/

/-- A row is terminal and has run up to a time that has come. -/
def AuditExecution.Ended (execution : AuditExecution) (now : Timestamp) :
    Prop :=
  execution.status ≠ .running ∧
    ∃ finished, execution.finishedAt = some finished ∧
      execution.startedAt ≤ finished ∧ finished ≤ now

theorem AuditExecution.Ended.later {now later : Timestamp}
    (ended : execution.Ended now) (passes : now ≤ later) :
    execution.Ended later := by
  rcases ended with ⟨terminal, finished, same, after, before⟩
  exact ⟨terminal, finished, same, after, before.trans passes⟩

/-- Times that have come, of executions that are apart. -/
structure Database.Timed (db : Database) : Prop where
  started : ∀ execution ∈ db.executions, execution.startedAt ≤ db.now
  ended : ∀ execution ∈ db.executions, execution.status ≠ .running →
    execution.Ended db.now
  apart : db.executions.Pairwise fun earlier later =>
    earlier.jobId = later.jobId → earlier.Ended later.startedAt

theorem executionAfter_startedAt :
    (statement.executionAfter db execution).startedAt =
      execution.startedAt := by
  cases statement <;> simp only [Statement.executionAfter] <;>
    first | rfl | (split <;> rfl)

/-- A statement that closes a row writes the time. -/
theorem executionAfter_ended (started : execution.startedAt ≤ db.now)
    (ended : execution.status ≠ .running → execution.Ended db.now) :
    (statement.executionAfter db execution).status ≠ .running →
      (statement.executionAfter db execution).Ended db.now := by
  cases statement <;> simp only [Statement.executionAfter] <;>
    first
      | exact ended
      | (split
         · first
             | exact ended
             | exact fun closed => ⟨closed, db.now, rfl, started, le_refl _⟩
         · exact ended)

theorem Database.Timed.step (timed : db.Timed)
    (effect : statement.Effect db after) : after.Timed where
  started := by
    intro execution member
    rw [effect.now]
    rcases mem_executions_after effect member with
      ⟨before, inside, rfl⟩ | ⟨lease, _, rfl⟩
    · rw [executionAfter_startedAt]
      exact timed.started before inside
    · exact le_refl db.now
  ended := by
    intro execution member terminal
    rw [effect.now]
    rcases mem_executions_after effect member with
      ⟨before, inside, rfl⟩ | ⟨lease, _, rfl⟩
    · exact executionAfter_ended (timed.started before inside)
        (timed.ended before inside) terminal
    · exact absurd rfl terminal
  apart := by
    rw [effect.executions, List.pairwise_append, List.pairwise_map]
    refine ⟨timed.apart.imp_of_mem ?_, ?_, ?_⟩
    · intro earlier later inside _ ended same
      rw [executionAfter_jobId, executionAfter_jobId] at same
      have before := ended same
      rw [(executionAfter_continues (effect.permitted earlier inside)).frozen
        before.1, executionAfter_startedAt]
      exact before
    · cases statement <;> simp [Statement.newExecutions]
    · intro earlier old later new
      cases statement with
      | insertExecution lease =>
          rw [List.mem_singleton.1 new]
          rcases List.mem_map.1 old with ⟨row, inside, rfl⟩
          intro same
          exact timed.ended row inside ((effect.admitted.2 row inside).2 same).2
      | _ => cases new

/-- In every run no two executions of a job overlap in time: an earlier attempt
has ended, after its start, when a later one starts. -/
theorem attempts_disjoint {config : Configuration}
    (reachable : Reachable anyStep config) (jobId : Text) :
    (config.state.attemptsOf jobId).Pairwise fun earlier later =>
      earlier.Ended later.startedAt := by
  have timed : config.state.Timed := by
    refine reachable.keeps Database.Timed ?_ ?_ ?_
    · intro db process statement reply _ timed
      rcases answer_cases db statement with
        ⟨answer, next, success, equal⟩ | ⟨error, _, equal⟩
      · rw [equal]
        exact timed.step (Statement.effect success)
      · rw [equal]
        exact timed
    · intro db duration timed
      have passes : db.now ≤ db.now + duration :=
        Int.le_add_of_nonneg_right (Int.natCast_nonneg duration)
      exact ⟨fun execution member => (timed.started execution member).trans passes,
        fun execution member terminal =>
          (timed.ended execution member terminal).later passes, timed.apart⟩
    · constructor <;> simp [start]
  refine (timed.apart.sublist List.filter_sublist).imp_of_mem ?_
  intro earlier later inside inside' ended
  exact ended ((mem_attemptsOf.1 inside).2.trans (mem_attemptsOf.1 inside').2.symm)

theorem attempts_disjoint_stalledRun :
    ((reached stalledRun).state.attemptsOf "job-1").length = 2 ∧
      ((reached stalledRun).state.attemptsOf "job-1").Pairwise
        fun earlier later => earlier.Ended later.startedAt :=
  ⟨by decide, attempts_disjoint (reached_reachable stalledRun) "job-1"⟩

/-! ## Completed jobs -/

/-- What the effects of statements keep of the row of a job, a run keeps. -/
theorem run_job
    {condition : Condition Database Statement Statement.Reply Operation}
    {config later : Configuration} {jobId : Text}
    (run : machine.Run condition config later) (kept : AuditJob → Prop)
    (step : ∀ {db process statement reply after now},
      condition db (.executed process statement reply) after →
        statement.Effect db after → now ∈ db.jobs → now.id = jobId →
          kept now → kept (statement.jobAfter db now))
    (found : config.state.job? jobId = some job) (first : kept job) :
    ∃ now, later.state.job? jobId = some now ∧ kept now := by
  refine run.keeps (fun db => ∃ now, db.job? jobId = some now ∧ kept now) ?_
    (fun _ same => same) ⟨job, found, first⟩
  rintro db process statement reply met ⟨now, row, holds⟩
  rcases answer_cases db statement with
    ⟨answer, next, success, equal⟩ | ⟨error, _, equal⟩
  · rw [equal] at met ⊢
    have effect := Statement.effect success
    rcases job?_mem row with ⟨member, named⟩
    exact ⟨_, effect.job? row, step met effect member named holds⟩
  · rw [equal]
    exact ⟨now, row, holds⟩

/-- A job without its commit and its request to cancel. -/
def AuditJob.outcome (job : AuditJob) : AuditJob :=
  { job.cleared with commitSha := none }

theorem closed_completed (completed : job.status = .completed)
    (now : Timestamp) (status : JobStatus) (score : Option ℚ)
    (message : Option Text) : job.closed now status score message = job :=
  if_neg (by rw [completed]; decide)

/-- What the lifecycle lets a statement do to a completed job. -/
theorem jobAfter_completed (completed : job.status = .completed)
    (guarded : lifecycleGuard job.status
      (statement.jobAfter db job).status = true) :
    (statement.jobAfter db job).outcome = job.outcome := by
  rw [completed] at guarded
  have stays := completed_stays guarded
  cases statement with
  | finalizeExecution lease finalization =>
      simp only [Statement.jobAfter]
      have status : (if db.cancelled lease.jobId then job.cleared
          else job).status = .completed := by
        split <;> exact completed
      rw [closed_completed status]
      split
      · split <;> rfl
      · rfl
  | finalizeWithoutFindings lease status reason =>
      simp only [Statement.jobAfter]
      rw [closed_completed completed]
      split <;> rfl
  | reapAbandonedExecution executionId staleBefore reason =>
      simp only [Statement.jobAfter]
      split
      · rfl
      · split
        · rw [AuditJob.released, if_neg (by simp [completed])]
          rfl
        · rfl
  | reopenJob jobId =>
      simp only [Statement.jobAfter] at stays ⊢
      split at stays
      · cases stays
      · rename_i other
        rw [if_neg other]
  | _ =>
      simp only [Statement.jobAfter]
      repeat' split
      all_goals
        first
          | rfl
          | simp_all [Database.live, Database.reopenable]

/-- In every run a job stays, and a job that is completed, as every job with a
score is, keeps its status, its score, its times and its message. -/
theorem completed_job_final {config later : Configuration}
    (reachable : Reachable anyStep config)
    (run : machine.Run anyStep config later) {jobId : Text} {job : AuditJob}
    (found : config.state.job? jobId = some job) :
    ∃ now, later.state.job? jobId = some now ∧
      (job.status = .completed ∨ job.securityScore ≠ none →
        now.outcome = job.outcome) := by
  have completed : job.status = .completed ∨ job.securityScore ≠ none →
      job.status = .completed := by
    rintro (completed | scored)
    · exact completed
    · exact reachable.sound.inv.scored job (job?_mem found).1 scored
  refine run_job run _ ?_ found fun _ => rfl
  intro db process statement reply after now _ effect member _ kept final
  have status : now.outcome.status = job.outcome.status := by
    rw [kept final]
  rw [← kept final]
  exact jobAfter_completed (status.trans (completed final))
    (effect.lifecycle now member)

/-- Another execution of a completed job fails. -/
theorem completed_job_final_stalledRun :
    ∃ now, (machine.schedule allowed (reached stalledRun)
        [.call 8 (.finalizeExecution (lease 2 "execution-2" "token-2")
          (result .failed none)), .advance 8 1]).state.job? "job-1" =
            some now ∧
      now.status = .completed ∧ now.securityScore = some 90 := by
  have found : ((reached stalledRun).state.job? "job-1").map
      (fun job => (job.status, job.securityScore)) =
        some (.completed, some 90) := by
    decide
  rcases Option.map_eq_some_iff.1 found with ⟨job, row, same⟩
  rcases completed_job_final (reached_reachable stalledRun)
    (allowed_admits.schedule _ _) row with ⟨now, last, kept⟩
  have outcome := kept (.inl (congrArg Prod.fst same))
  exact ⟨now, last,
    (congrArg AuditJob.status outcome).trans (congrArg Prod.fst same),
    (congrArg AuditJob.securityScore outcome).trans (congrArg Prod.snd same)⟩

/-! ## Transitions -/

/-- Whether a step of a job's status is legal; a terminal one has none. -/
def canTransition (status next : JobStatus) : Bool :=
  if status.isTerminal then false
  else
    match status with
    | .queued => next ∈ [.running, .failed, .cancelled]
    | .running =>
        next ∈ [.completed, .partial_, .failed, .cancelled, .engineUnavailable]
    | _ => false

/-- A legal step, or recovery puts a running job back into the queue. -/
def Moves (status next : JobStatus) : Prop :=
  canTransition status next = true ∨ status = .running ∧ next = .queued

/-- Besides, the trigger lets terminal jobs be reopened. -/
theorem moves_of_lifecycle {old new : JobStatus}
    (permitted : lifecycleGuard old new = true)
    (quiet : Database.live old = false → Database.live new = false) :
    new = old ∨ Moves old new := by
  unfold Moves
  revert permitted quiet
  cases old <;> cases new <;> decide

theorem not_moves_of_terminal {status next : JobStatus}
    (terminal : status.isTerminal = true) : ¬ Moves status next := by
  unfold Moves
  revert terminal
  cases status <;> cases next <;> decide

/-- The job is not reopened. -/
def notRevived (jobId : Text) :
    Condition Database Statement Statement.Reply Operation
  | _, .executed _ statement _, _ => ¬ Api.Statement.Revives statement jobId
  | _, _, _ => True

def unrevived (_ : Database) : Statement → Bool
  | .retryJob _ _ | .reopenJob _ => false
  | _ => true

theorem unrevived_admits (jobId : Text) :
    Admits machine unrevived (notRevived jobId) where
  executed {db process statement} allowed := by
    cases statement with
    | retryJob | reopenJob => cases allowed
    | _ => exact id
  called := trivial
  crashed := trivial
  elapsed _ := trivial

end Execution

end FireCrow.Orchestrator
