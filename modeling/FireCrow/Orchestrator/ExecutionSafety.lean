import FireCrow.Orchestrator.ExecutionInvariants

/-!
# Safety of executions

A row of the executions keeps its identity and its snapshot, is frozen once it
is terminal, and is closed only by the holder of its token or by recovery past
the cutoff.  These facts and the consistency of the tables hold in every run
of any number of processes.
-/

namespace FireCrow.Orchestrator

open FireCrow.Library FireCrow.Schemas

namespace Execution

/-! ## What becomes of a row -/

/-- A row keeps its identity and its snapshot, and a terminal row is kept as
it is. -/
structure AuditExecution.Continues (before after : AuditExecution) : Prop where
  identity : after.identity = before.identity
  frozen : before.status ≠ .running → after = before
  snapshot : ∀ commitSha, before.commitSha = some commitSha →
    after.commitSha = some commitSha

theorem AuditExecution.Continues.refl (execution : AuditExecution) :
    execution.Continues execution :=
  ⟨rfl, fun _ => rfl, fun _ bound => bound⟩

theorem AuditExecution.Continues.trans {first second third : AuditExecution}
    (before : first.Continues second) (after : second.Continues third) :
    first.Continues third where
  identity := after.identity.trans before.identity
  frozen := by
    intro terminal
    have same := before.frozen terminal
    rw [same] at after
    exact after.frozen terminal
  snapshot := fun commitSha bound =>
    after.snapshot commitSha (before.snapshot commitSha bound)

variable {execution : AuditExecution} {db : Database} {statement : Statement}

/-- The triggers let a statement do no more to a row. -/
theorem executionAfter_continues
    (permitted : statement.executionAfter db execution = execution ∨
      execution.permits (statement.executionAfter db execution) = true) :
    execution.Continues (statement.executionAfter db execution) := by
  rcases permitted with same | permitted
  · rw [same]
    exact .refl execution
  · simp only [AuditExecution.permits, Bool.and_eq_true, Bool.or_eq_true,
      decide_eq_true_eq, Option.isNone_iff_eq_none] at permitted
    rcases permitted with ⟨⟨running, snapshot⟩, _⟩
    refine ⟨executionAfter_identity _ _ _, fun terminal => ?_, ?_⟩
    · exact absurd running terminal
    · intro commitSha bound
      rcases snapshot with unbound | same
      · rw [unbound] at bound
        cases bound
      · exact same.trans bound

variable {executionId : Text}

/-- The row of an execution after a statement. -/
theorem Statement.Effect.execution? {after : Database}
    (effect : statement.Effect db after)
    (found : db.execution? executionId = some execution) :
    after.execution? executionId =
      some (statement.executionAfter db execution) := by
  unfold Database.execution? at found ⊢
  rw [effect.executions, List.find?_append, List.find?_map]
  have same : ((fun execution : AuditExecution =>
      decide (execution.id = executionId)) ∘ statement.executionAfter db) =
        fun execution => decide (execution.id = executionId) := by
    funext execution
    simp only [Function.comp_apply, executionAfter_id]
  rw [same, found]
  rfl

variable {jobId : Text} {job : AuditJob}

/-- The row of a job after a statement. -/
theorem Statement.Effect.job? {after : Database}
    (effect : statement.Effect db after) (found : db.job? jobId = some job) :
    after.job? jobId = some (statement.jobAfter db job) := by
  unfold Database.job? at found ⊢
  rw [effect.jobs, List.find?_append, List.find?_map]
  have same : ((fun job : AuditJob => decide (job.id = jobId)) ∘
      statement.jobAfter db) = fun job => decide (job.id = jobId) := by
    funext job
    simp only [Function.comp_apply, jobAfter_id]
  rw [same, found]
  rfl

theorem execution?_mem (found : db.execution? executionId = some execution) :
    execution ∈ db.executions ∧ execution.id = executionId :=
  ⟨List.mem_of_find?_eq_some found, by simpa using List.find?_some found⟩

theorem job?_mem
    (found : db.job? jobId = some job) : job ∈ db.jobs ∧ job.id = jobId :=
  ⟨List.mem_of_find?_eq_some found, by simpa using List.find?_some found⟩

section

variable (consistent : db.Consistent)
include consistent

/-- A row is the one under its id. -/
theorem Database.Consistent.execution_unique {left right : AuditExecution}
    (inLeft : left ∈ db.executions) (inRight : right ∈ db.executions)
    (same : left.id = right.id) : left = right :=
  List.inj_on_of_nodup_map consistent.executionIds inLeft inRight same

theorem Database.Consistent.execution?_eq (member : execution ∈ db.executions) :
    db.execution? execution.id = some execution := by
  cases lookup : db.execution? execution.id with
  | none =>
      have absent := List.find?_eq_none.1 lookup execution member
      simp at absent
  | some other =>
      rcases execution?_mem lookup with ⟨inside, same⟩
      rw [consistent.execution_unique inside member same]

theorem Database.Consistent.job?_eq (member : job ∈ db.jobs) :
    db.job? job.id = some job := by
  cases lookup : db.job? job.id with
  | none =>
      have absent := List.find?_eq_none.1 lookup job member
      simp at absent
  | some other =>
      rcases job?_mem lookup with ⟨inside, same⟩
      rw [List.inj_on_of_nodup_map consistent.jobIds inside member same]

/-- A lease that was granted names the row it finalizes. -/
theorem Database.Consistent.leased_jobId {lease : ExecutionLease}
    (leased : db.Leased lease)
    (found : db.execution? lease.executionId = some execution) :
    execution.jobId = lease.jobId := by
  rcases leased with ⟨granted, member, named, job, _⟩
  rcases execution?_mem found with ⟨inside, same⟩
  rw [consistent.execution_unique inside member (same.trans named.symm)]
  exact job

end

/-- At every later time a row is what its history permits. -/
theorem run_continues {before after : Configuration}
    (sound : Sound discipline Database.Consistent before)
    {condition : Condition Database Statement Statement.Reply Operation}
    (run : machine.Run condition before after)
    (found : before.state.execution? executionId = some execution) :
    ∃ now, after.state.execution? executionId = some now ∧
      execution.Continues now := by
  refine Sound.keeps guarantees
    (fun db => ∃ now, db.execution? executionId = some now ∧
      execution.Continues now) sound ?_ ?_ run ⟨execution, found, .refl execution⟩
  · rintro db process statement reply _ _ _ ⟨now, row, continues⟩
    rcases answer_cases db statement with
      ⟨answer, next, success, equal⟩ | ⟨error, _, equal⟩
    · rw [equal]
      have effect := Statement.effect success
      have permitted := effect.permitted now (execution?_mem row).1
      exact ⟨_, effect.execution? row,
        continues.trans (executionAfter_continues permitted)⟩
    · rw [equal]
      exact ⟨now, row, continues⟩
  · exact fun _ _ kept => kept

/-! ## Who closes a row -/

/-- The statement finalizes with the token of the execution, or it reaps the
execution past the cutoff. -/
def Statement.Closes (execution : AuditExecution) : Statement → Prop
  | .finalizeExecution lease _ =>
      lease.executionId = execution.id ∧
        execution.ownerToken = some lease.ownerToken
  | .finalizeWithoutFindings lease _ _ =>
      lease.executionId = execution.id ∧
        execution.ownerToken = some lease.ownerToken
  | .reapAbandonedExecution executionId staleBefore _ =>
      executionId = execution.id ∧ execution.lastBeat < staleBefore
  | _ => False

theorem abandoned?_mem {staleBefore : Timestamp}
    (found : db.abandoned? executionId staleBefore = some execution) :
    execution ∈ db.executions ∧ execution.id = executionId ∧
      execution.status = .running ∧ execution.lastBeat < staleBefore := by
  refine ⟨List.mem_of_find?_eq_some found, ?_⟩
  have selected := List.find?_some found
  simpa [and_assoc] using selected

theorem closes_of_terminal (consistent : db.Consistent)
    (member : execution ∈ db.executions) (running : execution.status = .running)
    (terminal : (statement.executionAfter db execution).status ≠ .running) :
    statement.Closes execution := by
  cases statement with
  | finalizeExecution | finalizeWithoutFindings =>
      simp only [Statement.executionAfter] at terminal
      split at terminal
      · rename_i selected
        simp only [Bool.and_eq_true, decide_eq_true_eq] at selected
        exact ⟨selected.1.symm, selected.2.1⟩
      · exact absurd running terminal
  | reapAbandonedExecution executionId staleBefore reason =>
      simp only [Statement.executionAfter] at terminal
      split at terminal
      · rename_i selected
        simp only [Bool.and_eq_true, decide_eq_true_eq,
          Option.isSome_iff_exists] at selected
        rcases selected with ⟨⟨found, abandoned⟩, named, _⟩
        rcases abandoned?_mem abandoned with ⟨inside, same, _, stale⟩
        have equal := consistent.execution_unique inside member
          (same.trans named.symm)
        exact ⟨named.symm, equal ▸ stale⟩
      · exact absurd running terminal
  | bindSnapshot | heartbeat =>
      simp only [Statement.executionAfter] at terminal
      split at terminal <;> exact absurd running terminal
  | _ => exact absurd running terminal

/-- A step that closes an execution executes a statement that may. -/
theorem step_closes {before after : Configuration}
    (sound : Sound discipline Database.Consistent before)
    {event : Event Statement Statement.Reply Operation}
    (step : machine.Step before event after) {closed : AuditExecution}
    (found : before.state.execution? executionId = some execution)
    (running : execution.status = .running)
    (row : after.state.execution? executionId = some closed)
    (terminal : closed.status ≠ .running) :
    ∃ process statement reply,
      event = .executed process statement reply ∧
        statement.Closes execution := by
  have same : ∀ {state : Database},
      state.execution? executionId = some closed →
        state.execution? executionId = some execution → False := by
    intro state first second
    rw [first, Option.some.injEq] at second
    exact terminal (second ▸ running)
  have closes : ∀ statement : Statement,
      (machine.answer before.state statement).2.execution? executionId =
        some closed → statement.Closes execution := by
    intro statement row
    rcases answer_cases before.state statement with
      ⟨answer, next, success, equal⟩ | ⟨error, _, equal⟩
    · rw [equal] at row
      have effect := Statement.effect success
      rw [effect.execution? found, Option.some.injEq] at row
      exact closes_of_terminal sound.inv (execution?_mem found).1 running
        (row ▸ terminal)
    · rw [equal] at row
      exact absurd found (same row)
  cases step with
  | call | crash | elapse => exact absurd found (same row)
  | @execute process statement next reply later _ executes =>
      refine ⟨process, statement, reply, rfl, ?_⟩
      cases executes with
      | answered => exact closes statement row
      | failed => exact absurd found (same row)
      | lost => exact closes statement row

/-! ## One running execution -/

theorem mem_runningOf :
    execution ∈ db.runningOf jobId ↔
      execution ∈ db.executions ∧ execution.jobId = jobId ∧
        execution.status = .running := by
  simp [Database.runningOf]

section Step

variable {db after : Database} {statement : Statement}

section

variable (effect : statement.Effect db after)
include effect

theorem mem_jobs_after {job : AuditJob} (member : job ∈ after.jobs) :
    (∃ before ∈ db.jobs, job = statement.jobAfter db before) ∨
      ∃ jobId userId, statement = .createJob jobId userId ∧
        job = db.newJob jobId userId := by
  rw [effect.jobs] at member
  rcases List.mem_append.1 member with old | new
  · rcases List.mem_map.1 old with ⟨before, inside, rfl⟩
    exact Or.inl ⟨before, inside, rfl⟩
  · cases statement with
    | createJob jobId userId =>
        exact Or.inr ⟨jobId, userId, rfl, List.mem_singleton.1 new⟩
    | _ => cases new

theorem mem_executions_after (member : execution ∈ after.executions) :
    (∃ before ∈ db.executions,
      execution = statement.executionAfter db before) ∨
      ∃ lease, statement = .insertExecution lease ∧
        execution = db.newExecution lease := by
  rw [effect.executions] at member
  rcases List.mem_append.1 member with old | new
  · rcases List.mem_map.1 old with ⟨before, inside, rfl⟩
    exact Or.inl ⟨before, inside, rfl⟩
  · cases statement with
    | insertExecution lease =>
        exact Or.inr ⟨lease, rfl, List.mem_singleton.1 new⟩
    | _ => cases new

theorem mem_runningOf_after {jobId : Text}
    (member : execution ∈ after.runningOf jobId) :
    (∃ before ∈ db.runningOf jobId,
      execution = statement.executionAfter db before) ∨
      ∃ lease, statement = .insertExecution lease ∧ lease.jobId = jobId := by
  rcases mem_runningOf.1 member with ⟨inside, job, runs⟩
  rcases mem_executions_after effect inside with
    ⟨before, was, rfl⟩ | ⟨lease, opened, rfl⟩
  · rw [executionAfter_jobId] at job
    exact Or.inl ⟨before, mem_runningOf.2 ⟨was, job,
      running_before (effect.permitted before was) runs⟩, rfl⟩
  · exact Or.inr ⟨lease, opened, job⟩

end

end Step

/-- The running executions of a job are one. -/
theorem Database.Consistent.running_unique
    (consistent : db.Consistent) {left right : AuditExecution}
    (inLeft : left ∈ db.runningOf jobId)
    (inRight : right ∈ db.runningOf jobId) : left = right := by
  rcases mem_runningOf.1 inLeft with ⟨leftRow, leftJob, leftRuns⟩
  rcases mem_runningOf.1 inRight with ⟨rightRow, rightJob, rightRuns⟩
  have last := consistent.latestRuns jobId left
    (mem_attemptsOf.2 ⟨leftRow, leftJob⟩) leftRuns
  rw [consistent.latestRuns jobId right
    (mem_attemptsOf.2 ⟨rightRow, rightJob⟩) rightRuns] at last
  exact (Option.some.inj last).symm

theorem Database.Consistent.runningOf_le_one
    (consistent : db.Consistent) (jobId : Text) :
    (db.runningOf jobId).length ≤ 1 := by
  have distinct : (db.runningOf jobId).Nodup :=
    (List.Nodup.of_map _ consistent.executionIds).sublist List.filter_sublist
  have unique : ∀ left ∈ db.runningOf jobId, ∀ right ∈ db.runningOf jobId,
      left = right :=
    fun _ inLeft _ inRight => consistent.running_unique inLeft inRight
  match rows : db.runningOf jobId with
  | [] => exact Nat.zero_le 1
  | [_] => exact le_refl 1
  | first :: second :: rest =>
      rw [rows] at distinct unique
      have same := unique first (by simp) second (by simp)
      simp [same] at distinct

/-! ## A schedule -/

def uuids : Nat → Text
  | 5 => "token-1"
  | _ => "execution-1"

def laterUuids : Nat → Text
  | 5 => "token-2"
  | _ => "execution-2"

/-- A result without findings and without a report. -/
def result (status : JobStatus) (score : Option ℚ) : Finalization where
  findings := []
  scannerRuns := []
  coverageComplete := true
  canonicalJson := none
  reportMarkdown := none
  reportJson := none
  reportHtml := none
  securityScore := score
  jobStatus := status
  failureReason := none

def lease (attemptNumber : Nat) (executionId ownerToken : Text) :
    ExecutionLease where
  executionId := executionId
  jobId := "job-1"
  attemptNumber := attemptNumber
  ownerToken := ownerToken

/-- One worker opens an execution, and others compete for its job. -/
def contended : List (Action Operation) :=
  [.call 0 (.createJob "job-1" "user-1"), .advance 0 1,
    .call 1 (.claimJob "job-1"), .advance 1 1,
    .call 2 (.beginExecution uuids "job-1"),
    .call 3 (.beginExecution uuids "job-1"), .advance 3 2, .advance 2 9,
    .advance 3 9, .crash 2, .wait 1000000, .call 4 .sweepZombieJobs,
    .advance 4 9]

def allowed (_ : Database) (_ : Statement) : Bool := true

theorem allowed_admits : Admits machine allowed anyStep := by
  constructor <;> intros <;> trivial

/-- What a schedule reaches. -/
def reached (actions : List (Action Operation)) : Configuration :=
  machine.schedule allowed start actions

theorem reached_reachable (actions : List (Action Operation)) :
    Reachable anyStep (reached actions) :=
  allowed_admits.schedule start actions

end Execution

open Execution

/-- In every run of any number of processes, crashes and lost connections
included, a job has at most one running execution and attempts numbered from
one without gap, a terminal row and a bound snapshot stay, only the holder of
the token or recovery past the cutoff closes an execution, and only a
completed job has a score. -/
theorem execution_protocol_safe {config : Configuration}
    (reachable : Reachable anyStep config) :
    (∀ jobId, (config.state.runningOf jobId).length ≤ 1) ∧
      (∀ jobId,
        (config.state.attemptsOf jobId).map AuditExecution.attemptNumber =
          List.range' 1 (config.state.attemptsOf jobId).length) ∧
      (∀ later executionId execution,
        machine.Run anyStep config later →
          config.state.execution? executionId = some execution →
            ∃ now, later.state.execution? executionId = some now ∧
              (execution.status ≠ .running → now = execution) ∧
              ∀ commitSha, execution.commitSha = some commitSha →
                now.commitSha = some commitSha) ∧
      (∀ event after executionId execution closed,
        machine.Step config event after →
          config.state.execution? executionId = some execution →
            execution.status = .running →
              after.state.execution? executionId = some closed →
                closed.status ≠ .running →
                  ∃ process statement reply,
                    event = .executed process statement reply ∧
                      statement.Closes execution) ∧
      ∀ job ∈ config.state.jobs, job.securityScore ≠ none →
        job.status = .completed := by
  have sound := reachable.sound
  refine ⟨sound.inv.runningOf_le_one, sound.inv.attempts, ?_, ?_,
    sound.inv.scored⟩
  · intro later executionId execution run found
    rcases run_continues sound run found with ⟨now, row, continues⟩
    exact ⟨now, row, continues.frozen, continues.snapshot⟩
  · intro event after executionId execution closed step found running row
      terminal
    exact step_closes sound step found running row terminal

theorem execution_protocol_safe_contended :
    ((reached contended).state.runningOf "job-1").map AuditExecution.id =
        ["execution-1"] ∧
      ((reached contended).state.runningOf "job-1").length ≤ 1 :=
  ⟨by decide +kernel,
    (execution_protocol_safe (reached_reachable contended)).1 "job-1"⟩

end FireCrow.Orchestrator
