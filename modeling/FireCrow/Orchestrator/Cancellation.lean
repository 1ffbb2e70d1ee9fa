import FireCrow.Orchestrator.ExecutionSafety

/-!
# Requests to cancel a job

A request is a flag on the job that the next finalization of an execution
reads and consumes.  From then on the job is closed without a result, and the
lifecycle guard keeps it closed: a later finalization that would complete an
execution is refused together with its transaction.
-/

namespace FireCrow.Orchestrator

open FireCrow.Library FireCrow.Schemas

namespace Execution

/-! ## Requests -/

/-- Statuses that close an execution without a result. -/
def resultless (status : JobStatus) : Bool :=
  status ∈ [.failed, .cancelled, .engineUnavailable]

/-- Statuses that close an execution with a result. -/
def resultful (status : JobStatus) : Bool := status ∈ [.completed, .partial_]

/-- The request is pending, or it was consumed and the job is closed without a
result. -/
def AuditJob.Honours (job : AuditJob) : Prop :=
  (job.cancelRequested = true ∧ job.status ≠ .completed) ∨
    resultless job.status = true

/-- The job is neither retried, nor reopened once its request is consumed, nor
does recovery close an execution of it; and an execution that ends without a
result is closed as failed, cancelled or unavailable. -/
def Statement.Undisturbed (db : Database) (jobId : Text) : Statement → Prop
  | .retryJob named _ => named ≠ jobId
  | .reopenJob named => named = jobId →
      ∀ job, db.job? jobId = some job → job.cancelRequested = true ∨
        Database.reopenable job.status = false
  | .reapAbandonedExecution executionId staleBefore _ =>
      ∀ execution, db.abandoned? executionId staleBefore = some execution →
        execution.jobId ≠ jobId
  | .finalizeWithoutFindings lease status _ =>
      lease.jobId = jobId → resultless status = true
  | _ => True

def undisturbed (jobId : Text) :
    Condition Database Statement Statement.Reply Operation
  | db, .executed _ statement _, _ => statement.Undisturbed db jobId
  | _, _, _ => True

theorem lifecycle_resultless {old new : JobStatus}
    (guarded : lifecycleGuard old new = true) (closed : resultless old = true) :
    resultless new = true ∨ new = .queued := by
  cases old <;> cases new <;>
    simp [lifecycleGuard, resultless] at guarded closed ⊢

theorem finalizable_of_resultless {status : JobStatus}
    (closed : resultless status = true) :
    Database.finalizable status = true := by
  cases status <;> simp [resultless] at closed <;> rfl

theorem finalizable_of_not_completed {status : JobStatus}
    (unfinished : status ≠ .completed) :
    Database.finalizable status = true := by
  cases status <;> first | rfl | exact absurd rfl unfinished

section Step

variable {db after : Database} {statement : Statement} {jobId : Text}
  {job : AuditJob}

theorem cancelled_eq (found : db.job? jobId = some job) :
    db.cancelled jobId = job.cancelRequested := by
  simp [Database.cancelled, found]

/-- The status that a finalization of an honoured request records. -/
theorem finalized_resultless {lease : ExecutionLease}
    {finalization : Finalization}
    (effect : (Statement.finalizeExecution lease finalization).Effect db after)
    (found : db.job? lease.jobId = some job) (honours : job.Honours) :
    resultless (finalStatus (db.cancelled lease.jobId)
      finalization.jobStatus) = true := by
  have named : job.id = lease.jobId := by simpa using List.find?_some found
  have member := List.mem_of_find?_eq_some found
  cases flag : job.cancelRequested with
  | true =>
      rw [cancelled_eq found, flag]
      unfold finalStatus
      split
      · rfl
      · rename_i already
        simp only [not_and, ne_eq, not_not] at already
        rw [already trivial]
        rfl
  | false =>
      have closed : resultless job.status = true :=
        honours.resolve_left (by simp [flag])
      have guarded := effect.lifecycle job member
      simp only [Statement.jobAfter, named, if_true, cancelled_eq found, flag,
        Bool.false_eq_true, if_false, AuditJob.closed,
        finalizable_of_resultless closed] at guarded
      refine (lifecycle_resultless ?_ closed).resolve_right fun queued => ?_
      · rw [cancelled_eq found, flag]
        exact guarded
      · rcases effect.admitted.2 with ⟨execution, row, owned, running⟩
        rcases execution?_mem row with ⟨inside, id⟩
        have after : ((Statement.finalizeExecution lease
            finalization).executionAfter db execution).status = .queued := by
          simp [Statement.executionAfter, id, owned, running, queued]
        rcases effect.permitted execution inside with same | permitted
        · rw [same, running] at after
          cases after
        · simp only [AuditExecution.permits, after, Bool.and_eq_true,
            decide_eq_true_eq, ne_eq, not_true_eq_false, and_false] at permitted

theorem honours_step (effect : statement.Effect db after) (found : db.job? jobId = some job)
    (honours : job.Honours) (calm : statement.Undisturbed db jobId) :
    (statement.jobAfter db job).Honours := by
  have named : job.id = jobId := by simpa using List.find?_some found
  have launched : job.status = .queued → job.cancelRequested = true := by
    intro queued
    rcases honours with pending | closed
    · exact pending.1
    · rw [queued] at closed
      cases closed
  cases statement with
  | claimQueued skipped =>
      simp only [Statement.jobAfter]
      split
      · exact honours
      · split
        · rename_i selected
          simp only [Bool.and_eq_true, decide_eq_true_eq] at selected
          exact Or.inl ⟨launched selected.2, by simp⟩
        · exact honours
  | claimJob | launchJob =>
      simp only [Statement.jobAfter]
      split
      · rename_i selected
        simp only [Bool.and_eq_true, decide_eq_true_eq] at selected
        exact Or.inl ⟨launched selected.2, by simp⟩
      · exact honours
  | reopenJob name =>
      simp only [Statement.jobAfter]
      split
      · rename_i selected
        rcases calm (selected.symm.trans named) job found with pending | stays
        · exact Or.inl ⟨pending, by simp⟩
        · rcases honours with pending | closed
          · exact Or.inl ⟨pending.1, by simp⟩
          · cases status : job.status <;>
              simp [status, resultless, Database.reopenable] at closed stays
      · exact honours
  | recordCommit name commitSha =>
      simp only [Statement.jobAfter]
      split <;> exact honours
  | requestCancellation name userId =>
      simp only [Statement.jobAfter]
      split
      · rename_i selected
        simp only [Bool.and_eq_true, decide_eq_true_eq] at selected
        refine Or.inl ⟨rfl, fun completed => ?_⟩
        have live := selected.2.2
        rw [show job.status = .completed from completed] at live
        cases live
      · exact honours
  | retryJob name userId =>
      have other : job.id ≠ name := fun same =>
        calm (same.symm.trans named)
      simpa [Statement.jobAfter, other] using honours
  | failStuckJob | failJobIfUnowned =>
      simp only [Statement.jobAfter]
      split
      · exact Or.inr rfl
      · exact honours
  | reapAbandonedExecution executionId staleBefore reason =>
      simp only [Statement.jobAfter]
      split
      · exact honours
      · rename_i execution abandoned
        have other : job.id ≠ execution.jobId := fun same =>
          calm execution abandoned (same.symm.trans named)
        rw [if_neg other]
        exact honours
  | finalizeExecution lease finalization =>
      simp only [Statement.jobAfter]
      split
      · rename_i same
        have row : db.job? lease.jobId = some job := by
          rw [← same, named]
          exact found
        have closes := finalized_resultless effect row honours
        have status : (if db.cancelled lease.jobId then job.cleared
            else job).status = job.status := by split <;> rfl
        have open_ : Database.finalizable job.status = true := by
          rcases honours with pending | closed
          · exact finalizable_of_not_completed pending.2
          · exact finalizable_of_resultless closed
        unfold AuditJob.closed
        rw [status, if_pos open_]
        exact Or.inr closes
      · exact honours
  | finalizeWithoutFindings lease status reason =>
      simp only [Statement.jobAfter]
      split
      · rename_i same
        have open_ : Database.finalizable job.status = true := by
          rcases honours with pending | closed
          · exact finalizable_of_not_completed pending.2
          · exact finalizable_of_resultless closed
        unfold AuditJob.closed
        rw [if_pos open_]
        exact Or.inr (calm (same.symm.trans named))
      · exact honours
  | _ => exact honours

/-- While a request is honoured, no execution of its job ends with a
result. -/
theorem resultful_before (consistent : db.Consistent)
    (required : statement.Required db) (effect : statement.Effect db after)
    (found : db.job? jobId = some job) (honours : job.Honours)
    (calm : statement.Undisturbed db jobId) {execution : AuditExecution}
    (member : execution ∈ db.executions) (owner : execution.jobId = jobId)
    (ends : resultful (statement.executionAfter db execution).status = true) :
    execution.status ≠ .running := by
  intro running
  have closed : (statement.executionAfter db execution).status ≠ .running := by
    intro still
    rw [still] at ends
    cases ends
  have closes := closes_of_terminal consistent member running closed
  cases statement with
  | finalizeExecution lease finalization =>
      rcases closes with ⟨id, owned⟩
      rcases effect.admitted.2 with ⟨row, rowFound, _, _⟩
      rcases execution?_mem rowFound with ⟨inside, same⟩
      have equal := consistent.execution_unique inside member (same.trans id)
      have job := consistent.leased_jobId required rowFound
      subst equal
      rw [owner] at job
      have none := finalized_resultless effect (job ▸ found) honours
      simp only [Statement.executionAfter, same, owned, running, decide_true,
        Bool.and_self, if_true] at ends
      generalize finalStatus (db.cancelled lease.jobId)
        finalization.jobStatus = status at ends none
      cases status <;> simp [resultful, resultless] at ends none
  | finalizeWithoutFindings lease status reason =>
      rcases closes with ⟨id, owned⟩
      rcases effect.admitted with ⟨row, rowFound, _, _⟩
      rcases execution?_mem rowFound with ⟨inside, same⟩
      have equal := consistent.execution_unique inside member (same.trans id)
      have job := consistent.leased_jobId required rowFound
      subst equal
      have none := calm (job.symm.trans owner)
      simp only [Statement.executionAfter, same, owned, running, decide_true,
        Bool.and_self, if_true] at ends
      cases status <;> simp [resultful, resultless] at ends none
  | reapAbandonedExecution executionId staleBefore reason =>
      simp only [Statement.executionAfter] at ends
      split at ends
      · cases ends
      · rw [running] at ends
        cases ends
  | _ => exact closes.elim

theorem honours_requested (consistent : db.Consistent) {userId : Text}
    {count : Nat}
    (success : db.requestCancellation jobId userId = .ok (count, after))
    (found : count ≠ 0) : ∃ job, after.job? jobId = some job ∧ job.Honours := by
  have run : (Statement.requestCancellation jobId userId).run db =
      .ok (count, after) := success
  have effect := Statement.effect run
  rcases updateJob_eq_ok success with ⟨_, rows, _⟩
  rw [rows, ← Nat.pos_iff_ne_zero, List.countP_pos_iff] at found
  rcases found with ⟨job, member, selected⟩
  simp only [Bool.and_eq_true, decide_eq_true_eq] at selected
  rcases selected with ⟨named, owner, live⟩
  have row : db.job? jobId = some job := named ▸ consistent.job?_eq member
  refine ⟨_, effect.job? row, Or.inl ?_⟩
  simp only [Statement.jobAfter, named, owner, live, decide_true,
    Bool.and_self, if_true]
  refine ⟨trivial, fun completed => ?_⟩
  rw [completed] at live
  cases live

end Step

/-- The request is honoured, and whatever has a result has it from before. -/
def Database.Withholds (jobId : Text) (requested db : Database) : Prop :=
  (∃ job, db.job? jobId = some job ∧ job.Honours) ∧
    ∀ execution ∈ db.executions, execution.jobId = jobId →
      resultful execution.status = true →
        requested.execution? execution.id = some execution

theorem Database.Withholds.step {jobId : Text} {requested db after : Database}
    {statement : Statement} (withholds : requested.Withholds jobId db)
    (consistent : db.Consistent) (required : statement.Required db)
    (effect : statement.Effect db after)
    (calm : statement.Undisturbed db jobId) :
    requested.Withholds jobId after := by
  rcases withholds with ⟨⟨job, found, honours⟩, before⟩
  refine ⟨⟨_, effect.job? found, honours_step effect found honours calm⟩, ?_⟩
  intro execution member owner ends
  rcases mem_executions_after effect member with
    ⟨old, inside, rfl⟩ | ⟨lease, _, rfl⟩
  · rw [executionAfter_jobId] at owner
    have terminal := resultful_before consistent required effect found honours
      calm inside owner ends
    have same := (executionAfter_continues
      (effect.permitted old inside)).frozen terminal
    rw [same] at ends ⊢
    exact before old inside owner ends
  · cases ends

theorem run_withholds {jobId : Text} {requested later : Configuration}
    (sound : Sound discipline Database.Consistent requested)
    (asked : ∃ job, requested.state.job? jobId = some job ∧ job.Honours)
    (run : machine.Run (undisturbed jobId) requested later) :
    requested.state.Withholds jobId later.state := by
  refine Sound.keeps guarantees (requested.state.Withholds jobId) sound ?_ ?_
    run ⟨asked, ?_⟩
  · intro db process statement reply consistent required met withholds
    rcases answer_cases db statement with
      ⟨answer, next, success, equal⟩ | ⟨error, _, equal⟩
    · rw [equal]
      exact withholds.step consistent required (Statement.effect success) met
    · rw [equal]
      exact withholds
  · exact fun _ _ withholds => withholds
  · intro execution member _ _
    exact sound.inv.execution?_eq member

/-! ## A schedule -/

/-- The job is not retried. -/
def notRetried (jobId : Text) :
    Condition Database Statement Statement.Reply Operation
  | _, .executed _ (.retryJob named _) _, _ => named ≠ jobId
  | _, _, _ => True

def unretried (_ : Database) : Statement → Bool
  | .retryJob named _ => named ≠ "job-1"
  | _ => true

theorem unretried_admits : Admits machine unretried (notRetried "job-1") := by
  constructor
  · intro db process statement allowed
    cases statement with
    | retryJob named userId =>
        have other : named ≠ "job-1" := of_decide_eq_true allowed
        exact other
    | _ => trivial
  · intros
    trivial
  · intros
    trivial
  · intros
    trivial

/-- A worker opens an execution, and the user is about to cancel the job. -/
def cancelling : List (Action Operation) :=
  [.call 0 (.createJob "job-1" "user-1"), .advance 0 1,
    .call 1 (.claimJob "job-1"), .advance 1 1,
    .call 2 (.beginExecution uuids "job-1"), .advance 2 9,
    .call 3 (.cancelJob "job-1" "user-1")]

/-- The worker finishes. -/
def finishing : List (Action Operation) :=
  [.call 4 (.finalizeExecution (lease 1 "execution-1" "token-1")
    (result .completed none)), .advance 4 1]

/-- The worker dies, the reaper closes its execution, and another one runs the
job to its end. -/
def reaping : List (Action Operation) :=
  [.crash 2, .wait 360000000, .call 4 .reaperRound, .advance 4 9,
    .call 5 (.claimJob "job-1"), .advance 5 1,
    .call 6 (.beginExecution laterUuids "job-1"), .advance 6 9,
    .call 7 (.finalizeExecution (lease 2 "execution-2" "token-2")
      (result .completed none)), .advance 7 1]

/-- Statements that disturb no request. -/
def calm (_ : Database) : Statement → Bool
  | .retryJob .. => false
  | .reopenJob _ => false
  | .reapAbandonedExecution .. => false
  | .finalizeWithoutFindings .. => false
  | _ => true

theorem calm_admits : Admits machine calm (undisturbed "job-1") := by
  constructor
  · intro db process statement allowed
    cases statement with
    | retryJob | reopenJob | reapAbandonedExecution | finalizeWithoutFindings =>
        cases allowed
    | _ => trivial
  · intros
    trivial
  · intros
    trivial
  · intros
    trivial

/-- The moment at which the request succeeds. -/
def requested : Configuration :=
  ⟨(machine.answer (reached cancelling).state
      (.requestCancellation "job-1" "user-1")).2,
    Function.update (reached cancelling).processes 3 (some (.done (.ok ())))⟩

theorem requested_step :
    machine.Step (reached cancelling)
      (.executed 3 (.requestCancellation "job-1" "user-1") (.ok (1 : Nat)))
      requested := by
  have running : (reached cancelling).processes 3 =
      some (.ask (.requestCancellation "job-1" "user-1") _) := rfl
  have step := Machine.Step.execute running
    (.answered : machine.Executes (reached cancelling).state _ _ _)
  exact step

end Execution

open Execution

/-- Once a request to cancel a job succeeded, no execution of the job ends
with a result in any run that neither retries the job, nor reopens it after
the request was consumed, nor recovers an execution of it. -/
theorem cancellation_kept {config requested later : Configuration}
    {process count : Nat} {jobId userId : Text}
    (reachable : Reachable anyStep config)
    (asked : machine.Step config
      (.executed process (.requestCancellation jobId userId) (.ok count))
      requested)
    (success : count ≠ 0)
    (run : machine.Run (undisturbed jobId) requested later) :
    ∀ execution ∈ later.state.executions, execution.jobId = jobId →
      (execution.status = .completed ∨ execution.status = .partial_) →
        requested.state.execution? execution.id = some execution := by
  have sound : Sound discipline Database.Consistent requested :=
    reachable.sound.step guarantees asked
  have honoured : ∃ job, requested.state.job? jobId = some job ∧
      job.Honours := by
    cases asked with
    | execute running executes =>
        exact honours_requested reachable.sound.inv (Executes.ok executes)
          success
  intro execution member owner ends
  refine (run_withholds sound honoured run).2 execution member owner ?_
  rcases ends with completed | partial_
  · rw [completed]
    rfl
  · rw [partial_]
    rfl

theorem cancellation_kept_finishing :
    (machine.schedule calm requested finishing).state.executions.map
        AuditExecution.status = [.cancelled] ∧
      ∀ execution ∈ (machine.schedule calm requested finishing).state.executions,
        execution.jobId = "job-1" →
          (execution.status = .completed ∨ execution.status = .partial_) →
            requested.state.execution? execution.id = some execution :=
  ⟨by decide +kernel, cancellation_kept (reached_reachable cancelling)
    requested_step (by decide) (calm_admits.schedule requested finishing)⟩

/-- Recovery consumes the request with the execution of a dead worker, and the
next execution of the job completes. -/
theorem reaped_request_lost :
    ¬ ∀ config requested later process (count : Nat) jobId userId,
      Reachable anyStep config →
        machine.Step config
          (.executed process (.requestCancellation jobId userId) (.ok count))
          requested →
        count ≠ 0 → machine.Run (notRetried jobId) requested later →
          ∀ execution ∈ later.state.executions, execution.jobId = jobId →
            (execution.status = .completed ∨ execution.status = .partial_) →
              requested.state.execution? execution.id = some execution := by
  intro kept
  have run := unretried_admits.schedule requested reaping
  have always := kept (reached cancelling) requested _ 3 1 "job-1" "user-1"
    (reached_reachable cancelling) requested_step (by decide) run
  revert always
  decide +kernel

end FireCrow.Orchestrator
