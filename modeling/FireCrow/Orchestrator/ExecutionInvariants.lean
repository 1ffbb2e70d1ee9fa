import FireCrow.Orchestrator.ExecutionEffects

/-!
# Invariants of the execution protocol

What a process relies on while others run: time passes, and executions keep
their identity and are only added.  Under it every statement is issued where
it is required: an attempt number is at most one above the last, and only a
lease that was granted finalizes.
-/

namespace FireCrow.Orchestrator.Execution

open FireCrow.Library FireCrow.Schemas

/-! ## What no statement changes -/

/-- What identifies an execution. -/
structure Identity where
  id : Text
  jobId : Text
  attemptNumber : Nat
  ownerToken : Option Text

def AuditExecution.identity (execution : AuditExecution) : Identity where
  id := execution.id
  jobId := execution.jobId
  attemptNumber := execution.attemptNumber
  ownerToken := execution.ownerToken

@[simp]
theorem executionAfter_identity (db : Database) (statement : Statement)
    (execution : AuditExecution) :
    (statement.executionAfter db execution).identity = execution.identity := by
  cases statement <;> simp only [Statement.executionAfter] <;>
    first | rfl | (split <;> rfl)

@[simp]
theorem executionAfter_id (db : Database) (statement : Statement)
    (execution : AuditExecution) :
    (statement.executionAfter db execution).id = execution.id :=
  congrArg Identity.id (executionAfter_identity db statement execution)

@[simp]
theorem executionAfter_jobId (db : Database) (statement : Statement)
    (execution : AuditExecution) :
    (statement.executionAfter db execution).jobId = execution.jobId :=
  congrArg Identity.jobId (executionAfter_identity db statement execution)

@[simp]
theorem executionAfter_attemptNumber (db : Database) (statement : Statement)
    (execution : AuditExecution) :
    (statement.executionAfter db execution).attemptNumber =
      execution.attemptNumber :=
  congrArg Identity.attemptNumber
    (executionAfter_identity db statement execution)

@[simp]
theorem cleared_id (job : AuditJob) : job.cleared.id = job.id := rfl

@[simp]
theorem closed_id (job : AuditJob) (now : Timestamp) (status : JobStatus)
    (score : Option ℚ) (message : Option Text) :
    (job.closed now status score message).id = job.id := by
  unfold AuditJob.closed
  split <;> rfl

@[simp]
theorem released_id (job : AuditJob) (alone : Bool) :
    (job.released alone).id = job.id := by
  unfold AuditJob.released
  split <;> rfl

@[simp]
theorem jobAfter_id (db : Database) (statement : Statement) (job : AuditJob) :
    (statement.jobAfter db job).id = job.id := by
  cases statement <;> simp only [Statement.jobAfter] <;>
    first | rfl | (repeat' split) <;> simp

/-! ## The discipline -/

/-- Time passes, and executions keep their identity and are only added. -/
structure Database.Precedes (db later : Database) : Prop where
  now : db.now ≤ later.now
  executions : db.executions.map AuditExecution.identity <+:
    later.executions.map AuditExecution.identity

theorem Database.Precedes.refl (db : Database) : db.Precedes db :=
  ⟨le_refl _, List.prefix_refl _⟩

theorem Database.Precedes.trans {first second third : Database}
    (before : first.Precedes second) (after : second.Precedes third) :
    first.Precedes third :=
  ⟨le_trans before.now after.now, before.executions.trans after.executions⟩

/-- What a statement needs that the database does not check. -/
def Statement.Required (db : Database) : Statement → Prop
  | .insertExecution lease =>
      0 < lease.attemptNumber ∧
        lease.attemptNumber ≤ db.lastAttempt lease.jobId + 1
  | .finalizeExecution lease _ => db.Leased lease
  | .finalizeWithoutFindings lease _ _ => db.Leased lease
  | _ => True

/-- The discipline of every process. -/
def discipline : Discipline Database Statement Statement.Reply where
  executes := machine.Executes
  rely := Database.Precedes
  requires := fun db statement => statement.Required db
  rely_refl := Database.Precedes.refl
  rely_trans := Database.Precedes.trans

/-- The attempt numbers of a job, from the identities of the executions. -/
theorem attemptNumbers_eq (db : Database) (jobId : Text) :
    (db.attemptsOf jobId).map AuditExecution.attemptNumber =
      ((db.executions.map AuditExecution.identity).filter
        fun identity => identity.jobId = jobId).map
          Identity.attemptNumber := by
  rw [List.filter_map, List.map_map]
  rfl

theorem foldl_max_le {numbers more : List Nat} (numbersPrefix : numbers <+: more) :
    numbers.foldl max 0 ≤ more.foldl max 0 := by
  have grows : ∀ (start : Nat) (rest : List Nat), start ≤ rest.foldl max start := by
    intro start rest
    induction rest generalizing start with
    | nil => exact le_refl _
    | cons number rest ih => exact (le_max_left _ _).trans (ih _)
  rcases numbersPrefix with ⟨rest, rfl⟩
  rw [List.foldl_append]
  exact grows _ rest

theorem Database.Precedes.lastAttempt_le {db later : Database}
    (precedes : db.Precedes later) (jobId : Text) :
    db.lastAttempt jobId ≤ later.lastAttempt jobId := by
  unfold Database.lastAttempt
  rw [attemptNumbers_eq, attemptNumbers_eq]
  exact foldl_max_le ((precedes.executions.filter _).map _)

theorem leased_iff (db : Database) (lease : ExecutionLease) :
    db.Leased lease ↔
      (⟨lease.executionId, lease.jobId, lease.attemptNumber,
        some lease.ownerToken⟩ : Identity) ∈
          db.executions.map AuditExecution.identity := by
  simp only [Database.Leased, List.mem_map, AuditExecution.identity,
    Identity.mk.injEq]

theorem Database.Precedes.leased {db later : Database}
    (precedes : db.Precedes later) {lease : ExecutionLease}
    (leased : db.Leased lease) : later.Leased lease :=
  (leased_iff later lease).2
    (precedes.executions.subset ((leased_iff db lease).1 leased))

variable {statement : Statement}

theorem Statement.Effect.precedes {db after : Database}
    (effect : statement.Effect db after) : db.Precedes after := by
  constructor
  · exact le_of_eq effect.now.symm
  · rw [effect.executions, List.map_append, List.map_map]
    have same : AuditExecution.identity ∘ statement.executionAfter db =
        AuditExecution.identity :=
      funext fun execution => executionAfter_identity db statement execution
    rw [same]
    exact List.prefix_append _ _

/-! ## Answers -/

/-- A refused statement leaves the database. -/
theorem machine_runs : machine.Runs fun db statement => statement.run db where
  answered {db statement answer after} success := by
    simp [machine, Statement.answer, success]
  refused {db statement error} refused := by
    simp [machine, Statement.answer, refused]
  failed _ := ⟨_, rfl⟩

/-- A statement that is answered had the effect that goes with its answer. -/
theorem Executes.ok {db after : Database} {answer : statement.Answer}
    (executes : machine.Executes db statement (.ok answer) after) :
    statement.run db = .ok (answer, after) :=
  machine_runs.executes executes

/-- A statement succeeds, or it leaves the database. -/
theorem answer_cases (db : Database) (statement : Statement) :
    (∃ answer after, statement.run db = .ok (answer, after) ∧
      machine.answer db statement = (.ok answer, after)) ∨
    ∃ error, statement.run db = .error error ∧
      machine.answer db statement = (.error error, db) :=
  machine_runs.cases db statement

section Programs

variable {guard : Discipline Database Statement Statement.Reply}
  {Result : Type} {db : Database}

/-- A statement, then what follows its answer. -/
theorem query_bind_safe {next : statement.Answer → Task Result}
    (required : ∀ later, guard.rely db later → guard.requires later statement)
    (continued : ∀ later answer after, guard.rely db later →
      guard.executes later statement (.ok answer) after →
        (next answer).Safe guard (fun _ _ => True) after) :
    (query statement >>= next).Safe guard (fun _ _ => True) db := by
  intro later relied
  refine ⟨required later relied, fun reply after executes => ?_⟩
  cases reply with
  | error error => exact fun _ _ => trivial
  | ok answer => exact continued later answer after relied executes

/-- A statement, then what follows its reply. -/
theorem tryQuery_bind_safe {next : statement.Reply → Task Result}
    (required : ∀ later, guard.rely db later → guard.requires later statement)
    (continued : ∀ later reply after, guard.rely db later →
      guard.executes later statement reply after →
        (next reply).Safe guard (fun _ _ => True) after) :
    (tryQuery statement >>= next).Safe guard (fun _ _ => True) db := by
  intro later relied
  exact ⟨required later relied, fun reply after executes =>
    continued later reply after relied executes⟩

end Programs

/-- The statements that any process may issue at any time. -/
def Statement.Free (statement : Statement) : Prop :=
  ∀ db : Database, statement.Required db

theorem Statement.Plain.free (statement : Statement)
    (plain : statement.Plain) : statement.Free := by
  intro db
  cases statement <;> trivial

theorem launch_asks (jobId : Text) (status : Option JobStatus) :
    (launch jobId status).Asks Statement.Free :=
  (launch_plain jobId status).mono Statement.Plain.free

theorem insertAttempt_safe (uuids : Nat → Text) (jobId ownerToken : Text)
    (tries : Nat) (db : Database) :
    (insertAttempt uuids jobId ownerToken tries).Safe discipline
      (fun _ _ => True) db := by
  induction tries generalizing db with
  | zero => exact fun _ _ => trivial
  | succ tries ih =>
      refine query_bind_safe (fun _ _ => trivial) ?_
      intro later next after _ executes
      have read := Executes.ok executes
      simp only [Statement.run, Database.nextAttempt] at read
      split at read
      · cases read
        refine tryQuery_bind_safe ?_ ?_
        · intro last relied
          exact ⟨Nat.succ_pos _,
            Nat.succ_le_succ (Database.Precedes.lastAttempt_le relied jobId)⟩
        · intro last reply after _ _
          cases reply with
          | ok _ => exact fun _ _ => trivial
          | error error =>
              by_cases conflict : error = .database .uniqueViolation
              · simp only [if_pos conflict]
                exact ih after
              · simp only [if_neg conflict]
                exact fun _ _ => trivial
      · cases read

theorem beginExecution_safe (uuids : Nat → Text) (jobId : Text)
    (db : Database) :
    (beginExecution uuids jobId).Safe discipline (fun _ _ => True) db := by
  refine query_bind_safe (fun _ _ => trivial) ?_
  intro _ existing state _ _
  cases existing with
  | some existing => exact fun _ _ => trivial
  | none =>
      refine query_bind_safe (fun _ _ => trivial) ?_
      intro _ status state _ _
      refine Program.Safe.bind
        (Program.Asks.safe (launch_asks jobId status) state)
        (fun _ _ _ => trivial) ?_
      intro state _ _
      exact insertAttempt_safe uuids jobId (uuids 5) 5 state

theorem reapAll_asks (cutoff : Timestamp) (reason : Text)
    (abandoned : List (Text × Text)) (total : Nat) :
    (reapAll cutoff reason abandoned total).Asks Statement.Free := by
  induction abandoned generalizing total with
  | nil => trivial
  | cons row rest ih =>
      exact Program.Asks.bind (query_asks fun _ => trivial).attempt
        fun reaped => ih _

theorem failAll_asks (stuck : List Text) (total : Nat) :
    (failAll stuck total).Asks Statement.Free :=
  (failAll_plain stuck total).mono Statement.Plain.free

theorem sweepZombieJobs_asks : sweepZombieJobs.Asks Statement.Free :=
  Program.Asks.bind (query_asks fun _ => trivial) fun _ =>
    Program.Asks.bind (query_asks fun _ => trivial) fun _ =>
      Program.Asks.bind (reapAll_asks _ _ _ _) fun _ =>
        Program.Asks.bind (query_asks fun _ => trivial) fun _ =>
          failAll_asks _ _

theorem reaperRound_asks : reaperRound.Asks Statement.Free :=
  Program.Asks.bind (query_asks fun _ => trivial) fun _ =>
    Program.Asks.bind (query_asks fun _ => trivial).attempt fun _ =>
      reapAll_asks _ _ _ _

theorem retryJob_asks (jobId userId : Text) :
    (retryJob jobId userId).Asks Statement.Free :=
  (retryJob_plain jobId userId).mono Statement.Plain.free

theorem free_safe {Result : Type} {program : Task Result}
    (asks : program.Asks Statement.Free) (db : Database) :
    program.discard.Safe discipline (fun _ _ => True) db := by
  have free := discard_asks asks
  exact Program.Asks.safe free db

/-- Every operation that may be started is safe. -/
theorem operation_safe {db : Database} {operation : Operation}
    (permitted : operation.permitted db) :
    operation.program.Safe discipline (fun _ _ => True) db := by
  have free : ∀ {statement : Statement}, statement.Free →
      (query statement).discard.Safe discipline (fun _ _ => True) db :=
    fun free => free_safe (query_asks free) db
  have finalizing : ∀ {statement : Statement},
      (∀ later, db.Precedes later → statement.Required later) →
        (query statement).discard.Safe discipline (fun _ _ => True) db :=
    fun required => query_bind_safe required fun _ _ _ _ _ _ _ => trivial
  cases operation with
  | createJob | claimQueued | claimJob => exact free fun _ => trivial
  | beginExecution uuids jobId =>
      exact Program.Safe.bind (beginExecution_safe uuids jobId db)
        (fun _ _ _ => trivial) fun _ _ _ _ _ => trivial
  | bindSnapshot | cancelJob =>
      refine query_bind_safe (fun _ _ => trivial) fun _ updated after _ _ => ?_
      split <;> exact fun _ _ => trivial
  | recordCommit => exact free fun _ => trivial
  | heartbeat => exact free fun _ => trivial
  | retryJob jobId userId =>
      exact Program.Asks.safe (retryJob_asks jobId userId) db
  | reapAbandonedExecution => exact free fun _ => trivial
  | reaperRound => exact free_safe reaperRound_asks db
  | sweepZombieJobs => exact free_safe sweepZombieJobs_asks db
  | failJobIfUnowned => exact free fun _ => trivial
  | finalizeExecution | finalizeWithoutFindings =>
      exact finalizing fun later relied =>
        Database.Precedes.leased relied permitted

/-! ## Consistency -/

/-- What the tables of jobs and executions satisfy in every run. -/
structure Database.Consistent (db : Database) : Prop where
  jobIds : (db.jobs.map AuditJob.id).Nodup
  executionIds : (db.executions.map AuditExecution.id).Nodup
  known : ∀ execution ∈ db.executions,
    execution.jobId ∈ db.jobs.map AuditJob.id
  attempts : ∀ jobId,
    (db.attemptsOf jobId).map AuditExecution.attemptNumber =
      List.range' 1 (db.attemptsOf jobId).length
  latestRuns : ∀ jobId, ∀ execution ∈ db.attemptsOf jobId,
    execution.status = .running →
      (db.attemptsOf jobId).getLast? = some execution
  scored : ∀ job ∈ db.jobs, job.securityScore ≠ none → job.status = .completed

theorem foldl_max_range' (count : Nat) :
    (List.range' 1 count).foldl max 0 = count := by
  induction count with
  | zero => rfl
  | succ count ih =>
      rw [List.range'_1_concat, List.foldl_append, ih]
      simp [Nat.add_comm]

theorem Database.Consistent.lastAttempt_eq {db : Database}
    (consistent : db.Consistent) (jobId : Text) :
    db.lastAttempt jobId = (db.attemptsOf jobId).length := by
  unfold Database.lastAttempt
  rw [consistent.attempts, foldl_max_range']

/-- A statement never revives an execution. -/
theorem running_before {db : Database} {execution : AuditExecution}
    (permitted : statement.executionAfter db execution = execution ∨
      execution.permits (statement.executionAfter db execution) = true)
    (running : (statement.executionAfter db execution).status = .running) :
    execution.status = .running := by
  rcases permitted with same | permitted
  · rwa [same] at running
  · simp only [AuditExecution.permits, Bool.and_eq_true,
      decide_eq_true_eq] at permitted
    exact permitted.1.1

/-- The executions of a job after a statement. -/
theorem Statement.Effect.attemptsOf {db after : Database}
    (effect : statement.Effect db after) (jobId : Text) :
    after.attemptsOf jobId =
      (db.attemptsOf jobId).map (statement.executionAfter db) ++
        (statement.newExecutions db).filter
          fun execution => execution.jobId = jobId := by
  unfold Database.attemptsOf
  rw [effect.executions, List.filter_append, List.filter_map]
  congr 2
  refine List.filter_congr fun execution _ => ?_
  simp only [Function.comp_apply, executionAfter_jobId]

theorem mem_attemptsOf {db : Database} {jobId : Text}
    {execution : AuditExecution} :
    execution ∈ db.attemptsOf jobId ↔
      execution ∈ db.executions ∧ execution.jobId = jobId := by
  simp [Database.attemptsOf]

/-- The executions that a statement opens. -/
theorem newExecutions_cases (db : Database) (statement : Statement) :
    statement.newExecutions db = [] ∨
      ∃ lease, statement = .insertExecution lease := by
  cases statement with
  | insertExecution lease => exact Or.inr ⟨lease, rfl⟩
  | _ => exact Or.inl rfl

section Step

variable {db after : Database} {statement : Statement}

theorem jobIds_step (consistent : db.Consistent)
    (effect : statement.Effect db after) :
    (after.jobs.map AuditJob.id).Nodup := by
  have old : (db.jobs.map (statement.jobAfter db)).map AuditJob.id =
      db.jobs.map AuditJob.id := by
    rw [List.map_map]
    exact List.map_congr_left fun job _ => jobAfter_id db statement job
  rw [effect.jobs, List.map_append, old]
  cases statement with
  | createJob jobId userId =>
      have added : ((db.jobs ++ [db.newJob jobId userId]).map AuditJob.id).Nodup :=
        nodup_keys_append consistent.jobIds fun job inside same =>
          List.find?_eq_none.1 effect.admitted job inside (decide_eq_true same)
      rwa [List.map_append] at added
  | _ => simpa [Statement.newJobs] using consistent.jobIds

theorem executionIds_step (consistent : db.Consistent)
    (effect : statement.Effect db after) :
    (after.executions.map AuditExecution.id).Nodup := by
  have old : (db.executions.map (statement.executionAfter db)).map
      AuditExecution.id = db.executions.map AuditExecution.id := by
    rw [List.map_map]
    exact List.map_congr_left fun execution _ =>
      executionAfter_id db statement execution
  rw [effect.executions, List.map_append, old]
  rcases newExecutions_cases db statement with none | ⟨lease, rfl⟩
  · rw [none]
    simpa using consistent.executionIds
  · refine List.nodup_append.2
      ⟨consistent.executionIds, List.nodup_singleton _, ?_⟩
    rintro name member _ new rfl
    simp only [Statement.newExecutions, List.map_cons, List.map_nil,
      List.mem_singleton] at new
    rcases List.mem_map.1 member with ⟨execution, inside, rfl⟩
    exact (effect.admitted.2 execution inside).1 new

theorem jobIds_subset (effect : statement.Effect db after) :
    db.jobs.map AuditJob.id ⊆ after.jobs.map AuditJob.id := by
  rw [effect.jobs, List.map_append, List.map_map]
  intro name member
  refine List.mem_append_left _ ?_
  have same : AuditJob.id ∘ statement.jobAfter db = AuditJob.id :=
    funext fun job => jobAfter_id db statement job
  rwa [same]

theorem known_step (consistent : db.Consistent)
    (effect : statement.Effect db after) :
    ∀ execution ∈ after.executions,
      execution.jobId ∈ after.jobs.map AuditJob.id := by
  intro execution member
  rw [effect.executions] at member
  rcases List.mem_append.1 member with old | new
  · rcases List.mem_map.1 old with ⟨before, inside, rfl⟩
    rw [executionAfter_jobId]
    exact jobIds_subset effect (consistent.known before inside)
  · rcases newExecutions_cases db statement with none | ⟨lease, rfl⟩
    · rw [none] at new
      cases new
    · simp only [Statement.newExecutions, List.mem_singleton] at new
      subst new
      rcases effect.admitted.1 with ⟨job, found⟩
      refine jobIds_subset effect (List.mem_map.2 ⟨job, ?_, ?_⟩)
      · exact List.mem_of_find?_eq_some found
      · simpa [Database.newExecution] using List.find?_some found

theorem attempts_step (consistent : db.Consistent)
    (required : statement.Required db) (effect : statement.Effect db after)
    (jobId : Text) :
    (after.attemptsOf jobId).map AuditExecution.attemptNumber =
      List.range' 1 (after.attemptsOf jobId).length := by
  have old : ((db.attemptsOf jobId).map (statement.executionAfter db)).map
      AuditExecution.attemptNumber =
        List.range' 1 (db.attemptsOf jobId).length := by
    rw [List.map_map, ← consistent.attempts jobId]
    exact List.map_congr_left fun execution _ =>
      executionAfter_attemptNumber db statement execution
  rw [effect.attemptsOf, List.map_append, old, List.length_append,
    List.length_map]
  rcases newExecutions_cases db statement with none | ⟨lease, rfl⟩
  · rw [none]
    simp
  · by_cases same : lease.jobId = jobId
    · subst same
      have bound := required.2
      rw [consistent.lastAttempt_eq] at bound
      have fresh : lease.attemptNumber ∉
          List.range' 1 (db.attemptsOf lease.jobId).length := by
        rw [← consistent.attempts, List.mem_map]
        rintro ⟨execution, member, equal⟩
        rw [mem_attemptsOf] at member
        exact ((effect.admitted.2 execution member.1).2 member.2).1 equal
      have next : lease.attemptNumber =
          (db.attemptsOf lease.jobId).length + 1 := by
        rw [List.mem_range'_1] at fresh
        have positive := required.1
        omega
      simp only [Statement.newExecutions, Database.newExecution,
        List.filter_cons, decide_true, if_true, List.filter_nil, List.map_cons,
        List.map_nil, List.length_cons, List.length_nil, next]
      rw [List.range'_1_concat, Nat.add_comm 1]
    · simp [Statement.newExecutions, Database.newExecution, same]

theorem latestRuns_step (consistent : db.Consistent)
    (effect : statement.Effect db after) (jobId : Text) :
    ∀ execution ∈ after.attemptsOf jobId, execution.status = .running →
      (after.attemptsOf jobId).getLast? = some execution := by
  have kept : ∀ execution ∈ db.attemptsOf jobId,
      (statement.executionAfter db execution).status = .running →
        execution.status = .running := by
    intro execution member
    exact running_before (effect.permitted execution (mem_attemptsOf.1 member).1)
  have unchanged : ∀ execution ∈
      (db.attemptsOf jobId).map (statement.executionAfter db),
      execution.status = .running →
        ((db.attemptsOf jobId).map (statement.executionAfter db)).getLast? =
          some execution := by
    intro execution member running
    rcases List.mem_map.1 member with ⟨before, inside, rfl⟩
    have last := consistent.latestRuns jobId before inside
      (kept before inside running)
    rw [List.getLast?_map, last, Option.map_some]
  rw [effect.attemptsOf]
  rcases newExecutions_cases db statement with none | ⟨lease, rfl⟩
  · rw [none, List.filter_nil, List.append_nil]
    exact unchanged
  · by_cases same : lease.jobId = jobId
    · subst same
      simp only [Statement.newExecutions, Database.newExecution,
        List.filter_cons, decide_true, if_true, List.filter_nil,
        List.getLast?_append, List.getLast?_singleton, Option.some_or]
      intro execution member running
      rcases List.mem_append.1 member with old | new
      · rcases List.mem_map.1 old with ⟨before, inside, rfl⟩
        have none := mem_attemptsOf.1 inside
        exact absurd (kept before inside running)
          ((effect.admitted.2 before none.1).2 none.2).2
      · rw [List.mem_singleton.1 new]
    · simpa [Statement.newExecutions, Database.newExecution, same] using unchanged

/-- Only a status that closes as completed comes with a score. -/
theorem finalScore_ne_none {flag complete : Bool} {status : JobStatus}
    {score : Option ℚ} (scored : finalScore flag complete status score ≠ none) :
    finalStatus flag status = .completed := by
  unfold finalScore at scored
  split at scored
  · rename_i both
    exact both.2
  · exact absurd rfl scored

/-- The score of a job is kept, or a finalization that completes writes it. -/
theorem jobAfter_score (db : Database) (statement : Statement) (job : AuditJob) :
    (statement.jobAfter db job).securityScore = job.securityScore ∨
      (statement.jobAfter db job).securityScore = none ∨
      ∃ lease finalization,
        statement = .finalizeExecution lease finalization ∧
          job.id = lease.jobId ∧
          (statement.jobAfter db job).status = .completed ∧
          (statement.jobAfter db job).securityScore =
            finalScore (db.cancelled lease.jobId) finalization.coverageComplete
              finalization.jobStatus finalization.securityScore := by
  cases statement with
  | finalizeExecution lease finalization =>
      simp only [Statement.jobAfter]
      split
      · rename_i named
        unfold AuditJob.closed
        have status : (if db.cancelled lease.jobId then job.cleared
            else job).status = job.status := by split <;> rfl
        have score : (if db.cancelled lease.jobId then job.cleared
            else job).securityScore = job.securityScore := by split <;> rfl
        rw [status]
        split
        · by_cases none : finalScore (db.cancelled lease.jobId)
              finalization.coverageComplete finalization.jobStatus
              finalization.securityScore = none
          · exact Or.inr (Or.inl none)
          · exact Or.inr (Or.inr ⟨lease, finalization, rfl, named,
              finalScore_ne_none none, rfl⟩)
        · exact Or.inl score
      · exact Or.inl rfl
  | finalizeWithoutFindings lease status reason =>
      simp only [Statement.jobAfter]
      split
      · unfold AuditJob.closed
        split
        · exact Or.inr (Or.inl rfl)
        · exact Or.inl rfl
      · exact Or.inl rfl
  | reapAbandonedExecution executionId staleBefore reason =>
      simp only [Statement.jobAfter]
      split
      · exact Or.inl rfl
      · split
        · unfold AuditJob.released
          split <;> exact Or.inl rfl
        · exact Or.inl rfl
  | claimQueued skipped =>
      simp only [Statement.jobAfter]
      split
      · exact Or.inl rfl
      · split <;> exact Or.inl rfl
  | _ =>
      first
        | exact Or.inl rfl
        | (simp only [Statement.jobAfter]; split <;> exact Or.inl rfl)

theorem completed_stays {status : JobStatus}
    (guarded : lifecycleGuard .completed status = true) :
    status = .completed := by
  cases status <;> simp [lifecycleGuard] at guarded ⊢

theorem scored_step (consistent : db.Consistent)
    (effect : statement.Effect db after) :
    ∀ job ∈ after.jobs, job.securityScore ≠ none → job.status = .completed := by
  intro job member scored
  rw [effect.jobs] at member
  rcases List.mem_append.1 member with old | new
  · rcases List.mem_map.1 old with ⟨before, inside, rfl⟩
    rcases jobAfter_score db statement before with kept | none | written
    · rw [kept] at scored
      have completed := consistent.scored before inside scored
      have guarded := effect.lifecycle before inside
      rw [completed] at guarded
      exact completed_stays guarded
    · exact absurd none scored
    · rcases written with ⟨_, _, _, _, completed, _⟩
      exact completed
  · cases statement with
    | createJob jobId userId =>
        simp only [Statement.newJobs, List.mem_singleton] at new
        rw [new] at scored
        exact absurd rfl scored
    | _ => cases new

/-- A statement that is required keeps the tables consistent. -/
theorem Database.Consistent.step (consistent : db.Consistent)
    (required : statement.Required db) (effect : statement.Effect db after) :
    after.Consistent where
  jobIds := jobIds_step consistent effect
  executionIds := executionIds_step consistent effect
  known := known_step consistent effect
  attempts := attempts_step consistent required effect
  latestRuns := latestRuns_step consistent effect
  scored := scored_step consistent effect

end Step

theorem guarantees :
    Guarantees machine discipline Database.Consistent where
  executes := fun executes => executes
  operation := fun _ permitted => operation_safe permitted
  statement := by
    intro db statement consistent required
    rcases answer_cases db statement with
      ⟨answer, after, success, equal⟩ | ⟨error, _, equal⟩
    · rw [equal]
      have effect := Statement.effect success
      exact ⟨consistent.step required effect, effect.precedes⟩
    · rw [equal]
      exact ⟨consistent, Database.Precedes.refl db⟩
  time := by
    intro db duration consistent
    refine ⟨?_, ?_, ?_⟩
    · exact ⟨consistent.jobIds, consistent.executionIds, consistent.known,
        consistent.attempts, consistent.latestRuns, consistent.scored⟩
    · exact Int.le_add_of_nonneg_right (Int.natCast_nonneg duration)
    · exact List.prefix_refl _

theorem sound_start : Sound discipline Database.Consistent start where
  inv := by
    constructor <;> simp [start, Database.attemptsOf]
  safe := by
    intro process program running
    cases running

/-- Every configuration of a run is consistent, and every process is safe. -/
theorem Reachable.sound
    {condition : Condition Database Statement Statement.Reply Operation}
    {config : Configuration} (reachable : Reachable condition config) :
    Sound discipline Database.Consistent config :=
  sound_start.run guarantees reachable

end FireCrow.Orchestrator.Execution
