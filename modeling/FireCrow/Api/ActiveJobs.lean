import FireCrow.Api.GateInvariants

/-!
# The cap on active jobs

The gate keeps the queued and running jobs of a user, together with the jobs
that open transactions may still insert, within the cap.  Claims, executions,
recovery and finalizations make no job active.  A retry and the reopening of
a terminal job do, and neither takes the lock or looks at the cap.
-/

namespace FireCrow.Api

open FireCrow.Library FireCrow.Schemas FireCrow.Orchestrator.Execution

variable {maxActive : Int} {state : Submissions}

/-- The transactions of a user that have passed the gate and may insert. -/
def pendingJobs (maxActive : Int) (state : Submissions) (userId : Text) : Nat :=
  state.gates.countP fun gate => gate.userId = userId && gate.passed maxActive

/-- Active jobs and those about to be inserted are within the cap. -/
def Submissions.Capped (maxActive : Int) (state : Submissions) : Prop :=
  ∀ userId, ((activeJobs state.db userId + pendingJobs maxActive state userId :
    Nat) : Int) ≤ maxActive

/-- A terminal job may become active: the jobs of its user, with those about
to be inserted, are fewer than the cap. -/
def Submissions.Room (maxActive : Int) (state : Submissions) (jobId : Text) :
    Prop :=
  ∀ job ∈ state.db.jobs, job.id = jobId →
    Database.reopenable job.status = true →
      ((activeJobs state.db job.userId +
        pendingJobs maxActive state job.userId : Nat) : Int) < maxActive

/-- Retries and reopenings find room below the cap. -/
def Roomy (maxActiveJobs : Int) :
    Condition Submissions GateStatement GateStatement.Reply GateOperation
  | state, .executed _ (.shared (.retryJob jobId _)) _, _ =>
      state.Room (max maxActiveJobs 1) jobId
  | state, .executed _ (.shared (.reopenJob jobId)) _, _ =>
      state.Room (max maxActiveJobs 1) jobId
  | _, _, _ => True

/-! ## What makes a job active -/

/-- The statement may make this terminal job active. -/
def Statement.Revives : Statement → Text → Prop
  | .retryJob jobId _, named => jobId = named
  | .reopenJob jobId, named => jobId = named
  | _, _ => False

/-- A status that becomes live was live, or it was one that may be reopened
and becomes queued. -/
theorem revived_of_lifecycle {old new : JobStatus}
    (permitted : lifecycleGuard old new = true)
    (lives : Database.live new = true) (dead : Database.live old = false) :
    Database.reopenable old = true ∧ new = .queued := by
  revert permitted lives dead
  cases old <;> cases new <;> decide

@[simp]
theorem cleared_userId (job : AuditJob) : job.cleared.userId = job.userId := rfl

@[simp]
theorem closed_userId (job : AuditJob) (now : Timestamp) (status : JobStatus)
    (score : Option ℚ) (message : Option Text) :
    (job.closed now status score message).userId = job.userId := by
  unfold AuditJob.closed
  split <;> rfl

@[simp]
theorem released_userId (job : AuditJob) (alone : Bool) :
    (job.released alone).userId = job.userId := by
  unfold AuditJob.released
  split <;> rfl

@[simp]
theorem jobAfter_userId (db : Database) (statement : Statement)
    (job : AuditJob) : (statement.jobAfter db job).userId = job.userId := by
  cases statement <;> simp only [Statement.jobAfter] <;>
    first | rfl | (repeat' split) <;> simp

variable {job : AuditJob}

theorem closed_moved {base : AuditJob} {now : Timestamp}
    {status : JobStatus} {score : Option ℚ} {message : Option Text}
    (queued : (base.closed now status score message).status = .queued)
    (moved : (base.closed now status score message).status ≠ job.status)
    (same : base.status = job.status) : status = .queued := by
  unfold AuditJob.closed at queued moved
  split at queued
  · exact queued
  · rename_i kept
    rw [if_neg kept] at moved
    exact absurd same moved

variable {db after : Database}

/-- The table refuses `queued` as the status of an execution, so no execution
is finalized with it. -/
theorem finalized_not_queued {statement : Statement}
    {lease : ExecutionLease} {status : JobStatus}
    (effect : statement.Effect db after)
    (leased : ∃ execution, db.execution? lease.executionId = some execution ∧
      execution.ownerToken = some lease.ownerToken ∧
      execution.status = .running)
    (closes : ∀ execution : AuditExecution,
      execution.id = lease.executionId →
        execution.ownerToken = some lease.ownerToken →
          execution.status = .running →
            (statement.executionAfter db execution).status = status) :
    status ≠ .queued := by
  rintro rfl
  rcases leased with ⟨execution, found, token, running⟩
  have inside := List.mem_of_find?_eq_some found
  have named : execution.id = lease.executionId := by
    simpa using List.find?_some found
  have closed := closes execution named token running
  rcases effect.permitted execution inside with same | permitted
  · rw [same, running] at closed
    cases closed
  · simp [AuditExecution.permits, closed] at permitted

theorem not_queued_of_moved {changed : AuditJob} {condition : Prop}
    [Decidable condition]
    (queued : (if condition then changed else job).status = .queued)
    (moved : (if condition then changed else job).status ≠ job.status)
    (other : changed.status ≠ .queued) : False := by
  split at queued
  · exact other queued
  · rename_i same
    exact moved (by rw [if_neg same])

/-- Only a retry and a reopening make a terminal job active. -/
theorem dead_after {statement : Statement} (effect : statement.Effect db after)
    (member : job ∈ db.jobs)
    (quiet : Database.reopenable job.status = true →
      ¬ Statement.Revives statement job.id)
    (dead : Database.live job.status = false) :
    Database.live (statement.jobAfter db job).status = false := by
  cases lives : Database.live (statement.jobAfter db job).status with
  | false => rfl
  | true =>
      exfalso
      have permitted := effect.lifecycle job member
      rcases revived_of_lifecycle permitted lives dead with ⟨terminal, queued⟩
      have moved : (statement.jobAfter db job).status ≠ job.status := by
        intro same
        rw [same, dead] at lives
        cases lives
      cases statement with
      | claimQueued skipped =>
          simp only [Statement.jobAfter] at queued moved
          cases oldest : db.oldestQueued skipped with
          | none =>
              rw [oldest] at moved
              exact moved rfl
          | some claimed =>
              rw [oldest] at queued moved
              dsimp only at queued moved
              split at queued
              · cases queued
              · rename_i other
                exact moved (by rw [if_neg other])
      | claimJob | launchJob | failStuckJob =>
          exact not_queued_of_moved queued moved (by simp)
      | reopenJob jobId =>
          apply moved
          simp only [Statement.jobAfter]
          rw [if_neg fun named => quiet terminal named.symm]
      | recordCommit | requestCancellation =>
          apply moved
          simp only [Statement.jobAfter]
          split <;> rfl
      | retryJob jobId userId =>
          apply moved
          have other : job.id ≠ jobId :=
            fun named => quiet terminal named.symm
          simp [Statement.jobAfter, other]
      | failJobIfUnowned jobId reason =>
          exact not_queued_of_moved queued moved (by simp)
      | reapAbandonedExecution executionId staleBefore reason =>
          have idle : job.status ≠ .running := by
            intro running
            rw [running] at dead
            cases dead
          apply moved
          simp only [Statement.jobAfter]
          split
          · rfl
          · split
            · simp [AuditJob.released, idle, AuditJob.cleared]
            · rfl
      | finalizeExecution lease finalization =>
          have final := finalized_not_queued effect effect.admitted.2
            (fun execution named token running => by
              simp [Statement.executionAfter, named, token, running]; rfl)
          simp only [Statement.jobAfter] at queued moved
          split at queued
          · rename_i named
            rw [if_pos named] at moved
            refine final (closed_moved queued moved ?_)
            split <;> rfl
          · rename_i other
            exact moved (by rw [if_neg other])
      | finalizeWithoutFindings lease status reason =>
          have final := finalized_not_queued effect effect.admitted
            (fun execution named token running => by
              simp [Statement.executionAfter, named, token, running]; rfl)
          simp only [Statement.jobAfter] at queued moved
          split at queued
          · rename_i named
            rw [if_pos named] at moved
            exact final (closed_moved queued moved rfl)
          · rename_i other
            exact moved (by rw [if_neg other])
      | _ => exact moved rfl

/-! ## Counting -/

theorem activeJobs_shared {statement : Statement}
    (other : ¬ Statement.Creates statement)
    (effect : statement.Effect db after) (userId : Text) :
    activeJobs after userId = db.jobs.countP fun job =>
      job.userId = userId && Database.live (statement.jobAfter db job).status := by
  unfold activeJobs
  rw [effect.jobs, newJobs_of_not_creates other, List.append_nil,
    List.countP_map]
  apply List.countP_congr
  intro job _
  simp

theorem activeJobs_le {statement : Statement}
    (other : ¬ Statement.Creates statement)
    (effect : statement.Effect db after) (userId : Text)
    (quiet : ∀ job ∈ db.jobs, job.userId = userId →
      Database.reopenable job.status = true →
        ¬ Statement.Revives statement job.id) :
    activeJobs after userId ≤ activeJobs db userId := by
  rw [activeJobs_shared other effect]
  apply List.countP_mono_left
  intro job member active
  simp only [Bool.and_eq_true, decide_eq_true_eq] at active ⊢
  refine ⟨active.1, ?_⟩
  cases dead : Database.live job.status with
  | true => rfl
  | false =>
      have stays := dead_after effect member (quiet job member active.1) dead
      rw [active.2] at stays
      cases stays

theorem activeJobs_le_succ {statement : Statement}
    (ids : (db.jobs.map AuditJob.id).Nodup)
    (other : ¬ Statement.Creates statement)
    (effect : statement.Effect db after) (userId : Text) {jobId : Text}
    (revives : ∀ named, Statement.Revives statement named → named = jobId) :
    activeJobs after userId ≤ activeJobs db userId + 1 := by
  have one : db.jobs.countP (fun job => job.id = jobId) ≤ 1 :=
    Table.countP_key_le_one ids jobId
  have split : activeJobs after userId ≤
      db.jobs.countP (fun job => (job.userId = userId &&
        Database.live job.status) || job.id = jobId) := by
    rw [activeJobs_shared other effect]
    apply List.countP_mono_left
    intro job member active
    simp only [Bool.and_eq_true, Bool.or_eq_true, decide_eq_true_eq] at active ⊢
    by_cases named : job.id = jobId
    · exact .inr named
    · refine .inl ⟨active.1, ?_⟩
      cases dead : Database.live job.status with
      | true => rfl
      | false =>
          have stays := dead_after effect member
            (fun _ revived => named (revives _ revived)) dead
          rw [active.2] at stays
          cases stays
  exact (split.trans (Table.countP_or_le _ _ _)).trans
    (Nat.add_le_add_left one _)

/-! ## The cap is kept -/

theorem pendingJobs_release_le (maxActive : Int) (state : Submissions)
    (transaction : Nat) (userId : Text) :
    pendingJobs maxActive (state.release transaction) userId ≤
      pendingJobs maxActive state userId :=
  List.filter_sublist.countP_le

section

variable (capped : state.Capped maxActive)
include capped

theorem Submissions.Capped.release
    (transaction : Nat) : (state.release transaction).Capped maxActive := by
  intro userId
  have before := capped userId
  have fewer := pendingJobs_release_le maxActive state transaction userId
  show ((activeJobs state.db userId +
    pendingJobs maxActive (state.release transaction) userId : Nat) : Int) ≤ _
  omega

/-- A statement of another process keeps the cap where it finds room. -/
theorem Submissions.Capped.shared {statement : Statement}
    (ids : (state.db.jobs.map AuditJob.id).Nodup)
    (other : ¬ Statement.Creates statement)
    (room : ∀ jobId, Statement.Revives statement jobId →
      state.Room maxActive jobId)
    (effect : statement.Effect state.db db) :
    ({ state with db := db } : Submissions).Capped maxActive := by
  intro userId
  have before := capped userId
  show ((activeJobs db userId + pendingJobs maxActive state userId : Nat) :
    Int) ≤ maxActive
  by_cases revived : ∃ job ∈ state.db.jobs, job.userId = userId ∧
      Database.reopenable job.status = true ∧
        Statement.Revives statement job.id
  · rcases revived with ⟨job, member, rfl, terminal, revives⟩
    have free := room job.id revives job member rfl terminal
    have one : activeJobs db job.userId ≤
        activeJobs state.db job.userId + 1 := by
      apply activeJobs_le_succ ids other effect
      intro named also
      cases statement <;> first | exact also.symm.trans revives | cases also
    omega
  · have fewer : activeJobs db userId ≤ activeJobs state.db userId := by
      apply activeJobs_le other effect
      exact fun job member owned terminal revives =>
        revived ⟨job, member, owned, terminal, revives⟩
    omega

theorem Submissions.Capped.opened
    (transaction : Nat) (userId : Text) :
    ({ state with
      gates := state.gates ++ [⟨transaction, userId, []⟩]
      nextTransaction := transaction + 1 } : Submissions).Capped maxActive := by
  intro other
  have before := capped other
  have same : (state.gates ++ [(⟨transaction, userId, []⟩ : Gate)]).countP
      (fun gate => gate.userId = other && gate.passed maxActive) =
        pendingJobs maxActive state other := by
    rw [List.countP_append]
    simp [Gate.passed, pendingJobs]
  show ((activeJobs state.db other + List.countP _ _ : Nat) : Int) ≤ _
  rw [same]
  exact before

/-- A count below the cap leaves room for one job, which the holder of the
lock alone may insert. -/
theorem Submissions.Capped.counted
    (regular : state.Regular maxActive) {transaction : Nat} {gate : Gate}
    (found : state.gate? transaction = some gate) :
    ({ state with
      gates := Table.set (fun gate => gate.transaction = transaction)
        (fun other => { other with
          counts := activeJobs state.db gate.userId :: other.counts })
        state.gates } : Submissions).Capped maxActive := by
  rcases gate?_mem found with ⟨member, named⟩
  intro userId
  have before := capped userId
  let count := activeJobs state.db gate.userId
  let later := Table.set (fun gate => gate.transaction = transaction)
    (fun other : Gate => { other with counts := count :: other.counts })
    state.gates
  have only : ∀ other ∈ state.gates, other.transaction = transaction →
      other = gate := fun other inside same =>
    List.inj_on_of_nodup_map regular.transactions inside member
      (same.trans named.symm)
  show ((activeJobs state.db userId + later.countP _ : Nat) : Int) ≤ maxActive
  by_cases room : userId = gate.userId ∧ (count : Int) < maxActive
  · rcases room with ⟨rfl, below⟩
    have one : later.countP (fun other =>
        decide (other.userId = gate.userId) && other.passed maxActive) ≤ 1 := by
      have holders : (later.map Gate.userId).Nodup := by
        rw [gates_counted _ _ _ Gate.userId fun _ => rfl]
        exact regular.holders
      refine (List.countP_mono_left fun other _ passed => ?_).trans
        (Table.countP_key_le_one holders gate.userId)
      exact (Bool.and_eq_true _ _ ▸ passed).1
    have active : activeJobs state.db gate.userId = count := rfl
    omega
  · have same : later.countP (fun gate => decide (gate.userId = userId) &&
        gate.passed maxActive) ≤ pendingJobs maxActive state userId := by
      unfold pendingJobs
      show (state.gates.map _).countP _ ≤ _
      rw [List.countP_map]
      apply List.countP_mono_left
      intro other inside passed
      simp only [Function.comp_apply] at passed
      split at passed
      · rename_i mine
        rcases only other inside (of_decide_eq_true mine) with rfl
        simp only [Gate.passed, List.any_cons, Bool.and_eq_true,
          Bool.or_eq_true, decide_eq_true_eq] at passed ⊢
        rcases passed with ⟨owner, below | earlier⟩
        · exact absurd ⟨owner.symm, below⟩ room
        · exact ⟨owner, earlier⟩
      · exact passed
    omega

/-- The insert uses the room of its transaction. -/
theorem Submissions.Capped.inserted
    (regular : state.Regular maxActive) {transaction : Nat} {gate : Gate}
    (found : state.gate? transaction = some gate)
    (passed : gate.passed maxActive = true) {jobId : Text}
    (insert : state.db.insertJob jobId gate.userId = .ok ((), db))
    (attributions : List Attribution) :
    ({ state.release transaction with
      db := db
      attributions := attributions } : Submissions).Capped maxActive := by
  rcases gate?_mem found with ⟨member, named⟩
  have jobs := (insertJob_jobs insert).2
  intro userId
  have before := capped userId
  have fewer := pendingJobs_release_le maxActive state transaction userId
  have active : activeJobs db userId = activeJobs state.db userId +
      if gate.userId = userId then 1 else 0 := by
    unfold activeJobs
    rw [jobs, List.countP_append, List.countP_singleton]
    by_cases owned : gate.userId = userId <;>
      simp [Database.newJob, Database.live, owned]
  show ((activeJobs db userId +
    pendingJobs maxActive (state.release transaction) userId : Nat) : Int) ≤ _
  by_cases owner : gate.userId = userId
  · subst owner
    rw [if_pos rfl] at active
    have none : pendingJobs maxActive (state.release transaction)
        gate.userId = 0 := by
      apply List.countP_eq_zero.2
      intro other inside pending
      simp only [Bool.and_eq_true, decide_eq_true_eq] at pending
      rcases List.mem_filter.1 inside with ⟨held, apart⟩
      have same := List.inj_on_of_nodup_map regular.holders held member
        pending.1
      rw [same] at apart
      exact absurd named (by simpa using apart)
    have some : 0 < pendingJobs maxActive state gate.userId := by
      apply List.countP_pos_iff.2
      exact ⟨gate, member, by simp [passed]⟩
    omega
  · rw [if_neg owner] at active
    omega

theorem Submissions.Capped.step {statement : GateStatement}
    {answer : statement.Answer} {after : Submissions}
    (regular : state.Regular maxActive)
    (required : statement.Required maxActive state)
    (room : ∀ shared jobId, statement = .shared shared →
      Statement.Revives shared jobId → state.Room maxActive jobId)
    (success : statement.run state = .ok (answer, after)) :
    after.Capped maxActive := by
  cases statement with
  | shared statement =>
      rcases shared_eq_ok success with ⟨db, ran, rfl⟩
      exact capped.shared regular.jobIds required
        (fun jobId revives => room statement jobId rfl revives)
        (Statement.effect ran)
  | existingJob => cases success; exact capped
  | openGate userId =>
      rcases openGate_eq_ok success with ⟨_, rfl, rfl⟩
      exact capped.opened state.nextTransaction userId
  | countLive transaction =>
      rcases countLive_eq_ok success with ⟨gate, found, rfl, rfl⟩
      exact capped.counted regular found
  | commit transaction jobId deliveryId =>
      rcases commit_eq_ok success with ⟨gate, found, raced | created⟩
      · rcases raced with ⟨_, _, rfl⟩
        exact capped.release transaction
      · rcases created with ⟨_, _, db, insert, rfl⟩
        rcases gate?_mem found with ⟨member, named⟩
        exact capped.inserted regular found (required gate member named) insert _
  | respond => cases success; exact capped
  | disconnect transaction => cases success; exact capped.release transaction

end

theorem capped_start (maxActiveJobs : Int) :
    gateStart.state.Capped (max maxActiveJobs 1) := by
  intro userId
  show (0 : Int) ≤ max maxActiveJobs 1
  omega

/-- In every run whose retries and reopenings find room below the cap, no user
ever has more active jobs than the cap. -/
theorem active_jobs_capped {maxActiveJobs : Int} {config : GateConfiguration}
    (reachable : GateReachable maxActiveJobs (Roomy maxActiveJobs) config)
    (userId : Text) :
    (activeJobs config.state.db userId : Int) ≤ max maxActiveJobs 1 := by
  have capped : config.state.Capped (max maxActiveJobs 1) := by
    refine Sound.keeps (gateGuarantees maxActiveJobs) _
      (gateStart_sound maxActiveJobs) ?_ ?_ reachable
      (capped_start maxActiveJobs)
    · intro state process statement reply regular required roomy capped
      rcases gate_answer_cases maxActiveJobs state statement with
        ⟨answer, after, success, equal⟩ | ⟨error, _, equal⟩
      · rw [equal]
        refine capped.step regular required ?_ success
        rintro shared jobId rfl revives
        cases shared <;> first | exact revives ▸ roomy | exact revives.elim
      · rw [equal]
        exact capped
    · exact fun duration _ capped => capped
  have within := capped userId
  omega

instance (maxActive : Int) (state : Submissions) (jobId : Text) :
    Decidable (state.Room maxActive jobId) :=
  inferInstanceAs (Decidable (∀ job ∈ state.db.jobs, job.id = jobId →
    Database.reopenable job.status = true →
      ((activeJobs state.db job.userId +
        pendingJobs maxActive state job.userId : Nat) : Int) < maxActive))

/-- A job fails, another is submitted, and the first one is retried. -/
def retriedJob (maxActiveJobs : Int)
    (allows : Submissions → GateStatement → Bool) : GateConfiguration :=
  (gateMachine maxActiveJobs).schedule allows gateStart
    [.call 0 (.submit "job-1" "user-1" none), .advance 0 4,
      .call 1 (.other (.failJobIfUnowned "job-1" "no worker")), .advance 1 1,
      .call 2 (.submit "job-2" "user-1" none), .advance 2 4,
      .call 3 (.other (.retryJob "job-1" "user-1")), .advance 3 3]

/-- Only a retry or a reopening that finds room is let through. -/
def roomAllows (maxActiveJobs : Int) (state : Submissions) :
    GateStatement → Bool
  | .shared (.retryJob jobId _) => state.Room (max maxActiveJobs 1) jobId
  | .shared (.reopenJob jobId) => state.Room (max maxActiveJobs 1) jobId
  | _ => true

theorem retriedJob_roomy (maxActiveJobs : Int) :
    GateReachable maxActiveJobs (Roomy maxActiveJobs)
      (retriedJob maxActiveJobs (roomAllows maxActiveJobs)) := by
  have admits : Admits (gateMachine maxActiveJobs) (roomAllows maxActiveJobs)
      (Roomy maxActiveJobs) := by
    refine ⟨?_, trivial, trivial, fun _ => trivial⟩
    intro state process statement allowed
    cases statement with
    | shared statement =>
        cases statement with
        | retryJob jobId userId | reopenJob jobId =>
            have room : state.Room (max maxActiveJobs 1) jobId :=
              of_decide_eq_true allowed
            exact room
        | _ => trivial
    | _ => trivial
  exact admits.schedule gateStart _

/-- With a cap of two the retry finds room. -/
theorem active_jobs_capped_retriedJob :
    activeJobs (retriedJob 2 (roomAllows 2)).state.db "user-1" = 2 ∧
      (activeJobs (retriedJob 2 (roomAllows 2)).state.db "user-1" : Int) ≤
        max 2 1 :=
  ⟨by decide +kernel, active_jobs_capped (retriedJob_roomy 2) "user-1"⟩

/-- With a cap of one nothing keeps the retry from a second active job. -/
theorem retriedJob_beyond_cap :
    ¬ ∀ maxActiveJobs config, GateReachable maxActiveJobs anyStep config →
      ∀ userId, (activeJobs config.state.db userId : Int) ≤
        max maxActiveJobs 1 := by
  intro capped
  have admits : Admits (gateMachine 1) (fun _ _ => true) anyStep :=
    ⟨fun _ => trivial, trivial, trivial, fun _ => trivial⟩
  have within := capped 1 (retriedJob 1 fun _ _ => true)
    (admits.schedule gateStart _) "user-1"
  have beyond : activeJobs (retriedJob 1 fun _ _ => true).state.db
      "user-1" = 2 := by
    decide +kernel
  rw [beyond] at within
  exact absurd within (by decide)

end FireCrow.Api
