import FireCrow.Orchestrator.ExecutionSafety

/-!
# Recovery of dead workers

A job is quiet while it shows no sign of life: its running executions and its
running row are old ones with their old beat and start.  A sweep that begins
more than five minutes after the last sign of life leaves neither a running
execution of the job nor a running job, whatever the other processes do to
other jobs.

The reaper spares every job with a fresh execution.  The second update of the
sweep does not: it names the jobs that an earlier select found stuck, and
looks at the status of the job only.
-/

namespace FireCrow.Orchestrator

open FireCrow.Library FireCrow.Schemas

namespace Execution

/-! ## Signs of life -/

/-- The job shows no sign of life in between. -/
structure Database.Quiet (jobId : Text) (db later : Database) : Prop where
  now : db.now ≤ later.now
  executions : ∀ execution ∈ later.runningOf jobId,
    ∃ old ∈ db.runningOf jobId, old.id = execution.id ∧
      old.lastBeat = execution.lastBeat
  jobs : ∀ job ∈ later.jobs, job.id = jobId → job.status = .running →
    ∃ old ∈ db.jobs, old.id = jobId ∧ old.status = .running ∧
      old.startedAt = job.startedAt

theorem Database.Quiet.refl (jobId : Text) (db : Database) :
    db.Quiet jobId db where
  now := le_refl _
  executions := fun execution member => ⟨execution, member, rfl, rfl⟩
  jobs := fun job member named running => ⟨job, member, named, running, rfl⟩

variable {jobId : Text}

theorem Database.Quiet.trans {first second third : Database}
    (before : first.Quiet jobId second) (after : second.Quiet jobId third) :
    first.Quiet jobId third where
  now := le_trans before.now after.now
  executions := by
    intro execution member
    rcases after.executions execution member with ⟨middle, inMiddle, id, beat⟩
    rcases before.executions middle inMiddle with ⟨old, inOld, oldId, oldBeat⟩
    exact ⟨old, inOld, oldId.trans id, oldBeat.trans beat⟩
  jobs := by
    intro job member named running
    rcases after.jobs job member named running with
      ⟨middle, inMiddle, middleId, runs, start⟩
    rcases before.jobs middle inMiddle middleId runs with
      ⟨old, inOld, oldId, oldRuns, oldStart⟩
    exact ⟨old, inOld, oldId, oldRuns, oldStart.trans start⟩

/-- Every sign of life of the job is older than the cutoff. -/
structure Database.Stale (jobId : Text) (cutoff : Timestamp) (db : Database) :
    Prop where
  executions : ∀ execution ∈ db.runningOf jobId, execution.lastBeat < cutoff
  jobs : ∀ job ∈ db.jobs, job.id = jobId → job.status = .running →
    ∀ start, job.startedAt = some start → start < cutoff

theorem Database.Stale.later {cutoff : Timestamp}
    {db later : Database} (stale : db.Stale jobId cutoff)
    (quiet : db.Quiet jobId later) : later.Stale jobId cutoff where
  executions := by
    intro execution member
    rcases quiet.executions execution member with ⟨old, inOld, _, beat⟩
    exact beat ▸ stale.executions old inOld
  jobs := by
    intro job member named running start started
    rcases quiet.jobs job member named running with ⟨old, inOld, id, runs, same⟩
    exact stale.jobs old inOld id runs start (same.trans started)

theorem Database.Stale.mono {earlier cutoff : Timestamp}
    {db : Database} (stale : db.Stale jobId earlier) (le : earlier ≤ cutoff) :
    db.Stale jobId cutoff where
  executions := fun execution member =>
    lt_of_lt_of_le (stale.executions execution member) le
  jobs := fun job member named running start started =>
    lt_of_lt_of_le (stale.jobs job member named running start started) le

/-! ## The clock -/

/-- No timestamp lies in the future. -/
structure Database.Stamped (db : Database) : Prop where
  executions : ∀ execution ∈ db.executions, execution.lastBeat ≤ db.now
  jobs : ∀ job ∈ db.jobs, ∀ start, job.startedAt = some start → start ≤ db.now

theorem executionAfter_lastBeat (db : Database) (statement : Statement)
    (execution : AuditExecution) :
    (statement.executionAfter db execution).lastBeat = execution.lastBeat ∨
      (statement.executionAfter db execution).lastBeat = db.now := by
  cases statement <;>
    first
      | exact Or.inl rfl
      | (simp only [Statement.executionAfter]
         split <;> first | exact Or.inl rfl | exact Or.inr rfl)

@[simp]
theorem closed_startedAt (job : AuditJob) (now : Timestamp)
    (status : JobStatus) (score : Option ℚ) (message : Option Text) :
    (job.closed now status score message).startedAt = job.startedAt := by
  unfold AuditJob.closed
  split <;> rfl

@[simp]
theorem released_startedAt (job : AuditJob) (alone : Bool) :
    (job.released alone).startedAt = job.startedAt := by
  unfold AuditJob.released
  split <;> rfl

/-- A start is kept, or it is now. -/
theorem jobAfter_startedAt (db : Database) (statement : Statement)
    (job : AuditJob) :
    (statement.jobAfter db job).startedAt = job.startedAt ∨
      (statement.jobAfter db job).startedAt = some db.now := by
  cases statement with
  | claimQueued skipped =>
      simp only [Statement.jobAfter]
      split
      · exact Or.inl rfl
      · split
        · exact Or.inr rfl
        · exact Or.inl rfl
  | launchJob jobId =>
      simp only [Statement.jobAfter]
      split
      · cases started : job.startedAt with
        | none => exact Or.inr rfl
        | some start => exact Or.inl rfl
      · exact Or.inl rfl
  | reapAbandonedExecution executionId staleBefore reason =>
      simp only [Statement.jobAfter]
      split
      · exact Or.inl rfl
      · split
        · exact Or.inl (released_startedAt _ _)
        · exact Or.inl rfl
  | finalizeExecution lease finalization =>
      simp only [Statement.jobAfter]
      split
      · refine Or.inl ?_
        rw [closed_startedAt]
        split <;> rfl
      · exact Or.inl rfl
  | finalizeWithoutFindings lease status reason =>
      simp only [Statement.jobAfter]
      split
      · exact Or.inl (closed_startedAt _ _ _ _ _)
      · exact Or.inl rfl
  | claimJob jobId =>
      simp only [Statement.jobAfter]
      split
      · exact Or.inr rfl
      · exact Or.inl rfl
  | _ =>
      first
        | exact Or.inl rfl
        | (simp only [Statement.jobAfter]; split <;> exact Or.inl rfl)

theorem Database.Stamped.step {db after : Database} {statement : Statement}
    (stamped : db.Stamped) (effect : statement.Effect db after) :
    after.Stamped where
  executions := by
    intro execution member
    rw [effect.now]
    rcases mem_executions_after effect member with
      ⟨before, inside, rfl⟩ | ⟨lease, _, rfl⟩
    · rcases executionAfter_lastBeat db statement before with same | now
      · rw [same]
        exact stamped.executions before inside
      · rw [now]
    · exact le_refl db.now
  jobs := by
    intro job member start started
    rw [effect.now]
    rcases mem_jobs_after effect member with
      ⟨before, inside, rfl⟩ | ⟨_, _, _, rfl⟩
    · rcases jobAfter_startedAt db statement before with same | now
      · exact stamped.jobs before inside start (same ▸ started)
      · rw [now, Option.some.injEq] at started
        exact le_of_eq started.symm
    · cases started

/-- In every run no timestamp lies in the future. -/
theorem Reachable.stamped
    {condition : Condition Database Statement Statement.Reply Operation}
    {config : Configuration} (reachable : Reachable condition config) :
    config.state.Stamped := by
  refine Sound.keeps guarantees Database.Stamped sound_start ?_ ?_ reachable ?_
  · intro db process statement reply _ _ _ stamped
    rcases answer_cases db statement with
      ⟨answer, next, success, equal⟩ | ⟨error, _, equal⟩
    · rw [equal]
      exact stamped.step (Statement.effect success)
    · rw [equal]
      exact stamped
  · intro db duration _ stamped
    have passes : db.now ≤ db.now + duration :=
      Int.le_add_of_nonneg_right (Int.natCast_nonneg duration)
    exact ⟨fun execution member =>
        le_trans (stamped.executions execution member) passes,
      fun job member start started =>
        le_trans (stamped.jobs job member start started) passes⟩
  · constructor <;> simp [start]

/-! ## Recovery succeeds -/

theorem reapAbandonedExecution_ok (db : Database) (executionId : Text)
    (staleBefore : Timestamp) (reason : Text) :
    ∃ reaped after, db.reapAbandonedExecution executionId staleBefore reason =
      .ok (reaped, after) := by
  unfold Database.reapAbandonedExecution
  split
  · exact ⟨false, db, rfl⟩
  · rename_i found abandoned
    rcases updateExecution_ok db executionId
      (fun execution => execution.status = .running)
      (fun execution =>
        { execution with
          status := .failed
          finishedAt := some db.now
          failureReason := some reason
          heartbeatAt := some db.now })
      (fun execution _ _ running => by
        simpa [AuditExecution.permits] using running) with ⟨_, close⟩
    obtain ⟨closed, closedEq⟩ : ∃ closed : Database, closed = { db with
        executions := db.executions.map fun execution =>
          if execution.id = executionId && execution.status = .running then
            { execution with
              status := .failed
              finishedAt := some db.now
              failureReason := some reason
              heartbeatAt := some db.now }
          else execution } := ⟨_, rfl⟩
    rw [← closedEq] at close
    rcases updateJob_ok closed found.jobId (fun _ => true)
      (fun job =>
        { job with cancelRequested := false, cancelRequestedAt := none })
      (fun job _ _ _ => lifecycleGuard_self job.status) with ⟨_, clear⟩
    have release : ∀ between : Database, ∃ count after,
        between.releaseJob found.jobId = .ok (count, after) := by
      intro between
      unfold Database.releaseJob
      split
      · rcases updateJob_ok between found.jobId
          (fun job => job.status = .running)
          (fun job => { job with status := .queued })
          (fun job _ _ running => by
            simp only [decide_eq_true_eq] at running
            rw [running]
            rfl) with ⟨count, success⟩
        exact ⟨count, _, success⟩
      · exact ⟨0, between, rfl⟩
    rcases release _ with ⟨_, after, released⟩
    refine ⟨true, after, ?_⟩
    simp only [Result.bind_eq_ok]
    exact ⟨(_, closed), close, (_, _), clear, (_, after), released, rfl⟩

theorem failStuckJob_ok (db : Database) (jobId : Text) :
    ∃ count after, db.failStuckJob jobId = .ok (count, after) := by
  rcases updateJob_ok db jobId (fun job => job.status = .running)
    (fun job =>
      { job with
        status := .failed
        finishedAt := some db.now
        errorMessage := some Database.abandonedMessage })
    (fun job _ _ running => by
      simp only [decide_eq_true_eq] at running
      rw [running]
      rfl) with ⟨count, success⟩
  exact ⟨count, _, success⟩

/-! ## One pass of the sweep -/

/-- The statements of the process are answered, and the others show no sign
of life of the job. -/
def sweeping (jobId : Text) : Discipline Database Statement Statement.Reply where
  executes db statement reply after :=
    (reply, after) = machine.answer db statement
  rely := Database.Quiet jobId
  requires _ _ := True
  rely_refl := Database.Quiet.refl jobId
  rely_trans := Database.Quiet.trans

section Sweep

variable {jobId executionId reason : Text} {cutoff : Timestamp}
  {db after : Database}

theorem reap_step {reaped : Bool} (stale : db.Stale jobId cutoff)
    (success : db.reapAbandonedExecution executionId cutoff reason =
      .ok (reaped, after)) :
    (∀ execution ∈ after.runningOf jobId, execution ∈ db.runningOf jobId ∧
      execution.id ≠ executionId) ∧ after.Stale jobId cutoff := by
  have effect := reapAbandonedExecution_effect success
  have running : ∀ execution ∈ after.runningOf jobId,
      execution ∈ db.runningOf jobId ∧ execution.id ≠ executionId := by
    intro execution member
    rcases mem_runningOf_after effect member with
      ⟨before, was, rfl⟩ | ⟨_, different, _⟩
    · rcases mem_runningOf.1 was with ⟨inside, _, runs⟩
      have other : before.id ≠ executionId := by
        intro same
        have found : (db.abandoned? executionId cutoff).isSome = true := by
          unfold Database.abandoned?
          rw [List.find?_isSome]
          exact ⟨before, inside, by
            simp [same, runs, stale.executions before was]⟩
        have failed := (mem_runningOf.1 member).2.2
        simp [Statement.executionAfter, found, same, runs] at failed
      have kept : (Statement.reapAbandonedExecution executionId cutoff
          reason).executionAfter db before = before := by
        simp [Statement.executionAfter, other]
      rw [kept]
      exact ⟨was, other⟩
    · cases different
  refine ⟨running, ?_, ?_⟩
  · exact fun execution member =>
      stale.executions execution (running execution member).1
  · intro job member named runs start started
    rcases mem_jobs_after effect member with
      ⟨before, inside, rfl⟩ | ⟨_, _, different, _⟩
    · rw [jobAfter_id] at named
      have kept : before.status = .running ∧
          ((Statement.reapAbandonedExecution executionId cutoff
            reason).jobAfter db before).startedAt = before.startedAt := by
        simp only [Statement.jobAfter] at runs ⊢
        split
        · rename_i none
          simp only [none] at runs
          exact ⟨runs, rfl⟩
        · rename_i found abandoned
          simp only [abandoned] at runs
          split
          · rename_i same
            rw [if_pos same] at runs
            refine ⟨?_, released_startedAt _ _⟩
            unfold AuditJob.released at runs
            split at runs
            · cases runs
            · exact runs
          · rename_i other
            rw [if_neg other] at runs
            exact ⟨runs, rfl⟩
      rw [kept.2] at started
      exact stale.jobs before inside named kept.1 start started
    · cases different

theorem reapAll_safe {ensures : Database → Except AppError Nat → Prop}
    (abandoned : List (Text × Text)) (total : Nat)
    (stale : db.Stale jobId cutoff)
    (listed : ∀ execution ∈ db.runningOf jobId,
      execution.id ∈ abandoned.map Prod.fst)
    (ensured : ∀ state total, state.Stale jobId cutoff →
      state.runningOf jobId = [] → ensures state (.ok total)) :
    (reapAll cutoff reason abandoned total).Safe (sweeping jobId) ensures
      db := by
  induction abandoned generalizing total db with
  | nil =>
      intro later quiet
      refine ensured later total (stale.later quiet) ?_
      refine List.eq_nil_iff_forall_not_mem.2 fun execution member => ?_
      rcases quiet.executions execution member with ⟨old, inOld, _, _⟩
      simpa using listed old inOld
  | cons row rest ih =>
      intro later quiet
      refine ⟨trivial, fun reply after executes => ?_⟩
      rcases reapAbandonedExecution_ok later row.1 cutoff reason with
        ⟨reaped, next, success⟩
      have answered : machine.answer later
          (.reapAbandonedExecution row.1 cutoff reason) =
            (.ok reaped, next) := by
        simp [machine, Statement.answer, Statement.run, success]
      have equal : (reply, after) = machine.answer later
        (.reapAbandonedExecution row.1 cutoff reason) := executes
      rw [answered, Prod.mk.injEq] at equal
      rcases equal with ⟨rfl, rfl⟩
      rcases reap_step (stale.later quiet) success with ⟨running, still⟩
      refine ih _ still ?_
      intro execution member
      rcases running execution member with ⟨was, other⟩
      rcases quiet.executions execution was with ⟨old, inOld, id, _⟩
      have name := listed old inOld
      rw [id, List.map_cons, List.mem_cons] at name
      exact name.resolve_left other

/-- Neither the job nor an execution of it is running. -/
structure Database.Recovered (jobId : Text) (db : Database) : Prop where
  executions : db.runningOf jobId = []
  jobs : ∀ job ∈ db.jobs, job.id = jobId → job.status ≠ .running

theorem failAll_safe (stuck : List Text) (total : Nat)
    (none : db.runningOf jobId = [])
    (listed : ∀ job ∈ db.jobs, job.id = jobId → job.status = .running →
      jobId ∈ stuck) :
    (failAll stuck total).Safe (sweeping jobId)
      (fun state _ => state.Recovered jobId) db := by
  have noneLater : ∀ {db later : Database}, db.runningOf jobId = [] →
      db.Quiet jobId later → later.runningOf jobId = [] := by
    intro db later none quiet
    refine List.eq_nil_iff_forall_not_mem.2 fun execution member => ?_
    rcases quiet.executions execution member with ⟨old, inOld, _, _⟩
    rw [none] at inOld
    cases inOld
  induction stuck generalizing total db with
  | nil =>
      intro later quiet
      refine ⟨noneLater none quiet, fun job member named running => ?_⟩
      rcases quiet.jobs job member named running with ⟨old, inOld, id, runs, _⟩
      cases listed old inOld id runs
  | cons name rest ih =>
      intro later quiet
      refine ⟨trivial, fun reply after executes => ?_⟩
      rcases failStuckJob_ok later name with ⟨count, next, success⟩
      have answered : machine.answer later (.failStuckJob name) =
          (.ok count, next) := by
        simp [machine, Statement.answer, Statement.run, success]
      have equal : (reply, after) =
        machine.answer later (.failStuckJob name) := executes
      rw [answered, Prod.mk.injEq] at equal
      rcases equal with ⟨rfl, rfl⟩
      have run : (Statement.failStuckJob name).run later =
          .ok (count, after) := success
      have effect := Statement.effect run
      refine ih _ ?_ ?_
      · refine List.eq_nil_iff_forall_not_mem.2 fun execution member => ?_
        rcases mem_runningOf_after effect member with
          ⟨before, was, _⟩ | ⟨_, different, _⟩
        · rw [noneLater none quiet] at was
          cases was
        · cases different
      · intro job member named running
        rcases mem_jobs_after effect member with
          ⟨before, inside, rfl⟩ | ⟨_, _, different, _⟩
        · rw [jobAfter_id] at named
          simp only [Statement.jobAfter] at running
          split at running
          · cases running
          · rename_i other
            rcases quiet.jobs before inside named running with
              ⟨old, inOld, id, runs, _⟩
            have entry := listed old inOld id runs
            refine (List.mem_cons.1 entry).resolve_left fun same => ?_
            exact other (by simp [named, same, running])
        · cases different

theorem stuckJobs_listed (stale : db.Stale jobId cutoff)
    (none : db.runningOf jobId = []) :
    ∀ job ∈ db.jobs, job.id = jobId → job.status = .running →
      jobId ∈ db.stuckJobs cutoff := by
  intro job member named running
  refine List.mem_map.2 ⟨job, List.mem_filter.2 ⟨member, ?_⟩, named⟩
  have started : job.startedAt.all (fun start => decide (start < cutoff)) =
      true := by
    cases since : job.startedAt with
    | none => rfl
    | some start => simpa using stale.jobs job member named running start since
  simp [running, started, named, none]

theorem abandoned_listed (stale : db.Stale jobId cutoff) :
    ∀ execution ∈ db.runningOf jobId,
      execution.id ∈ (db.abandonedExecutions cutoff).map Prod.fst := by
  intro execution member
  rcases mem_runningOf.1 member with ⟨inside, _, running⟩
  simp only [Database.abandonedExecutions, List.map_map, List.mem_map,
    List.mem_filter]
  exact ⟨execution, ⟨inside, by
    simp [running, stale.executions execution member]⟩, rfl⟩

/-- A pass over a stale job leaves it recovered. -/
theorem sweepZombieJobs_safe (stale : db.Stale jobId (db.now - staleAfter)) :
    sweepZombieJobs.Safe (sweeping jobId)
      (fun state _ => state.Recovered jobId) db := by
  intro begun quiet
  refine ⟨trivial, fun reply after executes => ?_⟩
  cases (show (reply, after) = (.ok begun.now, begun) from executes)
  have old : begun.Stale jobId (begun.now - staleAfter) :=
    (stale.later quiet).mono (Int.sub_le_sub_right quiet.now _)
  intro selected quiet
  refine ⟨trivial, fun reply after executes => ?_⟩
  cases (show (reply, after) =
    (.ok (selected.abandonedExecutions (begun.now - staleAfter)), selected) from
      executes)
  have stillOld := old.later quiet
  have reaping : (reapAll (begun.now - staleAfter) sweptReason
      (selected.abandonedExecutions (begun.now - staleAfter)) 0).Safe
        (sweeping jobId)
        (fun state result => (∃ total, result = .ok total) ∧
          state.Stale jobId (begun.now - staleAfter) ∧
          state.runningOf jobId = []) selected :=
    reapAll_safe _ 0 stillOld (abandoned_listed stillOld)
      fun state total stale none => ⟨⟨total, rfl⟩, stale, none⟩
  show Program.Safe _ _ (reapAll (begun.now - staleAfter) sweptReason
    (selected.abandonedExecutions (begun.now - staleAfter)) 0 >>=
      fun total => query (.stuckJobs (begun.now - staleAfter)) >>=
        fun stuck => failAll stuck total) selected
  refine Program.Safe.bind reaping ?_ ?_
  · rintro state error ⟨⟨_, impossible⟩, _⟩
    cases impossible
  · rintro reaped total ⟨_, stale, none⟩ later quiet
    refine ⟨trivial, fun reply after executes => ?_⟩
    cases (show (reply, after) =
      (.ok (later.stuckJobs (begun.now - staleAfter)), later) from executes)
    have noneLater : later.runningOf jobId = [] := by
      refine List.eq_nil_iff_forall_not_mem.2 fun execution member => ?_
      rcases quiet.executions execution member with ⟨old, inOld, _, _⟩
      rw [none] at inOld
      cases inOld
    exact failAll_safe _ _ noneLater
      (stuckJobs_listed (stale.later quiet) noneLater)

end Sweep

theorem sweep_recovers {last begun finished : Configuration}
    (reachable : Reachable anyStep last)
    (quiet : last.state.Quiet jobId begun.state)
    (late : last.state.now + staleAfter < begun.state.now) {process : Nat}
    (called : begun.processes process =
      some (Operation.program .sweepZombieJobs))
    (run : machine.Run (Follows (sweeping jobId) process) begun finished)
    {result : Except AppError Unit}
    (ended : finished.processes process = some (.done result)) :
    finished.state.Recovered jobId := by
  have stamped := reachable.stamped
  have before : last.state.now < begun.state.now - staleAfter :=
    Int.lt_sub_right_of_add_lt late
  have stale : last.state.Stale jobId (begun.state.now - staleAfter) := by
    constructor
    · intro execution member
      exact lt_of_le_of_lt
        (stamped.executions execution (mem_runningOf.1 member).1) before
    · intro job member _ _ start started
      exact lt_of_le_of_lt (stamped.jobs job member start started) before
  have safe : (Operation.program .sweepZombieJobs).Safe (sweeping jobId)
      (fun state _ => state.Recovered jobId) begun.state := by
    refine Program.Safe.bind (sweepZombieJobs_safe (stale.later quiet)) ?_ ?_
    · exact fun _ _ recovered => recovered
    · intro state total recovered later quiet
      constructor
      · refine List.eq_nil_iff_forall_not_mem.2 fun execution member => ?_
        rcases quiet.executions execution member with ⟨old, inOld, _, _⟩
        rw [recovered.executions] at inOld
        cases inOld
      · intro job member named running
        rcases quiet.jobs job member named running with
          ⟨old, inOld, id, runs, _⟩
        exact recovered.jobs old inOld id runs
  rcases safe.follows called run with ⟨rest, continues, done⟩
  rw [ended, Option.some.injEq] at continues
  subst continues
  exact done _ (Database.Quiet.refl jobId _)

/-! ## What recovery spares -/

/-- The job has a running execution that beat after the cutoff. -/
def Database.Fresh (jobId : Text) (cutoff : Timestamp) (db : Database) : Prop :=
  ∃ execution ∈ db.runningOf jobId, cutoff < execution.lastBeat

instance (jobId : Text) (cutoff : Timestamp) (db : Database) :
    Decidable (db.Fresh jobId cutoff) := by
  unfold Database.Fresh
  infer_instance

/-- The row of the job and the rows of its executions are the same. -/
def Database.SameRows (jobId : Text) (db after : Database) : Prop :=
  after.job? jobId = db.job? jobId ∧ after.attemptsOf jobId = db.attemptsOf jobId

instance (jobId : Text) (db after : Database) :
    Decidable (db.SameRows jobId after) := by
  unfold Database.SameRows
  infer_instance

/-- The updates of the reaper and of the sweep, with their cutoff. -/
def Statement.Recovers (cutoff : Timestamp) : Statement → Prop
  | .reapAbandonedExecution _ staleBefore _ => staleBefore = cutoff
  | .failStuckJob _ => True
  | _ => False

/-- The sweep fails no running job that has a fresh execution. -/
def Statement.Spares (cutoff : Timestamp) (db : Database) : Statement → Prop
  | .failStuckJob jobId => db.Fresh jobId cutoff →
      ∀ job, db.job? jobId = some job → job.status ≠ .running
  | _ => True

section Spared

variable {db after : Database} {jobId : Text} {cutoff : Timestamp}

theorem Statement.Effect.job?_none {statement : Statement}
    (effect : statement.Effect db after) (old : statement.newJobs db = [])
    (row : db.job? jobId = none) : after.job? jobId = none := by
  unfold Database.job? at row ⊢
  rw [effect.jobs, old, List.append_nil]
  rw [List.find?_eq_none] at row ⊢
  intro job inside
  rcases List.mem_map.1 inside with ⟨before, was, rfl⟩
  rw [jobAfter_id]
  exact row before was

/-- No execution of the job is abandoned. -/
theorem abandoned?_other (consistent : db.Consistent)
    (fresh : db.Fresh jobId cutoff) {executionId : Text}
    {execution : AuditExecution}
    (found : db.abandoned? executionId cutoff = some execution) :
    execution.jobId ≠ jobId := by
  rintro rfl
  rcases fresh with ⟨live, inRunning, beat⟩
  rcases abandoned?_mem found with ⟨member, _, running, stale⟩
  have same := consistent.running_unique inRunning
    (mem_runningOf.2 ⟨member, rfl, running⟩)
  rw [same] at beat
  exact lt_asymm beat stale

theorem reap_spares (consistent : db.Consistent)
    (fresh : db.Fresh jobId cutoff) {executionId reason : Text} {reaped : Bool}
    (success : db.reapAbandonedExecution executionId cutoff reason =
      .ok (reaped, after)) : db.SameRows jobId after := by
  have effect := reapAbandonedExecution_effect success
  cases found : db.abandoned? executionId cutoff with
  | none =>
      unfold Database.reapAbandonedExecution at success
      rw [found] at success
      cases success
      exact ⟨rfl, rfl⟩
  | some abandoned =>
      have other := abandoned?_other consistent fresh found
      rcases abandoned?_mem found with ⟨member, id, _, _⟩
      constructor
      · cases row : db.job? jobId with
        | none => exact effect.job?_none rfl row
        | some job =>
            have named : job.id = jobId := by simpa using List.find?_some row
            rw [effect.job? row]
            simp [Statement.jobAfter, found, named, other.symm]
      · rw [effect.attemptsOf]
        simp only [Statement.newExecutions, List.filter_nil, List.append_nil]
        refine (List.map_congr_left fun execution inside => ?_).trans
          (List.map_id _)
        rcases mem_attemptsOf.1 inside with ⟨row, job⟩
        have different : execution.id ≠ executionId := by
          intro same
          rw [consistent.execution_unique row member (same.trans id.symm)] at job
          exact other job
        simp [Statement.executionAfter, different]

/-- Recovery leaves the jobs with a fresh execution exactly when it spares
them. -/
theorem spares_iff (consistent : db.Consistent) {statement : Statement}
    (recovers : statement.Recovers cutoff) :
    (∀ jobId, db.Fresh jobId cutoff →
      db.SameRows jobId (machine.answer db statement).2) ↔
      statement.Spares cutoff db := by
  cases statement with
  | reapAbandonedExecution executionId staleBefore reason =>
      have same : staleBefore = cutoff := recovers
      subst same
      rcases reapAbandonedExecution_ok db executionId staleBefore reason with
        ⟨reaped, after, success⟩
      refine ⟨fun _ => trivial, fun _ jobId fresh => ?_⟩
      simp only [machine, Statement.answer, Statement.run, success]
      exact reap_spares consistent fresh success
  | failStuckJob stuck =>
      rcases failStuckJob_ok db stuck with ⟨count, after, success⟩
      have run : (Statement.failStuckJob stuck).run db = .ok (count, after) :=
        success
      have effect := Statement.effect run
      have answered : (machine.answer db (.failStuckJob stuck)).2 = after := by
        simp [machine, Statement.answer, Statement.run, success]
      rw [answered]
      have attempts : ∀ jobId, after.attemptsOf jobId = db.attemptsOf jobId := by
        intro jobId
        rw [effect.attemptsOf]
        simp only [Statement.newExecutions, List.filter_nil, List.append_nil]
        exact List.map_id _
      constructor
      · intro same fresh job row running
        have kept := (same stuck fresh).1
        have named : job.id = stuck := by simpa using List.find?_some row
        rw [row, effect.job? row, Option.some.injEq] at kept
        have status := congrArg AuditJob.status kept
        simp [Statement.jobAfter, named, running] at status
      · intro spares jobId fresh
        refine ⟨?_, attempts jobId⟩
        cases row : db.job? jobId with
        | none => exact effect.job?_none rfl row
        | some job =>
            have named : job.id = jobId := by simpa using List.find?_some row
            rw [effect.job? row]
            by_cases same : jobId = stuck
            · subst same
              simp [Statement.jobAfter, spares fresh job row]
            · simp [Statement.jobAfter, named, same]
  | _ => exact recovers.elim

end Spared

/-! ## Schedules -/

/-- A worker dies with an open execution, and nobody else acts for six
minutes. -/
def deadRun : List (Action Operation) :=
  [.call 0 (.createJob "job-1" "user-1"), .advance 0 1,
    .call 1 (.claimJob "job-1"), .advance 1 1,
    .call 2 (.beginExecution uuids "job-1"), .advance 2 9, .crash 2]

def lateSweep : List (Action Operation) :=
  deadRun ++ [.wait 360000000, .call 3 .sweepZombieJobs]

/-- A worker claims a job and stalls.  The sweep finds the job stuck, and
before its update the worker opens the execution. -/
def sweptRun : List (Action Operation) :=
  [.call 0 (.createJob "job-1" "user-1"), .advance 0 1,
    .call 1 (.claimJob "job-1"), .advance 1 1, .wait 360000000,
    .call 2 .sweepZombieJobs, .advance 2 3,
    .call 3 (.beginExecution uuids "job-1"), .advance 3 9]

theorem advance_follows {process : Nat} (count : Nat)
    {program : Task Unit} {config : Configuration}
    (running : config.processes process = some program) :
    machine.Run (Follows (sweeping jobId) process) config
      ⟨(machine.advance allowed count program config.state).2,
        Function.update config.processes process
          (some (machine.advance allowed count program config.state).1)⟩ := by
  refine advance_run (fun state statement _ => ?_) count running
  simp only [Follows, if_true]
  rfl

/-- The pass that begins then, to its end. -/
def swept : Configuration :=
  ⟨(machine.advance allowed 9 (Operation.program .sweepZombieJobs)
      (reached lateSweep).state).2,
    Function.update (reached lateSweep).processes 3
      (some (machine.advance allowed 9 (Operation.program .sweepZombieJobs)
        (reached lateSweep).state).1)⟩

end Execution

open Execution

/-- A pass of the sweep that begins more than five minutes after the last sign
of life of a job leaves neither the job nor an execution of it running.  And
recovery leaves the rows of a job with a fresh execution, unless the sweep
fails a running job that opened its execution after the sweep looked. -/
theorem recovery_exact {last : Configuration}
    (reachable : Reachable anyStep last) :
    (∀ begun finished jobId process result,
      last.state.Quiet jobId begun.state →
        last.state.now + staleAfter < begun.state.now →
          begun.processes process =
              some (Operation.program .sweepZombieJobs) →
            machine.Run (Follows (sweeping jobId) process) begun finished →
              finished.processes process = some (.done result) →
                finished.state.Recovered jobId) ∧
      ∀ cutoff (statement : Statement), statement.Recovers cutoff →
        ((∀ jobId, last.state.Fresh jobId cutoff →
          last.state.SameRows jobId
            (machine.answer last.state statement).2) ↔
          statement.Spares cutoff last.state) := by
  constructor
  · intro begun finished jobId process result quiet late called run ended
    exact sweep_recovers reachable quiet late called run ended
  · exact fun cutoff statement recovers =>
      spares_iff reachable.sound.inv recovers

theorem recovery_exact_lateSweep :
    swept.state.Recovered "job-1" ∧
      swept.state.executions.map AuditExecution.status = [.failed] := by
  refine ⟨?_, by decide⟩
  refine (recovery_exact (reached_reachable deadRun)).1 (reached lateSweep)
    swept "job-1" 3 (.ok ()) ?_ (by decide) rfl (advance_follows 9 rfl)
    rfl
  constructor <;> decide

theorem sweptRun_kills :
    ¬ ∀ config, Reachable anyStep config →
      ∀ process (statement : Statement) next cutoff,
        config.processes process = some (.ask statement next) →
          statement.Recovers cutoff → ∀ jobId,
            config.state.Fresh jobId cutoff →
              config.state.SameRows jobId
                (machine.answer config.state statement).2 := by
  intro spares
  have fresh : (reached sweptRun).state.Fresh "job-1" 60000000 := by
    decide
  have same := spares (reached sweptRun) (reached_reachable sweptRun) 2
    (.failStuckJob "job-1") _ 60000000 rfl trivial "job-1" fresh
  have killed : ¬ (reached sweptRun).state.SameRows "job-1"
      (machine.answer (reached sweptRun).state (.failStuckJob "job-1")).2 := by
    decide
  exact killed same

end FireCrow.Orchestrator
