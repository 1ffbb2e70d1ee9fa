import FireCrow.Agents.ScannerSpecs
import FireCrow.Orchestrator.Recovery

/-!
# Heartbeats

A worker that is alive gives a sign of life before each phase of the pipeline
and after the three scanners, which run one after the other in between.  The
clock counts microseconds: a scanner takes its time, every other step none.

The longest time without a sign of life is that of the three scanners
together.
-/

namespace FireCrow.Orchestrator

open FireCrow.Library FireCrow.Schemas FireCrow.Agents

namespace Execution

/-! ## The pipeline -/

/-- How long the scanners of one execution run. -/
structure ScanDurations where
  gitleaks : Nat
  osv : Nat
  semgrep : Nat

def ScanDurations.total (durations : ScanDurations) : Nat :=
  durations.gitleaks + durations.osv + durations.semgrep

def seconds (count : Nat) : Nat := count * 1000000

/-- Every scanner ends within its own timeout. -/
structure ScanDurations.WithinTimeouts (durations : ScanDurations) : Prop where
  gitleaks : durations.gitleaks ≤ seconds scanTimeoutSecs
  osv : durations.osv ≤ seconds osvTimeoutSecs
  semgrep : durations.semgrep ≤ seconds semgrepTimeoutSecs

/-- What a worker does next. -/
inductive PipelineStep where
  | heartbeat
  | statement (statement : Statement)
  | scanner (duration : Nat)

/-- Pin the snapshot on the job and the execution, when there is one. -/
def pinSnapshot (lease : ExecutionLease) : Option Text → List PipelineStep
  | none => []
  | some commitSha =>
      [.statement (.recordCommit lease.jobId commitSha),
        .statement
          (.bindSnapshot lease.executionId lease.ownerToken commitSha)]

/-- The steps of `run_pipeline`: every phase begins with a heartbeat. -/
def runPipeline (lease : ExecutionLease) (commitSha : Option Text)
    (durations : ScanDurations) : List PipelineStep :=
  -- fetch
  .heartbeat :: (pinSnapshot lease commitSha ++
    -- scan
    [.heartbeat, .scanner durations.gitleaks, .scanner durations.osv,
      .scanner durations.semgrep, .heartbeat,
    -- normalize, score, report, deliver
      .heartbeat, .heartbeat, .heartbeat, .heartbeat])

/-- The time to the next heartbeat, or to the end. -/
def untilBeat : List PipelineStep → Nat
  | [] => 0
  | .heartbeat :: _ => 0
  | .statement _ :: rest => untilBeat rest
  | .scanner duration :: rest => duration + untilBeat rest

/-- The longest time from one heartbeat to the next. -/
def longestGap : List PipelineStep → Nat
  | [] => 0
  | .heartbeat :: rest => max (untilBeat rest) (longestGap rest)
  | .statement _ :: rest => longestGap rest
  | .scanner _ :: rest => longestGap rest

/-- Between two heartbeats there are at most the three scanners. -/
theorem longestGap_runPipeline (lease : ExecutionLease)
    (commitSha : Option Text) (durations : ScanDurations) :
    longestGap (runPipeline lease commitSha durations) = durations.total := by
  cases commitSha <;>
    simp [runPipeline, pinSnapshot, longestGap, untilBeat,
      ScanDurations.total, Nat.add_assoc]

/-! ## Recovery at any moment -/

/-- Recovery takes its cutoff from the clock and never reaps by another. -/
def Operation.Scheduled : Operation → Prop
  | .reapAbandonedExecution .. => False
  | _ => True

/-- The processes around the workers. -/
def surroundings :
    Machine Database Statement Statement.Reply AppError Operation :=
  { machine with
    permitted := fun db operation =>
      operation.permitted db ∧ operation.Scheduled }

/-- The cutoff of a reap lies far enough in the past. -/
def Statement.Overdue (db : Database) : Statement → Prop
  | .reapAbandonedExecution _ staleBefore _ =>
      staleBefore ≤ db.now - staleAfter
  | _ => True

/-- Time passes, and whatever is overdue stays so. -/
def overdue : Discipline Database Statement Statement.Reply where
  executes := machine.Executes
  rely := fun db later => db.now ≤ later.now
  requires := fun db statement => statement.Overdue db
  rely_refl := fun db => le_refl db.now
  rely_trans := le_trans

variable {db after : Database}

theorem surroundings_executes {statement : Statement} {reply : statement.Reply}
    (executes : surroundings.Executes db statement reply after) :
    machine.Executes db statement reply after := by
  cases executes with
  | answered => exact .answered
  | failed => exact .failed
  | lost => exact .lost

theorem answer_now (db : Database) (statement : Statement) :
    (machine.answer db statement).2.now = db.now := by
  rcases answer_cases db statement with
    ⟨answer, after, success, equal⟩ | ⟨error, _, equal⟩
  · rw [equal]
    exact (Statement.effect success).now
  · rw [equal]

theorem executes_now {statement : Statement} {reply : statement.Reply}
    (executes : machine.Executes db statement reply after) :
    after.now = db.now := by
  cases executes with
  | answered | lost => exact answer_now db statement
  | failed => rfl

/-! ### Every reap is overdue -/

/-- The statement is no reap, so it needs no cutoff. -/
def Statement.Untimed (statement : Statement) : Prop :=
  ∀ db : Database, statement.Overdue db

theorem Statement.Ordinary.untimed (statement : Statement)
    (ordinary : statement.Ordinary) : statement.Untimed := by
  intro db
  cases statement <;> trivial

theorem Statement.Plain.untimed (statement : Statement)
    (plain : statement.Plain) : statement.Untimed :=
  Statement.Ordinary.untimed statement (Statement.Plain.ordinary statement plain)

variable {cutoff : Timestamp}

theorem reapAll_overdue (past : cutoff ≤ db.now - staleAfter) (reason : Text)
    (abandoned : List (Text × Text)) (total : Nat) :
    (reapAll cutoff reason abandoned total).Safe overdue
      (fun _ _ => True) db := by
  induction abandoned generalizing total db with
  | nil => exact fun _ _ => trivial
  | cons row rest ih =>
      have stays : ∀ {later : Database}, db.now ≤ later.now →
          cutoff ≤ later.now - staleAfter :=
        fun le => past.trans (Int.sub_le_sub_right le _)
      apply tryQuery_bind_safe
      · exact fun later relied => stays relied
      · intro later reply after relied executes
        apply ih
        rw [executes_now executes]
        exact stays relied

theorem utcNow_overdue {Result : Type} {next : Timestamp → Task Result}
    (continued : ∀ (now : Timestamp) (db : Database), now ≤ db.now →
      (next now).Safe overdue (fun _ _ => True) db) (db : Database) :
    (query .utcNow >>= next).Safe overdue (fun _ _ => True) db := by
  apply query_bind_safe
  · exact fun _ _ => trivial
  · intro later now after relied executes
    have read := Executes.ok executes
    cases read
    exact continued later.now later (le_refl _)

theorem reaperRound_overdue (db : Database) :
    reaperRound.Safe overdue (fun _ _ => True) db := by
  apply utcNow_overdue
  intro now db past
  apply tryQuery_bind_safe
  · exact fun _ _ => trivial
  · intro later reply after relied executes
    apply reapAll_overdue
    rw [executes_now executes]
    exact Int.sub_le_sub_right (past.trans relied) _

theorem sweepZombieJobs_overdue (db : Database) :
    sweepZombieJobs.Safe overdue (fun _ _ => True) db := by
  apply utcNow_overdue
  intro now db past
  apply query_bind_safe
  · exact fun _ _ => trivial
  · intro later abandoned after relied executes
    have kept : now - staleAfter ≤ after.now - staleAfter := by
      rw [executes_now executes]
      exact Int.sub_le_sub_right (past.trans relied) _
    apply Program.Safe.bind (reapAll_overdue kept sweptReason abandoned 0)
    · exact fun _ _ _ => trivial
    · intro state total _
      apply Program.Asks.safe
      exact Program.Asks.bind (query_asks fun _ => trivial) fun stuck =>
        (failAll_plain stuck total).mono Statement.Plain.untimed

theorem discard_overdue {Result : Type} {program : Task Result}
    (safe : program.Safe overdue (fun _ _ => True) db) :
    program.discard.Safe overdue (fun _ _ => True) db :=
  Program.Safe.bind safe (fun _ _ _ => trivial) fun _ _ _ _ _ => trivial

theorem operation_overdue {operation : Operation}
    (scheduled : operation.Scheduled) (db : Database) :
    operation.program.Safe overdue (fun _ _ => True) db := by
  have one : ∀ {statement : Statement}, statement.Untimed →
      (query statement).discard.Safe overdue (fun _ _ => True) db :=
    fun untimed => by
      have asks : (query _).Asks Statement.Untimed := query_asks untimed
      exact discard_overdue (Program.Asks.safe asks db)
  cases operation with
  | createJob | claimQueued | claimJob => exact one fun _ => trivial
  | beginExecution uuids jobId =>
      have asks := (beginExecution_ordinary uuids jobId).mono
        Statement.Ordinary.untimed
      exact discard_overdue (Program.Asks.safe asks db)
  | bindSnapshot | cancelJob =>
      apply query_bind_safe (fun _ _ => trivial)
      intro _ updated after _ _
      split <;> exact fun _ _ => trivial
  | recordCommit => exact one fun _ => trivial
  | heartbeat => exact one fun _ => trivial
  | retryJob jobId userId =>
      have asks := (retryJob_plain jobId userId).mono Statement.Plain.untimed
      exact Program.Asks.safe asks db
  | reapAbandonedExecution => exact scheduled.elim
  | reaperRound => exact discard_overdue (reaperRound_overdue db)
  | sweepZombieJobs => exact discard_overdue (sweepZombieJobs_overdue db)
  | failJobIfUnowned => exact one fun _ => trivial
  | finalizeExecution => exact one fun _ => trivial
  | finalizeWithoutFindings => exact one fun _ => trivial

theorem surroundings_overdue :
    Guarantees surroundings overdue (fun _ => True) where
  executes := surroundings_executes
  operation := fun _ permitted => operation_overdue permitted.2 _
  statement := by
    intro db statement _ _
    exact ⟨trivial, le_of_eq (answer_now db statement).symm⟩
  time := by
    intro db duration _
    exact ⟨trivial, Int.le_add_of_nonneg_right (Int.natCast_nonneg duration)⟩

/-! ## Workers with a clock -/

/-- A worker that is alive: its lease, what is left of its current step, and
its next steps. -/
structure Worker where
  lease : ExecutionLease
  busy : Nat
  steps : List PipelineStep

/-- The workers that are alive and the processes around them. -/
structure Shift where
  config : Configuration
  workers : Nat → Option Worker

namespace Shift

/-- The database answers a statement of a worker. -/
def answered (config : Configuration) (statement : Statement) :
    Configuration :=
  { config with state := (machine.answer config.state statement).2 }

/-- The clock advances. -/
def advanced (shift : Shift) (duration : Nat) : Shift where
  config :=
    { shift.config with
      state := machine.elapse shift.config.state duration }
  workers := fun index => (shift.workers index).map fun worker =>
    { worker with busy := worker.busy - duration }

/-- One step of a worker, of another process, or of the clock.  Time passes
only while every worker is busy. -/
inductive Step (admits : ScanDurations → Prop) : Shift → Shift → Prop where
  | process {before after event workers}
      (step : surroundings.Step before event after)
      (untimed : event ≠ .elapsed) :
      Step admits ⟨before, workers⟩ ⟨after, workers⟩
  | wait {shift : Shift} (duration : Nat)
      (busy : ∀ index worker, shift.workers index = some worker →
        duration ≤ worker.busy) :
      Step admits shift (shift.advanced duration)
  | begin {config workers db index lease commitSha durations}
      (free : workers index = none) (admitted : admits durations)
      (inserted : Database.insertExecution config.state lease =
        .ok ((), db)) :
      Step admits ⟨config, workers⟩
        ⟨{ config with state := db }, Function.update workers index
          (some ⟨lease, 0, runPipeline lease commitSha durations⟩)⟩
  | heartbeat {config workers index lease steps}
      (next : workers index = some ⟨lease, 0, .heartbeat :: steps⟩) :
      Step admits ⟨config, workers⟩
        ⟨answered config (.heartbeat lease.executionId lease.ownerToken),
          Function.update workers index (some ⟨lease, 0, steps⟩)⟩
  | statement {config workers index lease statement steps}
      (next : workers index = some ⟨lease, 0, .statement statement :: steps⟩) :
      Step admits ⟨config, workers⟩
        ⟨answered config statement,
          Function.update workers index (some ⟨lease, 0, steps⟩)⟩
  | scanner {config workers index lease duration steps}
      (next : workers index = some ⟨lease, 0, .scanner duration :: steps⟩) :
      Step admits ⟨config, workers⟩
        ⟨config,
          Function.update workers index (some ⟨lease, duration, steps⟩)⟩
  /-- The pipeline is over, or ends early, and the result is committed. -/
  | finish {config workers index lease steps} (finalization : Finalization)
      (next : workers index = some ⟨lease, 0, steps⟩) :
      Step admits ⟨config, workers⟩
        ⟨answered config (.finalizeExecution lease finalization),
          Function.update workers index none⟩
  | crash {config workers} (index : Nat) :
      Step admits ⟨config, workers⟩
        ⟨config, Function.update workers index none⟩

/-- An empty database and nobody at work. -/
def initial : Shift where
  config := start
  workers _ := none

/-- What is reached when every scan takes durations that are admitted. -/
def Reachable (admits : ScanDurations → Prop) (shift : Shift) : Prop :=
  Relation.ReflTransGen (Step admits) initial shift

end Shift

/-- An execution is open. -/
def Database.Open (db : Database) (executionId : Text) : Prop :=
  ∃ execution ∈ db.executions,
    execution.id = executionId ∧ execution.status = .running

/-- A process is about to close an execution by a reap. -/
def Shift.Reaps (shift : Shift) (executionId : Text) : Prop :=
  shift.config.state.Open executionId ∧
    ∃ process staleBefore reason reply after,
      surroundings.Step shift.config
        (.executed process
          (.reapAbandonedExecution executionId staleBefore reason) reply)
        after ∧
      ¬ after.state.Open executionId

/-! ## The last sign of life -/

/-- The next sign of life of a worker comes in time. -/
structure Worker.Timely (db : Database) (worker : Worker) : Prop where
  gap : (longestGap worker.steps : Int) ≤ staleAfter
  ahead : ((worker.busy + untilBeat worker.steps : Nat) : Int) ≤ staleAfter
  present : ∃ execution ∈ db.executions,
    execution.id = worker.lease.executionId
  beaten : ∀ execution ∈ db.executions,
    execution.id = worker.lease.executionId → execution.status = .running →
      execution.ownerToken = some worker.lease.ownerToken ∧
        db.now + (worker.busy + untilBeat worker.steps : Nat) ≤
          execution.lastBeat + staleAfter

variable {execution : AuditExecution}

theorem running_of_executionAfter {statement : Statement}
    (permitted : statement.executionAfter db execution = execution ∨
      execution.permits (statement.executionAfter db execution) = true)
    (running : (statement.executionAfter db execution).status = .running) :
    execution.status = .running := by
  by_contra terminal
  have same := (executionAfter_continues permitted).frozen terminal
  rw [same] at running
  exact terminal running

/-- A row that a statement inserts has an id of its own. -/
theorem Statement.Effect.new_id {statement : Statement}
    (effect : statement.Effect db after) {new : AuditExecution}
    (member : execution ∈ db.executions)
    (inserted : new ∈ statement.newExecutions db) : new.id ≠ execution.id := by
  cases statement with
  | insertExecution lease =>
      rcases List.mem_singleton.1 inserted with rfl
      exact fun same => (effect.admitted.2 execution member).1 same.symm
  | _ => cases inserted

variable {worker : Worker}

/-- Whatever statement is answered, the sign of life stays in time. -/
theorem Worker.Timely.statement {statement : Statement}
    (timely : worker.Timely db)
    (effect : statement.Effect db after) : worker.Timely after where
  gap := timely.gap
  ahead := timely.ahead
  present := by
    rcases timely.present with ⟨execution, member, named⟩
    refine ⟨statement.executionAfter db execution, ?_, ?_⟩
    · rw [effect.executions]
      exact List.mem_append_left _ (List.mem_map_of_mem member)
    · rw [executionAfter_id, named]
  beaten := by
    intro row inside named running
    rw [effect.executions] at inside
    rcases List.mem_append.1 inside with old | new
    · rcases List.mem_map.1 old with ⟨execution, member, rfl⟩
      have ran := running_of_executionAfter
        (effect.permitted execution member) running
      have identity := executionAfter_identity db statement execution
      rw [executionAfter_id] at named
      rcases timely.beaten execution member named ran with ⟨token, beat⟩
      refine ⟨(congrArg Identity.ownerToken identity).trans token, ?_⟩
      have ahead := timely.ahead
      rw [effect.now]
      rcases executionAfter_lastBeat db statement execution with same | now
      · rw [same]
        exact beat
      · rw [now]
        exact Int.add_le_add_left ahead _
    · rcases timely.present with ⟨execution, member, same⟩
      exact absurd (named.trans same.symm) (effect.new_id member new)

theorem Worker.Timely.answer
    (timely : worker.Timely db) (statement : Statement) :
    worker.Timely (machine.answer db statement).2 := by
  rcases answer_cases db statement with
    ⟨answer, after, success, equal⟩ | ⟨error, _, equal⟩
  · rw [equal]
    exact timely.statement (Statement.effect success)
  · rw [equal]
    exact timely

theorem Worker.Timely.executes {statement : Statement}
    {reply : statement.Reply} (timely : worker.Timely db)
    (executes : machine.Executes db statement reply after) :
    worker.Timely after := by
  cases executes with
  | answered | lost => exact timely.answer statement
  | failed => exact timely

variable {duration : Nat}

theorem Worker.Timely.elapse
    (timely : worker.Timely db)
    (busy : duration ≤ worker.busy) :
    ({ worker with busy := worker.busy - duration } : Worker).Timely
      (machine.elapse db duration) where
  gap := timely.gap
  ahead := by
    have ahead := timely.ahead
    show ((worker.busy - duration + untilBeat worker.steps : Nat) : Int) ≤
      staleAfter
    omega
  present := timely.present
  beaten := by
    intro execution member named running
    rcases timely.beaten execution member named running with ⟨token, beat⟩
    refine ⟨token, ?_⟩
    have left : (duration : Int) +
        ((worker.busy - duration + untilBeat worker.steps : Nat) : Int) =
          ((worker.busy + untilBeat worker.steps : Nat) : Int) := by omega
    show db.now + (duration : Int) +
      ((worker.busy - duration + untilBeat worker.steps : Nat) : Int) ≤
        execution.lastBeat + staleAfter
    rw [Int.add_assoc, left]
    exact beat

variable {steps : List PipelineStep} {lease : ExecutionLease}

theorem Worker.Timely.heartbeat
    (timely : (⟨lease, 0, .heartbeat :: steps⟩ : Worker).Timely db)
    (effect : (Statement.heartbeat lease.executionId lease.ownerToken).Effect
      db after) :
    (⟨lease, 0, steps⟩ : Worker).Timely after := by
  have gap : ((max (untilBeat steps) (longestGap steps) : Nat) : Int) ≤
      staleAfter := timely.gap
  have next : ((0 + untilBeat steps : Nat) : Int) ≤ staleAfter := by omega
  have later : (longestGap steps : Int) ≤ staleAfter := by omega
  refine ⟨later, next, (timely.statement effect).present, ?_⟩
  intro row inside named running
  rcases (timely.statement effect).beaten row inside named running with
    ⟨token, _⟩
  refine ⟨token, ?_⟩
  rw [effect.executions] at inside
  rcases List.mem_append.1 inside with old | new
  · rcases List.mem_map.1 old with ⟨execution, member, rfl⟩
    have ran := running_of_executionAfter
      (effect.permitted execution member) running
    rw [executionAfter_id] at named
    have owned := (timely.beaten execution member named ran).1
    have beats : ((Statement.heartbeat lease.executionId
        lease.ownerToken).executionAfter db execution).lastBeat = db.now := by
      simp [Statement.executionAfter, named, owned, ran,
        AuditExecution.lastBeat]
    rw [beats, effect.now]
    exact Int.add_le_add_left next _
  · cases new

/-- Another statement of the worker takes no time. -/
theorem Worker.Timely.after_statement {statement : Statement}
    (timely : (⟨lease, 0, .statement statement :: steps⟩ : Worker).Timely db) :
    (⟨lease, 0, steps⟩ : Worker).Timely db :=
  ⟨timely.gap, timely.ahead, timely.present, timely.beaten⟩

/-- The time of a scanner counts from its start. -/
theorem Worker.Timely.scanner
    (timely : (⟨lease, 0, .scanner duration :: steps⟩ : Worker).Timely db) :
    (⟨lease, duration, steps⟩ : Worker).Timely db := by
  have left : 0 + untilBeat (.scanner duration :: steps) =
      duration + untilBeat steps := Nat.zero_add _
  refine ⟨timely.gap, ?_, timely.present, ?_⟩
  · exact left ▸ timely.ahead
  · exact fun execution member named running =>
      left ▸ timely.beaten execution member named running

theorem heartbeat_effect (db : Database) (executionId ownerToken : Text) :
    (Statement.heartbeat executionId ownerToken).Effect db
      (machine.answer db (.heartbeat executionId ownerToken)).2 := by
  rcases updateExecution_ok db executionId
    (fun execution =>
      execution.ownerToken = some ownerToken && execution.status = .running)
    (fun execution => { execution with heartbeatAt := some db.now })
    (fun execution _ _ owned => by
      simp only [Bool.and_eq_true, decide_eq_true_eq] at owned
      simp [AuditExecution.permits, owned.2]) with ⟨count, success⟩
  rcases answer_cases db (.heartbeat executionId ownerToken) with
    ⟨answer, after, ran, equal⟩ | ⟨error, refused, _⟩
  · rw [equal]
    exact Statement.effect ran
  · have answered : (Statement.heartbeat executionId ownerToken).run db =
        .ok (count, _) := success
    rw [refused] at answered
    cases answered

variable {durations : ScanDurations}

/-- A worker that begins has just given its first sign of life. -/
theorem Worker.timely_begin (commitSha : Option Text)
    (short : (durations.total : Int) ≤ staleAfter)
    (inserted : db.insertExecution lease = .ok ((), after)) :
    (⟨lease, 0, runPipeline lease commitSha durations⟩ : Worker).Timely
      after := by
  have effect := insertExecution_effect inserted
  have rows : after.executions = db.executions ++ [db.newExecution lease] := by
    have rows := effect.executions
    have same : (Statement.insertExecution lease).executionAfter db = id := rfl
    rwa [same, List.map_id] at rows
  refine ⟨?_, ?_, ⟨db.newExecution lease, ?_, rfl⟩, ?_⟩
  · rw [longestGap_runPipeline]
    exact short
  · show ((0 : Nat) : Int) ≤ staleAfter
    decide
  · rw [rows]
    exact List.mem_append_right _ (List.mem_singleton_self _)
  · intro row inside named _
    rw [rows] at inside
    rcases List.mem_append.1 inside with old | new
    · exact absurd named (effect.admitted.2 row old).1
    · rcases List.mem_singleton.1 new with rfl
      refine ⟨rfl, ?_⟩
      rw [effect.now]
      show db.now + 0 ≤ db.now + staleAfter
      exact Int.add_le_add_left (by decide) _

/-- Every worker is in time, and every reap to come is overdue. -/
structure Shift.Timely (shift : Shift) : Prop where
  sound : Sound overdue (fun _ => True) shift.config
  workers : ∀ index worker, shift.workers index = some worker →
    worker.Timely shift.config.state

theorem sound_later {config : Configuration}
    (sound : Sound overdue (fun _ => True) config)
    (later : config.state.now ≤ db.now) :
    Sound overdue (fun _ => True) ({ config with state := db } : Configuration) where
  inv := trivial
  safe := fun process program running =>
    (sound.safe process program running).later later

theorem surroundings_timely {before after : Configuration}
    {event : Event Statement Statement.Reply Operation}
    (step : surroundings.Step before event after) (untimed : event ≠ .elapsed)
    (timely : worker.Timely before.state) : worker.Timely after.state := by
  cases step with
  | call => exact timely
  | execute _ executes => exact timely.executes (surroundings_executes executes)
  | crash => exact timely
  | elapse => exact absurd rfl untimed

theorem update_workers {workers : Nat → Option Worker} {index : Nat}
    {changed : Option Worker} {holds : Worker → Prop}
    (kept : ∀ other worker, workers other = some worker → holds worker)
    (new : ∀ worker, changed = some worker → holds worker) :
    ∀ other worker, Function.update workers index changed other = some worker →
      holds worker := by
  intro other worker found
  by_cases same : other = index
  · subst same
    rw [Function.update_self] at found
    exact new worker found
  · rw [Function.update_of_ne same] at found
    exact kept other worker found

variable {admits : ScanDurations → Prop}

theorem Shift.Timely.step
    (short : ∀ durations, admits durations →
      (durations.total : Int) ≤ staleAfter)
    {before after : Shift} (timely : before.Timely)
    (step : Shift.Step admits before after) : after.Timely := by
  have kept := timely.workers
  cases step with
  | process step untimed =>
      exact ⟨timely.sound.step surroundings_overdue step,
        fun index worker found =>
          surroundings_timely step untimed (kept index worker found)⟩
  | wait duration busy =>
      refine ⟨sound_later timely.sound ?_, fun index worker found => ?_⟩
      · exact Int.le_add_of_nonneg_right (Int.natCast_nonneg duration)
      · rcases Option.map_eq_some_iff.1 found with ⟨earlier, ran, rfl⟩
        exact (kept index earlier ran).elapse (busy index earlier ran)
  | begin free admitted inserted =>
      have effect := insertExecution_effect inserted
      refine ⟨sound_later timely.sound (le_of_eq effect.now.symm), ?_⟩
      apply update_workers
      · exact fun other worker found =>
          (kept other worker found).statement effect
      · rintro _ ⟨⟩
        exact Worker.timely_begin _ (short _ admitted) inserted
  | @heartbeat config workers index lease steps next =>
      refine ⟨sound_later timely.sound (le_of_eq (answer_now _ _).symm), ?_⟩
      apply update_workers
      · exact fun other worker found => (kept other worker found).answer _
      · rintro _ ⟨⟩
        exact (kept index _ next).heartbeat (heartbeat_effect _ _ _)
  | @statement config workers index lease statement steps next =>
      refine ⟨sound_later timely.sound (le_of_eq (answer_now _ _).symm), ?_⟩
      apply update_workers
      · exact fun other worker found => (kept other worker found).answer _
      · rintro _ ⟨⟩
        exact ((kept index _ next).answer statement).after_statement
  | @scanner config workers index lease duration steps next =>
      refine ⟨timely.sound, ?_⟩
      apply update_workers
      · exact kept
      · rintro _ ⟨⟩
        exact (kept index _ next).scanner
  | finish finalization next =>
      refine ⟨sound_later timely.sound (le_of_eq (answer_now _ _).symm), ?_⟩
      apply update_workers
      · exact fun other worker found => (kept other worker found).answer _
      · nofun
  | crash index =>
      exact ⟨timely.sound, update_workers kept nofun⟩

theorem Shift.timely_initial : Shift.initial.Timely where
  sound :=
    { inv := trivial
      safe := fun process program running => by cases running }
  workers := fun index worker found => by cases found

theorem Shift.Reachable.timely
    (short : ∀ durations, admits durations →
      (durations.total : Int) ≤ staleAfter)
    {shift : Shift} (reachable : Shift.Reachable admits shift) :
    shift.Timely := by
  induction reachable with
  | refl => exact Shift.timely_initial
  | tail _ step ih => exact ih.step short step

/-- The row of an execution that a statement leaves as it is stays open. -/
theorem Database.Open.kept {statement : Statement}
    {executionId : Text} (effect : statement.Effect db after)
    (same : ∀ execution ∈ db.executions, execution.id = executionId →
      execution.status = .running →
        statement.executionAfter db execution = execution)
    (opened : db.Open executionId) : after.Open executionId := by
  rcases opened with ⟨execution, member, named, running⟩
  refine ⟨execution, ?_, named, running⟩
  rw [effect.executions]
  apply List.mem_append_left
  exact List.mem_map.2
    ⟨execution, member, same execution member named running⟩

/-- A reap that is due spares the execution of a worker in time. -/
theorem Worker.Timely.spared
    (timely : worker.Timely db) {staleBefore : Timestamp} {reason : Text}
    (due : staleBefore ≤ db.now - staleAfter)
    (effect : (Statement.reapAbandonedExecution worker.lease.executionId
      staleBefore reason).Effect db after)
    (opened : db.Open worker.lease.executionId) :
    after.Open worker.lease.executionId := by
  apply opened.kept effect
  intro execution _ _ _
  have spares : db.abandoned? worker.lease.executionId staleBefore = none := by
    cases found : db.abandoned? worker.lease.executionId staleBefore with
    | none => rfl
    | some late =>
        rcases abandoned?_mem found with ⟨member, named, running, old⟩
        have beat := (timely.beaten late member named running).2
        have first : db.now ≤ late.lastBeat + staleAfter := by
          refine le_trans ?_ beat
          exact Int.le_add_of_nonneg_right (Int.natCast_nonneg _)
        have second : db.now - staleAfter ≤ late.lastBeat :=
          Int.sub_right_le_of_le_add first
        exact absurd (lt_of_lt_of_le old (due.trans second)) (lt_irrefl _)
  simp [Statement.executionAfter, spares]

theorem Worker.Timely.spared_answer
    (timely : worker.Timely db) {staleBefore : Timestamp} (reason : Text)
    (due : staleBefore ≤ db.now - staleAfter)
    (opened : db.Open worker.lease.executionId) :
    (machine.answer db (.reapAbandonedExecution worker.lease.executionId
      staleBefore reason)).2.Open worker.lease.executionId := by
  rcases answer_cases db (.reapAbandonedExecution worker.lease.executionId
    staleBefore reason) with ⟨answer, after, success, equal⟩ | ⟨error, _, equal⟩
  · rw [equal]
    exact timely.spared due (Statement.effect success) opened
  · rw [equal]
    exact opened

theorem Shift.Timely.not_reaps {shift : Shift} (timely : shift.Timely)
    {index : Nat} (alive : shift.workers index = some worker) :
    ¬ shift.Reaps worker.lease.executionId := by
  rintro ⟨opened, process, staleBefore, reason, reply, after, step, closed⟩
  have due := timely.sound.required step
  have worked := timely.workers index worker alive
  apply closed
  cases step with
  | execute _ executes =>
      cases executes with
      | failed => exact opened
      | answered | lost => exact worked.spared_answer reason due opened

/-! ## A scan that takes too long -/

def lateLease : ExecutionLease := ⟨"e", "j", 1, "t"⟩

/-- One job with one open execution, both of time zero. -/
def lateDatabase (now : Timestamp) : Database :=
  { start.state with
    now := now
    jobs := [start.state.newJob "j" "u"]
    executions := [start.state.newExecution lateLease] }

/-- The only worker. -/
def aloneAtWork (steps : List PipelineStep) : Nat → Option Worker :=
  Function.update (fun _ => none) 0 (some ⟨lateLease, 0, steps⟩)

/-- The caller that created the job. -/
def createdProcesses : Nat → Option (Task Unit) :=
  Function.update
    (Function.update start.processes 0
      (some (Operation.createJob "j" "u").program))
    0 (some (.done (.ok ())))

theorem late_begun (admitted : admits durations) :
    Shift.Reachable admits
      ⟨⟨lateDatabase 0, createdProcesses⟩,
        aloneAtWork (runPipeline lateLease none durations)⟩ := by
  let calling : Configuration := ⟨start.state,
    Function.update start.processes 0
      (some (Operation.createJob "j" "u").program)⟩
  have call : surroundings.Step start (.called 0 (.createJob "j" "u"))
      calling := .call rfl ⟨trivial, trivial⟩
  have asks : calling.processes 0 =
      some (.ask (.createJob "j" "u") fun reply =>
        Program.bind (fun _ => .done (.ok ())) (.done reply)) := rfl
  have insert : surroundings.Step calling
      (.executed 0 (.createJob "j" "u") (.ok ()))
      ⟨{ start.state with jobs := [start.state.newJob "j" "u"] },
        createdProcesses⟩ := by
    have step := Machine.Step.execute asks
      (@Machine.Executes.answered _ _ _ _ _ surroundings _ _)
    exact step
  have called : Shift.Reachable admits ⟨calling, fun _ => none⟩ :=
    .tail .refl (.process call nofun)
  have created := Relation.ReflTransGen.tail called (.process insert nofun)
  have inserted : Database.insertExecution
      { start.state with jobs := [start.state.newJob "j" "u"] } lateLease =
        .ok ((), lateDatabase 0) := by
    decide
  exact .tail created (.begin rfl admitted inserted)

theorem Shift.Reachable.scanned
    {config : Configuration}
    (reachable : Shift.Reachable admits
      ⟨config, aloneAtWork (.scanner duration :: steps)⟩) :
    Shift.Reachable admits
      ⟨{ config with state := machine.elapse config.state duration },
        aloneAtWork steps⟩ := by
  have started : Shift.Reachable admits
      ⟨config, Function.update (fun _ => none) 0
        (some ⟨lateLease, duration, steps⟩)⟩ := by
    have step := Relation.ReflTransGen.tail reachable
      (.scanner (Function.update_self ..))
    rwa [aloneAtWork, Function.update_idem] at step
  have waited := Relation.ReflTransGen.tail started
    (.wait duration fun index worker found => by
      by_cases only : index = 0
      · subst only
        rcases Option.some.inj found with rfl
        exact le_refl _
      · have absent : Function.update (fun _ => none) 0
            (some (⟨lateLease, duration, steps⟩ : Worker)) index = none :=
          Function.update_of_ne only ..
        cases absent.symm.trans found)
  have idle : (fun index => ((Function.update (fun _ => none) 0
      (some ⟨lateLease, duration, steps⟩) : Nat → Option Worker) index).map
        fun worker => { worker with busy := worker.busy - duration }) =
          aloneAtWork steps := by
    funext index
    by_cases only : index = 0
    · subst only
      simp [aloneAtWork]
    · simp [aloneAtWork, Function.update_of_ne only]
  rw [Shift.advanced, idle] at waited
  exact waited

theorem late_heartbeat
    (reachable : Shift.Reachable admits
      ⟨⟨lateDatabase 0, createdProcesses⟩, aloneAtWork (.heartbeat :: steps)⟩) :
    Shift.Reachable admits
      ⟨⟨lateDatabase 0, createdProcesses⟩, aloneAtWork steps⟩ := by
  have step := Relation.ReflTransGen.tail reachable
    (.heartbeat (Function.update_self ..))
  rw [aloneAtWork, Function.update_idem] at step
  have same : (machine.answer (lateDatabase 0) (.heartbeat "e" "t")).2 =
      lateDatabase 0 := by decide +kernel
  have state : Shift.answered ⟨lateDatabase 0, createdProcesses⟩
      (.heartbeat lateLease.executionId lateLease.ownerToken) =
        ⟨lateDatabase 0, createdProcesses⟩ :=
    congrArg (Config.mk · createdProcesses) same
  rw [state] at step
  exact step

/-- The clock after the three scanners. -/
def lateNow (durations : ScanDurations) : Timestamp :=
  0 + (durations.gitleaks : Int) + durations.osv + durations.semgrep

/-- The worker has begun, and its scanners have taken their time. -/
theorem late_scanned (admitted : admits durations) :
    ∃ steps, Shift.Reachable admits
      ⟨⟨lateDatabase (lateNow durations), createdProcesses⟩,
        aloneAtWork steps⟩ := by
  have scanning := late_heartbeat (late_heartbeat (late_begun admitted))
  exact ⟨_, scanning.scanned.scanned.scanned⟩

theorem reap_closes (member : execution ∈ db.executions)
    (running : execution.status = .running) (old : execution.lastBeat < cutoff)
    (reason : Text) :
    ¬ (machine.answer db
      (.reapAbandonedExecution execution.id cutoff reason)).2.Open
        execution.id := by
  have found : (db.abandoned? execution.id cutoff).isSome = true := by
    apply List.find?_isSome.2
    exact ⟨execution, member, by simp [running, old]⟩
  rcases reapAbandonedExecution_ok db execution.id cutoff reason with
    ⟨answer, after, success⟩
  have effect := reapAbandonedExecution_effect success
  have answered : (machine.answer db
      (.reapAbandonedExecution execution.id cutoff reason)).2 = after := by
    have ran : (Statement.reapAbandonedExecution execution.id cutoff
      reason).run db = .ok (answer, after) := success
    simp [machine, Statement.answer, ran]
  rw [answered]
  rintro ⟨row, inside, named, runs⟩
  rw [effect.executions] at inside
  rcases List.mem_append.1 inside with kept | new
  · rcases List.mem_map.1 kept with ⟨other, _, rfl⟩
    rw [executionAfter_id] at named
    simp only [Statement.executionAfter, found, named, Bool.true_and,
      decide_true, decide_eq_true_eq] at runs
    split at runs
    · cases runs
    · exact absurd runs ‹_›
  · cases new

theorem abandonedExecutions_late {now : Timestamp} (late : (0 : Int) < cutoff) :
    (lateDatabase now).abandonedExecutions cutoff =
      [(lateLease.executionId, lateLease.jobId)] := by
  have old : (decide ((start.state.newExecution lateLease).status =
      .running) && decide ((start.state.newExecution lateLease).lastBeat <
        cutoff)) = true := decide_eq_true late
  have kept : (lateDatabase now).executions.filter (fun execution =>
      execution.status = .running && execution.lastBeat < cutoff) =
        [start.state.newExecution lateLease] :=
    List.filter_cons_of_pos old
  rw [Database.abandonedExecutions, kept]
  rfl

theorem late_reaped (admitted : admits durations)
    (long : (durations.total : Int) > staleAfter) :
    ∃ shift index worker, Shift.Reachable admits shift ∧
      shift.workers index = some worker ∧
        shift.Reaps worker.lease.executionId := by
  rcases late_scanned admitted with ⟨steps, scanned⟩
  let now := lateNow durations
  let cutoff := now - staleAfter
  have late : (0 : Int) < cutoff := by
    show (0 : Int) < 0 + (durations.gitleaks : Int) + durations.osv +
      durations.semgrep - staleAfter
    unfold ScanDurations.total at long
    omega
  -- The round of the reaper: the clock, the select and the reap to come.
  obtain ⟨next, clock, last, select, _, reap⟩ : ∃ next,
      Operation.reaperRound.program = .ask .utcNow next ∧ ∃ last,
        next (.ok now) = .ask (.abandonedExecutions cutoff) last ∧ ∃ rest,
          last (.ok [(lateLease.executionId, lateLease.jobId)]) =
            .ask (.reapAbandonedExecution lateLease.executionId cutoff
              reapedReason) rest := ⟨_, rfl, _, rfl, _, rfl⟩
  let db := lateDatabase now
  let called := Function.update createdProcesses 1
    (some Operation.reaperRound.program)
  have call : surroundings.Step ⟨db, createdProcesses⟩ (.called 1 .reaperRound)
      ⟨db, called⟩ := .call rfl ⟨trivial, trivial⟩
  let clocked := Function.update called 1 (some (next (.ok now)))
  have ask : surroundings.Step ⟨db, called⟩ (.executed 1 .utcNow (.ok now))
      ⟨db, clocked⟩ :=
    .execute (congrArg some clock) .answered
  let selected := Function.update clocked 1
    (some (last (.ok [(lateLease.executionId, lateLease.jobId)])))
  have finds : surroundings.Executes db (.abandonedExecutions cutoff)
      (.ok [(lateLease.executionId, lateLease.jobId)]) db := by
    rw [← abandonedExecutions_late late]
    exact .answered
  have list : surroundings.Step ⟨db, clocked⟩
      (.executed 1 (.abandonedExecutions cutoff)
        (.ok [(lateLease.executionId, lateLease.jobId)])) ⟨db, selected⟩ :=
    .execute (congrArg some select) finds
  have reached : Shift.Reachable admits ⟨⟨db, selected⟩, aloneAtWork steps⟩ :=
    ((scanned.tail (.process call nofun)).tail (.process ask nofun)).tail
      (.process list nofun)
  refine ⟨_, 0, ⟨lateLease, 0, steps⟩, reached, rfl, ?_⟩
  refine ⟨⟨start.state.newExecution lateLease, List.mem_singleton_self _, rfl,
    rfl⟩, 1, cutoff, reapedReason, _, _,
    .execute (congrArg some reap) .answered, ?_⟩
  have closed : ¬ (machine.answer db (.reapAbandonedExecution
      (start.state.newExecution lateLease).id cutoff reapedReason)).2.Open
        (start.state.newExecution lateLease).id :=
    reap_closes (List.mem_singleton_self _) rfl late reapedReason
  exact closed

/-! ## No live worker is reaped -/

/-- Whatever durations are admitted: in every run no process ever reaps the
execution of a worker that is alive, exactly when no admitted scan takes
longer than the time after which recovery takes an execution for abandoned. -/
theorem live_worker_never_reaped_iff (admits : ScanDurations → Prop) :
    (∀ shift, Shift.Reachable admits shift →
      ∀ index worker, shift.workers index = some worker →
        ¬ shift.Reaps worker.lease.executionId) ↔
      ∀ durations, admits durations → (durations.total : Int) ≤ staleAfter := by
  constructor
  · intro spared durations admitted
    by_contra long
    rcases late_reaped admitted (not_le.1 long) with
      ⟨shift, index, worker, reachable, alive, reaps⟩
    exact spared shift reachable index worker alive reaps
  · intro short shift reachable index worker alive
    exact (reachable.timely short).not_reaps alive

/-- Every scanner uses its whole timeout. -/
def slowestScan : ScanDurations where
  gitleaks := seconds scanTimeoutSecs
  osv := seconds osvTimeoutSecs
  semgrep := seconds semgrepTimeoutSecs

/-- Within the timeouts of the scanners the execution of a live worker is
reaped. -/
theorem slowestScan_reaped :
    ¬ ∀ shift, Shift.Reachable ScanDurations.WithinTimeouts shift →
      ∀ index worker, shift.workers index = some worker →
        ¬ shift.Reaps worker.lease.executionId := by
  intro spared
  have within : slowestScan.WithinTimeouts := ⟨le_refl _, le_refl _, le_refl _⟩
  rcases late_reaped within (by decide) with
    ⟨shift, index, worker, reachable, alive, reaps⟩
  exact spared shift reachable index worker alive reaps

end Execution

end FireCrow.Orchestrator
