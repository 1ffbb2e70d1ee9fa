import FireCrow.Orchestrator.ExecutionInvariants

/-!
# The submission gate

The single path by which jobs are created, over single statements: the select
of a redelivery, the advisory lock of the user, the count and the insert under
it, and the select after the commit.

A call holds the lock of its user from the count to the commit.  When it
stops, its transaction ends at some later moment, with its connection.
-/

namespace FireCrow.Api

open FireCrow.Library FireCrow.Schemas FireCrow.Orchestrator.Execution

/-! ## State -/

/-- An open transaction of the gate, which holds the advisory lock of a user,
and what it has counted. -/
structure Gate where
  transaction : Nat
  userId : Text
  counts : List Nat
deriving DecidableEq

/-- The column `webhook_delivery_id` of a job that a delivery created. -/
structure Attribution where
  jobId : Text
  deliveryId : Text
deriving DecidableEq

/-- How a call ends, with what it has read: the job of its delivery, and the
active jobs of its user. -/
structure Submission where
  existing : Option Text
  live : Option Nat
  result : Except AppError Text
deriving DecidableEq

/-- What a caller receives. -/
structure Response where
  deliveryId : Option Text
  submission : Except AppError Submission
deriving DecidableEq

structure Submissions where
  db : Database
  attributions : List Attribution
  gates : List Gate
  nextTransaction : Nat
  responses : List Response
deriving DecidableEq

/-- The queued and running jobs of a user. -/
def activeJobs (db : Database) (userId : Text) : Nat :=
  db.jobs.countP fun job => job.userId = userId && Database.live job.status

namespace Submissions

def attribution? (state : Submissions) (deliveryId : Text) :
    Option Attribution :=
  state.attributions.find? fun attribution =>
    attribution.deliveryId = deliveryId

def gate? (state : Submissions) (transaction : Nat) : Option Gate :=
  state.gates.find? fun gate => gate.transaction = transaction

/-- The transaction ends, and its lock with it. -/
def release (state : Submissions) (transaction : Nat) : Submissions :=
  { state with
    gates := state.gates.filter fun gate => gate.transaction ≠ transaction }

/-! ## Statements -/

/-- `BEGIN`, `pg_advisory_xact_lock`.  A lock that another transaction holds
is granted only after that has ended; a wait that does not end is answered
with an error. -/
def openGate (state : Submissions) (userId : Text) :
    Except AppError (Nat × Submissions) :=
  if state.gates.any fun gate => gate.userId = userId then
    .error (.database .unavailable)
  else
    .ok (state.nextTransaction, { state with
      gates := state.gates ++ [⟨state.nextTransaction, userId, []⟩]
      nextTransaction := state.nextTransaction + 1 })

/-- `SELECT COUNT(*) … WHERE user_id=$1 AND status IN ('queued','running')`,
noted in the transaction. -/
def countLive (state : Submissions) (transaction : Nat) :
    Except AppError (Nat × Submissions) :=
  match state.gate? transaction with
  | none => .error (.database .unavailable)
  | some gate =>
      let count := activeJobs state.db gate.userId
      .ok (count, { state with
        gates := Table.set (fun gate => gate.transaction = transaction)
          (fun gate => { gate with counts := count :: gate.counts })
          state.gates })

/-- The row of a delivery, in its unique index. -/
def attributed (attributions : List Attribution) (jobId : Text) :
    Option Text → List Attribution
  | none => attributions
  | some deliveryId => attributions ++ [⟨jobId, deliveryId⟩]

/-- `INSERT INTO audit_jobs … ON CONFLICT (webhook_delivery_id) DO NOTHING`,
`COMMIT`, with the rows inserted. -/
def commit (state : Submissions) (transaction : Nat) (jobId : Text)
    (deliveryId : Option Text) : Except AppError (Nat × Submissions) :=
  match state.gate? transaction with
  | none => .error (.database .unavailable)
  | some gate =>
      if (deliveryId.bind state.attribution?).isSome then
        .ok (0, state.release transaction)
      else do
        let (_, db) ← state.db.insertJob jobId gate.userId
        return (1, { state.release transaction with
          db := db
          attributions := attributed state.attributions jobId deliveryId })

end Submissions

/-- A statement of the gate, or one of the processes that share its tables. -/
inductive GateStatement where
  | shared (statement : Statement)
  | existingJob (deliveryId : Text)
  | openGate (userId : Text)
  | countLive (transaction : Nat)
  | commit (transaction : Nat) (jobId : Text) (deliveryId : Option Text)
  | respond (response : Response)
  | disconnect (transaction : Nat)

namespace GateStatement

def Answer : GateStatement → Type
  | .shared statement => statement.Answer
  | .existingJob _ => Option Text
  | .openGate _ => Nat
  | .countLive _ => Nat
  | .commit .. => Nat
  | .respond _ => Unit
  | .disconnect _ => Unit

def run (state : Submissions) : (statement : GateStatement) →
    Except AppError (statement.Answer × Submissions)
  | .shared statement => do
      let (answer, db) ← statement.run state.db
      return (answer, { state with db := db })
  | .existingJob deliveryId =>
      .ok ((state.attribution? deliveryId).map Attribution.jobId, state)
  | .openGate userId => state.openGate userId
  | .countLive transaction => state.countLive transaction
  | .commit transaction jobId deliveryId =>
      state.commit transaction jobId deliveryId
  | .respond response =>
      .ok ((), { state with responses := state.responses ++ [response] })
  | .disconnect transaction => .ok ((), state.release transaction)

abbrev Reply (statement : GateStatement) : Type :=
  Except AppError statement.Answer

/-- A refused statement leaves the state. -/
def answer (state : Submissions) (statement : GateStatement) :
    statement.Reply × Submissions :=
  match statement.run state with
  | .ok (answer, after) => (.ok answer, after)
  | .error error => (.error error, state)

end GateStatement

/-! ## Operations -/

abbrev GateTask := Program GateStatement GateStatement.Reply AppError

def ask (statement : GateStatement) : GateTask statement.Answer :=
  .ask statement .done

def tooManyActive (live : Nat) (maxActive : Int) : AppError :=
  .conflict
    (("too many active audits (" : Text) ++ (toString live : Text) ++ "/" ++
      (toString maxActive : Text) ++ "); wait for one to finish or cancel it")

/-- The select of a redelivery, made for deliveries only. -/
def existingJob : Option Text → GateTask (Option Text)
  | none => pure none
  | some deliveryId => ask (.existingJob deliveryId)

/-- The gate and the insert, once the arguments are found valid. -/
def createAuditJobAttributed (maxActiveJobs : Int) (jobId userId : Text)
    (deliveryId : Option Text) : GateTask Submission := do
  let maxActive := max maxActiveJobs 1
  let existing : Option Text ← existingJob deliveryId
  match existing with
  | some existing => return ⟨some existing, none, .ok existing⟩
  | none =>
      let transaction : Nat ← ask (.openGate userId)
      let live : Nat ← ask (.countLive transaction)
      if maxActive ≤ live then
        return ⟨none, some live, .error (tooManyActive live maxActive)⟩
      else
        let inserted : Nat ← ask (.commit transaction jobId deliveryId)
        if inserted = 0 then
          -- A redelivery raced the first attempt.
          let raced : Option Text ← ask (.existingJob (deliveryId.getD []))
          return ⟨none, some live, .ok (raced.getD jobId)⟩
        else return ⟨none, some live, .ok jobId⟩

/-- A call, up to its response. -/
def submit (maxActiveJobs : Int) (jobId userId : Text)
    (deliveryId : Option Text) : GateTask Unit := do
  let submission ←
    (createAuditJobAttributed maxActiveJobs jobId userId deliveryId).attempt
  let _ ← ask (.respond ⟨deliveryId, submission⟩)

/-- What may be started: a call, the loss of a connection, or an operation of
the workers, callers and recovery. -/
inductive GateOperation where
  | submit (jobId userId : Text) (deliveryId : Option Text)
  | disconnect (transaction : Nat)
  | other (operation : Operation)

def GateOperation.program (maxActiveJobs : Int) : GateOperation → GateTask Unit
  | .submit jobId userId deliveryId =>
      Api.submit maxActiveJobs jobId userId deliveryId
  | .disconnect transaction => (ask (.disconnect transaction)).discard
  | .other operation =>
      operation.program.lift .shared fun _ reply => reply

def createsJob : Operation → Bool
  | .createJob .. => true
  | _ => false

/-- Jobs are created by calls only. -/
def GateOperation.permitted (state : Submissions) : GateOperation → Prop
  | .other operation =>
      createsJob operation = false ∧ operation.permitted state.db
  | _ => True

instance (state : Submissions) (operation : GateOperation) :
    Decidable (operation.permitted state) :=
  match operation with
  | .submit .. => isTrue trivial
  | .disconnect _ => isTrue trivial
  | .other operation =>
      inferInstanceAs (Decidable
        (createsJob operation = false ∧ operation.permitted state.db))

/-- The processes over the tables of the gate. -/
def gateMachine (maxActiveJobs : Int) :
    Machine Submissions GateStatement GateStatement.Reply AppError
      GateOperation where
  answer := GateStatement.answer
  failure _ := .error (.database .unavailable)
  elapse state duration :=
    { state with db := machine.elapse state.db duration }
  program := GateOperation.program maxActiveJobs
  permitted := GateOperation.permitted

instance (maxActiveJobs : Int) (state : Submissions)
    (operation : GateOperation) :
    Decidable ((gateMachine maxActiveJobs).permitted state operation) :=
  inferInstanceAs (Decidable (operation.permitted state))

abbrev GateConfiguration :=
  Config Submissions GateStatement GateStatement.Reply AppError

/-- Empty tables and no process. -/
def gateStart : GateConfiguration where
  state :=
    { db := start.state
      attributions := []
      gates := []
      nextTransaction := 0
      responses := [] }
  processes _ := none

/-- What a run reaches whose steps all meet a condition. -/
def GateReachable (maxActiveJobs : Int)
    (condition : Condition Submissions GateStatement GateStatement.Reply
      GateOperation) (config : GateConfiguration) : Prop :=
  (gateMachine maxActiveJobs).Run condition gateStart config

end FireCrow.Api
