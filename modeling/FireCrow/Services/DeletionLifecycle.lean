import FireCrow.Library.Interleaving
import FireCrow.Library.Table

/-!
# Account deletion

A deletion is a request with a deadline.  The housekeeping run marks overdue
requests deleted, then the user, then revokes the sessions, in statements of
their own; the reminders are selected first and recorded later.  Between any
two statements requests are made and cancelled, other runs act, and a run may
stop.
-/

namespace FireCrow.Services.Deletion

open FireCrow.Library

/-- Seconds. -/
abbrev Timestamp := Int

inductive DatabaseError where
  | uniqueViolation
  | foreignKeyViolation
  | columnDecode
  | unavailable
deriving DecidableEq

/-! ## Rows -/

inductive RequestStatus where
  | requested
  | cancelled
  | deleted
deriving DecidableEq

/-- A row of `account_deletion_requests`. -/
structure DeletionRequest where
  id : Text
  userId : Text
  deadline : Timestamp
  status : RequestStatus
  cancellationToken : Text
  cancelledAt : Option Timestamp
  lastReminderSent : Option Timestamp
  reminderCount : Nat
deriving DecidableEq

/-- A row of `users`. -/
structure UserRow where
  id : Text
  username : Text
  email : Option Text
  deletedAt : Option Timestamp
deriving DecidableEq

/-- A row of `user_sessions`. -/
structure UserSession where
  id : Text
  userId : Text
  isRevoked : Bool
deriving DecidableEq

/-- The tables.  The ids in flight, which no statement reads, are those of the
requests that a run has marked deleted and whose sessions it has not revoked
yet. -/
structure Accounts where
  now : Timestamp
  requests : List DeletionRequest
  users : List UserRow
  sessions : List UserSession
  inFlight : List Text
deriving DecidableEq

/-- What `process` counts. -/
structure DeletionStats where
  accountsDeleted : Nat
  sessionsRevoked : Nat
  remindersSent : Nat
  deletionEmailsSent : Nat
deriving DecidableEq

/-- The environment's periods, in seconds. -/
structure LifecycleSettings where
  gracePeriod : Nat
  reminderInterval : Nat

namespace Accounts

/-! ## Statements -/

/-- `INSERT INTO account_deletion_requests`, under its keys. -/
def insertRequest (accounts : Accounts) (requestId userId token : Text)
    (deadline : Timestamp) : Except DatabaseError (Unit × Accounts) :=
  if accounts.requests.any fun request =>
      request.id = requestId || request.cancellationToken = token then
    .error .uniqueViolation
  else if accounts.users.all fun user => user.id ≠ userId then
    .error .foreignKeyViolation
  else
    .ok ((), { accounts with
      requests := accounts.requests ++
        [{ id := requestId
           userId := userId
           deadline := deadline
           status := .requested
           cancellationToken := token
           cancelledAt := none
           lastReminderSent := none
           reminderCount := 0 }] })

/-- The update of `cancel_deletion`, with the rows affected. -/
def cancelRequest (accounts : Accounts) (userId token : Text) :
    Nat × Accounts :=
  let selects := fun request : DeletionRequest =>
    request.cancellationToken = token && (request.userId = userId &&
      request.status = .requested)
  (accounts.requests.countP selects, { accounts with
    requests := Table.set selects
      (fun request =>
        { request with
          status := .cancelled
          cancelledAt := some accounts.now })
      accounts.requests })

def selectDue (accounts : Accounts) (now : Timestamp) : List (Text × Text) :=
  (accounts.requests.filter fun request =>
    request.status = .requested && request.deadline ≤ now).map
      fun request => (request.id, request.userId)

def marks (requestId : Text) (request : DeletionRequest) : Bool :=
  request.id = requestId && request.status = .requested

/-- The terminal transition of a request. -/
def markRequestDeleted (accounts : Accounts) (requestId : Text) :
    Nat × Accounts :=
  let affected := accounts.requests.countP (marks requestId)
  (affected, { accounts with
    requests := Table.set (marks requestId)
      (fun request => { request with status := .deleted }) accounts.requests
    inFlight :=
      if affected = 0 then accounts.inFlight
      else requestId :: accounts.inFlight })

def markUserDeleted (accounts : Accounts) (userId : Text) : Nat × Accounts :=
  let selects := fun user : UserRow =>
    user.id = userId && user.deletedAt.isNone
  (accounts.users.countP selects, { accounts with
    users := Table.set selects
      (fun user => { user with deletedAt := some accounts.now })
      accounts.users })

/-- Revoke the sessions of a user, for the request that this completes. -/
def revokeSessions (accounts : Accounts) (userId requestId : Text) :
    Nat × Accounts :=
  let selects := fun session : UserSession =>
    session.userId = userId && !session.isRevoked
  (accounts.sessions.countP selects, { accounts with
    sessions := Table.set selects
      (fun session => { session with isRevoked := true }) accounts.sessions
    inFlight := accounts.inFlight.filter fun other => other ≠ requestId })

/-- `SELECT username, email`, neither of which the caller lets be null. -/
def recipient (accounts : Accounts) (userId : Text) :
    Except DatabaseError (Option (Text × Text)) :=
  match accounts.users.find? fun user => user.id = userId with
  | none => .ok none
  | some user =>
      match user.email with
      | none => .error .columnDecode
      | some email => .ok (some (user.username, email))

def email (accounts : Accounts) (userId : Text) : Option Text :=
  (accounts.users.find? fun user => user.id = userId).bind UserRow.email

def selectReminders (accounts : Accounts) (now cutoff : Timestamp) :
    List (Text × Text) :=
  (accounts.requests.filter fun request =>
    request.status = .requested && now < request.deadline &&
      request.lastReminderSent.all fun last => last < cutoff).map
        fun request => (request.id, request.userId)

def recordReminder (accounts : Accounts) (requestId : Text) : Nat × Accounts :=
  let selects := fun request : DeletionRequest => request.id = requestId
  (accounts.requests.countP selects, { accounts with
    requests := Table.set selects
      (fun request =>
        { request with
          lastReminderSent := some accounts.now
          reminderCount := request.reminderCount + 1 })
      accounts.requests })

end Accounts

/-- A statement of the lifecycle, and the end of a housekeeping run, where the
worker waits for its next tick. -/
inductive Statement where
  | utcNow
  | insertRequest (requestId userId token : Text) (deadline : Timestamp)
  | cancelRequest (userId token : Text)
  | selectDue (now : Timestamp)
  | markRequestDeleted (requestId : Text)
  | markUserDeleted (userId : Text)
  | revokeSessions (userId requestId : Text)
  | recipient (userId : Text)
  | selectReminders (now cutoff : Timestamp)
  | email (userId : Text)
  | recordReminder (requestId : Text)
  | ended

namespace Statement

def Answer : Statement → Type
  | .utcNow => Timestamp
  | .insertRequest .. => Unit
  | .cancelRequest .. => Nat
  | .selectDue _ => List (Text × Text)
  | .markRequestDeleted _ => Nat
  | .markUserDeleted _ => Nat
  | .revokeSessions .. => Nat
  | .recipient _ => Option (Text × Text)
  | .selectReminders .. => List (Text × Text)
  | .email _ => Option Text
  | .recordReminder _ => Nat
  | .ended => Unit

def run (accounts : Accounts) : (statement : Statement) →
    Except DatabaseError (statement.Answer × Accounts)
  | .utcNow => .ok (accounts.now, accounts)
  | .insertRequest requestId userId token deadline =>
      accounts.insertRequest requestId userId token deadline
  | .cancelRequest userId token => .ok (accounts.cancelRequest userId token)
  | .selectDue now => .ok (accounts.selectDue now, accounts)
  | .markRequestDeleted requestId =>
      .ok (accounts.markRequestDeleted requestId)
  | .markUserDeleted userId => .ok (accounts.markUserDeleted userId)
  | .revokeSessions userId requestId =>
      .ok (accounts.revokeSessions userId requestId)
  | .recipient userId =>
      (accounts.recipient userId).map fun answer => (answer, accounts)
  | .selectReminders now cutoff =>
      .ok (accounts.selectReminders now cutoff, accounts)
  | .email userId => .ok (accounts.email userId, accounts)
  | .recordReminder requestId => .ok (accounts.recordReminder requestId)
  | .ended => .ok ((), accounts)

abbrev Reply (statement : Statement) : Type :=
  Except DatabaseError statement.Answer

/-- A refused statement leaves the tables. -/
def answer (accounts : Accounts) (statement : Statement) :
    statement.Reply × Accounts :=
  match statement.run accounts with
  | .ok (answer, after) => (.ok answer, after)
  | .error error => (.error error, accounts)

end Statement

theorem insertRequest_users (accounts : Accounts)
    (requestId userId token : Text) (deadline : Timestamp) :
    ((Statement.insertRequest requestId userId token deadline).answer
      accounts).2.users = accounts.users := by
  simp only [Statement.answer, Statement.run, Accounts.insertRequest]
  split
  · rename_i inserted
    split at inserted
    · cases inserted
    · split at inserted
      · cases inserted
      · cases inserted
        rfl
  · rfl

/-! ## Operations -/

abbrev Task := Program Statement Statement.Reply DatabaseError

def query (statement : Statement) : Task statement.Answer :=
  .ask statement .done

/-- Record a request with its deadline; the uuids are drawn by the caller. -/
def requestDeletion (settings : LifecycleSettings)
    (requestId userId token : Text) : Task (Timestamp × Text) := do
  let now : Timestamp ← query .utcNow
  let deadline := now + settings.gracePeriod
  let _ ← query (.insertRequest requestId userId token deadline)
  return (deadline, token)

/-- Cancel the pending request that a token belongs to. -/
def cancelDeletion (userId token : Text) : Task Bool := do
  let affected : Nat ← query (.cancelRequest userId token)
  return 0 < affected

/-- Delete the accounts of a list of overdue requests. -/
def deleteDue : List (Text × Text) → DeletionStats → Task DeletionStats
  | [], stats => pure stats
  | (requestId, userId) :: rest, stats => do
      let marked : Nat ← query (.markRequestDeleted requestId)
      if marked = 0 then
        -- Another worker already deleted it.
        deleteDue rest stats
      else
        let deleted : Nat ← query (.markUserDeleted userId)
        let revoked : Nat ← query (.revokeSessions userId requestId)
        let _ ← query (.recipient userId)
        deleteDue rest
          { stats with
            accountsDeleted := stats.accountsDeleted + deleted
            sessionsRevoked := stats.sessionsRevoked + revoked
            deletionEmailsSent := stats.deletionEmailsSent + 1 }

/-- Remind of a list of pending requests. -/
def remindAll : List (Text × Text) → DeletionStats → Task DeletionStats
  | [], stats => pure stats
  | (requestId, userId) :: rest, stats => do
      let _ ← query (.email userId)
      let recorded : Nat ← query (.recordReminder requestId)
      remindAll rest
        { stats with remindersSent := stats.remindersSent + recorded }

/-- One housekeeping run. -/
def process (settings : LifecycleSettings) : Task DeletionStats := do
  let now : Timestamp ← query .utcNow
  let due : List (Text × Text) ← query (.selectDue now)
  let stats ← deleteDue due ⟨0, 0, 0, 0⟩
  let cutoff := now - settings.reminderInterval
  let reminders : List (Text × Text) ← query (.selectReminders now cutoff)
  remindAll reminders stats

inductive Operation where
  | requestDeletion (requestId userId token : Text)
  | cancelDeletion (userId token : Text)
  | process

def Operation.program (settings : LifecycleSettings) : Operation → Task Unit
  | .requestDeletion requestId userId token =>
      (Deletion.requestDeletion settings requestId userId token).discard
  | .cancelDeletion userId token =>
      (Deletion.cancelDeletion userId token).discard
  | .process => do
      let _ ← Deletion.process settings
      query .ended

/-- The processes over the tables. -/
def machine (settings : LifecycleSettings) :
    Machine Accounts Statement Statement.Reply DatabaseError Operation where
  answer := Statement.answer
  failure _ := .error .unavailable
  elapse accounts duration :=
    { accounts with now := accounts.now + duration }
  program := Operation.program settings
  permitted _ _ := True

instance (settings : LifecycleSettings) (accounts : Accounts)
    (operation : Operation) :
    Decidable ((machine settings).permitted accounts operation) :=
  isTrue trivial

abbrev Configuration := Config Accounts Statement Statement.Reply DatabaseError

/-- Accounts without a request, and no process. -/
def opening (users : List UserRow) (sessions : List UserSession) :
    Configuration where
  state :=
    { now := 0
      requests := []
      users := users
      sessions := sessions
      inFlight := [] }
  processes _ := none

end FireCrow.Services.Deletion
