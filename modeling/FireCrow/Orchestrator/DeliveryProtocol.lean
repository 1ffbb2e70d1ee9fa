import FireCrow.Library.Interleaving
import FireCrow.Library.Table

/-!
# The delivery protocol

The table of deliveries with its columns, checks and triggers, and the delivery
of a report on a channel as a program over single SQL statements: resolve the
version, claim it, send, and record the outcome.  What the provider answers is
an input of the request.
-/

namespace FireCrow.Orchestrator.Delivery

open FireCrow.Library

/-- Microseconds. -/
abbrev Timestamp := Int

/-- The delivery channels. -/
inductive Channel where
  | email
  | telegram
deriving DecidableEq

def Channel.asStr : Channel → Text
  | .email => "email"
  | .telegram => "telegram"

/-- Why a message could not be delivered. -/
inductive DeliveryError where
  | notConfigured
  | invalidRecipient
  | authentication
  | recipientRejected
  | rateLimited
  | unavailable
  | timeout
  | transport
  | malformed
  | responseTooLarge (capBytes : Nat)
deriving DecidableEq

/-- Log-safe class name. -/
def DeliveryError.category : DeliveryError → Text
  | .notConfigured => "not_configured"
  | .invalidRecipient => "destination_invalid"
  | .authentication => "provider_authentication"
  | .recipientRejected => "destination_rejected"
  | .rateLimited => "provider_rate_limited"
  | .unavailable => "provider_unavailable"
  | .timeout => "provider_timeout"
  | .transport => "provider_transport"
  | .malformed => "provider_malformed_response"
  | .responseTooLarge _ => "provider_response_too_large"

/-- What the database reports when it refuses a statement. -/
inductive DatabaseError where
  | undefinedColumn
  | valueTooLong
  | restrictViolation
  | checkViolation
  | foreignKeyViolation
  | unavailable
deriving DecidableEq

inductive AppError where
  | database (error : DatabaseError)
  | conflict (message : Text)
  | internal (message : Text)
  | delivery (error : DeliveryError)
deriving DecidableEq

/-! ## Rows -/

/-- Where a report goes. -/
structure Target where
  executionId : Text
  channel : Channel
  destinationRef : Text
deriving DecidableEq

/-- The idempotency key of one delivery attempt. -/
structure DeliveryKey extends Target where
  deliveryVersion : Int
deriving DecidableEq

inductive DeliveryStatus where
  | queued
  | sending
  | sent
  | failed
deriving DecidableEq

/-- A row of `audit_deliveries`. -/
structure AuditDelivery extends DeliveryKey where
  status : DeliveryStatus
  attempts : Nat
  providerMessageId : Option Text
  failureClass : Option Text
  createdAt : Timestamp
  completedAt : Option Timestamp
deriving DecidableEq

/-- The recorded state of one delivery attempt. -/
structure DeliveryState where
  status : DeliveryStatus
  failureClass : Option Text
  providerMessageId : Option Text
  attempts : Nat
deriving DecidableEq

/-- The columns that the migration defines. -/
def deliveryColumns : List Text :=
  ["execution_id", "channel", "destination_ref", "delivery_version", "status",
    "attempts", "provider_message_id", "failure_class", "created_at",
    "completed_at"]

namespace AuditDelivery

/-- The lengths of the columns. -/
def fits (row : AuditDelivery) : Bool :=
  row.destinationRef.length ≤ 320 &&
    row.providerMessageId.all fun id => id.length ≤ 128

/-- The checks on the table: a positive version, a destination, and a time and
a reason for every terminal row. -/
def checks (row : AuditDelivery) : Bool :=
  1 ≤ row.deliveryVersion && row.destinationRef.any (· ≠ ' ') &&
    (row.status ∉ [.sent, .failed] || row.completedAt.isSome) &&
    (row.status ≠ .failed || row.failureClass.isSome)

/-- The transitions that the triggers permit; a sent row is frozen. -/
def permits (old new : AuditDelivery) : Bool :=
  old.status ≠ .sent &&
    (old.status = new.status ||
      old.status = .queued && new.status ∈ [.sending, .failed] ||
      old.status = .sending && new.status ∈ [.sent, .failed])

end AuditDelivery

structure Database where
  now : Timestamp
  executions : List Text
  deliveries : List AuditDelivery
deriving DecidableEq

/-- A row in `sending` for this long belongs to a crashed worker. -/
def staleAfter : Timestamp := 5 * 60 * 1000000

namespace Database

/-- The deliveries of a target, in the order of their insertion. -/
def of (db : Database) (target : Target) : List AuditDelivery :=
  db.deliveries.filter fun row => row.toTarget = target

def delivery? (db : Database) (key : DeliveryKey) : Option AuditDelivery :=
  db.deliveries.find? fun row => row.toDeliveryKey = key

/-- The computable order of the integers, whatever else is in scope. -/
local instance : Preorder Int := Int.instLinearOrder.toPreorder

/-- `ORDER BY delivery_version DESC LIMIT 1`. -/
def latest (db : Database) (target : Target) : Option AuditDelivery :=
  (db.of target).argmax fun row => row.deliveryVersion

/-- `status = 'sending' AND created_at < NOW() - INTERVAL '5 minutes'`. -/
def stale (db : Database) (row : AuditDelivery) : Bool :=
  row.status = .sending && row.createdAt < db.now - staleAfter

/-- `UPDATE audit_deliveries SET … WHERE …`: the columns exist, the values fit,
the triggers permit each change and the checks hold of each new row. -/
def update (db : Database) (columns : List Text)
    (selects : AuditDelivery → Bool)
    (change : AuditDelivery → AuditDelivery) :
    Except DatabaseError (Nat × Database) :=
  let selected := db.deliveries.filter selects
  if columns.any fun column => column ∉ deliveryColumns then
    .error .undefinedColumn
  else if selected.any fun row => !(change row).fits then
    .error .valueTooLong
  else if selected.any fun row => !row.permits (change row) then
    .error .restrictViolation
  else if selected.any fun row => !(change row).checks then
    .error .checkViolation
  else
    .ok (selected.length,
      { db with deliveries := Table.set selects change db.deliveries })

/-- The stale rows that the condition selects become `failed`. -/
def reclaim (db : Database) (selects : AuditDelivery → Bool) :
    Except DatabaseError (Nat × Database) :=
  db.update ["status", "failure_class", "failure_reason"]
    (fun row => selects row && db.stale row)
    fun row =>
      { row with
        status := .failed
        failureClass := some "timeout" }

/-- The row of a claim. -/
def newDelivery (db : Database) (key : DeliveryKey) : AuditDelivery :=
  { key with
    status := .sending
    attempts := 1
    providerMessageId := none
    failureClass := none
    createdAt := db.now
    completedAt := none }

/-- `INSERT INTO audit_deliveries … ON CONFLICT (…) DO NOTHING`. -/
def insertDelivery (db : Database) (key : DeliveryKey) :
    Except DatabaseError (Nat × Database) :=
  let row := db.newDelivery key
  if !row.fits then .error .valueTooLong
  else if !row.checks then .error .checkViolation
  else if (db.delivery? key).isSome then .ok (0, db)
  else if key.executionId ∉ db.executions then .error .foreignKeyViolation
  else .ok (1, { db with deliveries := db.deliveries ++ [row] })

/-- The update of `finish_delivery`. -/
def finishDelivery (db : Database) (key : DeliveryKey)
    (providerMessageId failureClass : Option Text) :
    Except DatabaseError (Nat × Database) :=
  let status : DeliveryStatus :=
    if failureClass.isNone then .sent else .failed
  db.update ["status", "provider_message_id", "failure_class", "completed_at"]
    (fun row => row.toDeliveryKey = key)
    fun row =>
      { row with
        status := status
        providerMessageId := providerMessageId
        failureClass := failureClass
        completedAt := some db.now }

end Database

/-! ## Statements -/

/-- A statement of the protocol. -/
inductive Statement where
  /-- `SELECT … WHERE … AND status = 'sent' LIMIT 1`. -/
  | alreadySent (target : Target)
  /-- The reclaim of `resolve_delivery_version`. -/
  | reclaimTarget (target : Target)
  | latest (target : Target)
  /-- The reclaim of `claim_delivery`. -/
  | reclaimKey (key : DeliveryKey)
  | insertDelivery (key : DeliveryKey)
  | deliveryState (key : DeliveryKey)
  | finishDelivery (key : DeliveryKey)
      (providerMessageId failureClass : Option Text)

/-- What a statement returns. -/
def Statement.Answer : Statement → Type
  | .alreadySent _ => Bool
  | .reclaimTarget _ => Nat
  | .latest _ => Option (Int × DeliveryStatus)
  | .reclaimKey _ => Nat
  | .insertDelivery _ => Nat
  | .deliveryState _ => Option DeliveryState
  | .finishDelivery .. => Nat

/-- What a statement does. -/
def Statement.run (db : Database) : (statement : Statement) →
    Except DatabaseError (statement.Answer × Database)
  | .alreadySent target =>
      .ok ((db.of target).any fun row => row.status = .sent, db)
  | .reclaimTarget target => db.reclaim fun row => row.toTarget = target
  | .latest target =>
      .ok ((db.latest target).map fun row =>
        (row.deliveryVersion, row.status), db)
  | .reclaimKey key => db.reclaim fun row => row.toDeliveryKey = key
  | .insertDelivery key => db.insertDelivery key
  | .deliveryState key =>
      .ok ((db.delivery? key).map fun row =>
        { status := row.status
          failureClass := row.failureClass
          providerMessageId := row.providerMessageId
          attempts := row.attempts }, db)
  | .finishDelivery key providerMessageId failureClass =>
      db.finishDelivery key providerMessageId failureClass

/-- The reply to a statement: its answer, or the error it was refused with. -/
abbrev Statement.Reply (statement : Statement) : Type :=
  Except AppError statement.Answer

/-- A refused statement leaves the database. -/
def Statement.answer (db : Database) (statement : Statement) :
    statement.Reply × Database :=
  match statement.run db with
  | .ok (answer, after) => (.ok answer, after)
  | .error error => (.error (.database error), db)

/-! ## Requests -/

abbrev Task := Program Statement Statement.Reply AppError

/-- Execute one statement. -/
def query (statement : Statement) : Task statement.Answer :=
  .ask statement .done

/-- Execute one statement and look at its error. -/
def tryQuery (statement : Statement) : Task statement.Reply :=
  (query statement).attempt

/-- What happened to a delivery request. -/
inductive DeliveryOutcome where
  | sent
  | alreadySent
deriving DecidableEq

def alreadyDelivered (target : Target) : AppError :=
  .conflict
    (("execution " : Text) ++ target.executionId ++
      (" has already been delivered on " : Text) ++ target.channel.asStr)

def inProgress (target : Target) : AppError :=
  .conflict
    (("a delivery for execution " : Text) ++ target.executionId ++
      (" on " : Text) ++ target.channel.asStr ++
      (" is already in progress" : Text))

/-- The successor of an `i32`, which wraps. -/
def nextVersion (version : Int) : Int :=
  if version = 2 ^ 31 - 1 then -2 ^ 31 else version + 1

/-- Resolve the version of a delivery attempt. -/
def resolveDeliveryVersion (target : Target) : Task Int := do
  let _ ← tryQuery (.reclaimTarget target)
  let latest : Option (Int × DeliveryStatus) ← query (.latest target)
  match latest with
  | none => return 1
  | some (_, .sent) => .fail (alreadyDelivered target)
  | some (_, .sending) => .fail (inProgress target)
  | some (version, _) => return nextVersion version

/-- Why a claim lost against the row that is there. -/
def claimRefused (key : DeliveryKey) : DeliveryStatus → AppError
  | .sent => alreadyDelivered key.toTarget
  | .sending => inProgress key.toTarget
  | _ =>
      .conflict
        (("a previous delivery attempt for execution " : Text) ++
          key.executionId ++ (" on " : Text) ++ key.channel.asStr ++
          (" failed" : Text))

/-- Claim a delivery attempt, or report that it cannot proceed. -/
def claimDelivery (key : DeliveryKey) : Task Unit := do
  let _ ← tryQuery (.reclaimKey key)
  let inserted : Nat ← query (.insertDelivery key)
  if inserted = 1 then return ()
  else
    let existing : Option DeliveryState ← query (.deliveryState key)
    match existing with
    | none =>
        .fail (.internal
          (("delivery row for execution " : Text) ++ key.executionId ++
            (" on " : Text) ++ key.channel.asStr ++
            (" vanished while being claimed" : Text)))
    | some existing => .fail (claimRefused key existing.status)

/-- Deliver finalized content; the provider's answer decides. -/
def deliver (key : DeliveryKey)
    (sender : Except DeliveryError (Option Text)) : Task DeliveryOutcome := do
  claimDelivery key
  match sender with
  | .ok providerMessageId =>
      let _ ← query (.finishDelivery key providerMessageId none)
      return .sent
  | .error error =>
      let _ ← query (.finishDelivery key none (some error.category))
      .fail (.delivery error)

/-- Resolve, claim, send and record. -/
def resolveAndDeliver (target : Target)
    (sender : Except DeliveryError (Option Text)) : Task DeliveryOutcome := do
  let deliveryVersion ← resolveDeliveryVersion target
  deliver { target with deliveryVersion := deliveryVersion } sender

/-- Deliver one execution's report by email. -/
def deliverExecutionEmail (executionId recipient : Text)
    (sender : Except DeliveryError (Option Text)) : Task DeliveryOutcome := do
  let target : Target := ⟨executionId, .email, recipient⟩
  let alreadySent : Bool ← query (.alreadySent target)
  if alreadySent then return .alreadySent
  else
    let deliveryVersion ← resolveDeliveryVersion target
    let key : DeliveryKey := { target with deliveryVersion := deliveryVersion }
    let existing : Option DeliveryState ← query (.deliveryState key)
    if existing.any fun existing => existing.status = .sent then
      return .alreadySent
    else deliver key sender

/-- The delivery of `telegram_execution_report`, once content and transport
are at hand. -/
def telegramExecutionReport (executionId chatId : Text)
    (sender : Except DeliveryError (Option Text)) : Task DeliveryOutcome := do
  let target : Target := ⟨executionId, .telegram, chatId⟩
  let alreadySent : Bool ← query (.alreadySent target)
  if alreadySent then return .alreadySent
  else resolveAndDeliver target sender

/-- The requests. -/
inductive Operation where
  | deliver (target : Target) (sender : Except DeliveryError (Option Text))
  | email (executionId recipient : Text)
      (sender : Except DeliveryError (Option Text))
  | telegram (executionId chatId : Text)
      (sender : Except DeliveryError (Option Text))

def Operation.program : Operation → Task Unit
  | .deliver target sender => (resolveAndDeliver target sender).discard
  | .email executionId recipient sender =>
      (deliverExecutionEmail executionId recipient sender).discard
  | .telegram executionId chatId sender =>
      (telegramExecutionReport executionId chatId sender).discard

/-- The requests over one table. -/
def machine :
    Machine Database Statement Statement.Reply AppError Operation where
  answer := Statement.answer
  failure _ := .error (.database .unavailable)
  elapse db duration := { db with now := db.now + duration }
  program := Operation.program
  permitted _ _ := True

instance (db : Database) (operation : Operation) :
    Decidable (machine.permitted db operation) :=
  isTrue trivial

abbrev Configuration := Config Database Statement Statement.Reply AppError

/-- No delivery and no request, for the executions that there are. -/
def start (executions : List Text) : Configuration where
  state := { now := 0, executions := executions, deliveries := [] }
  processes _ := none

/-- What any run over some executions reaches. -/
def Reachable (config : Configuration) : Prop :=
  ∃ executions, machine.Run anyStep (start executions) config

end FireCrow.Orchestrator.Delivery
