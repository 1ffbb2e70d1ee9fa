import FireCrow.Orchestrator.DeliveryProtocol
import FireCrow.Services.DeletionLifecycle

/-!
# Mail and its idempotency keys

The delivery of a report and the account lifecycle with the mails that they
send, over the tables of both and a provider that answers a repeated key with
its earlier answer.  Every request to the provider is logged with the key that
it carried.
-/

namespace FireCrow.Services.Mail

open FireCrow.Library
open FireCrow.Orchestrator.Delivery (AppError DeliveryError DeliveryKey
  DeliveryOutcome DeliveryState Target)

/-! ## Messages -/

/-- One rendered message. -/
structure EmailArtifact where
  executionId : Text
  attemptNumber : Int
  subject : Text
  textBody : Text
  htmlBody : Text
deriving DecidableEq

/-- What a message is for. -/
inductive Purpose where
  /-- The report of an execution's attempt. -/
  | report (executionId : Text) (attemptNumber : Int)
  /-- The confirmation of a deletion request, which its token names. -/
  | confirmation (userId token : Text)
  | reminder (requestId : Text)
  | completion (requestId : Text)
deriving DecidableEq

/-- A message for a recipient, as a program hands it to the transport. -/
structure Letter where
  purpose : Purpose
  recipient : Text
  artifact : EmailArtifact
deriving DecidableEq

/-- A message: the reminders of a request are told apart by the number of
those recorded before. -/
structure Message extends Letter where
  ordinal : Nat
deriving DecidableEq

/-- The key of `send_artifact`. -/
def idempotencyKey (artifact : EmailArtifact) : Text :=
  ("firecrow-email-" : Text) ++ artifact.executionId ++ '-' ::
    Text.ofInt artifact.attemptNumber

/-! ## The provider -/

/-- How the provider receives a request, and what of that arrives. -/
inductive Reception where
  | accepts (messageId : Option Text)
  /-- It takes the message, and an error comes back. -/
  | acceptsUnheard (messageId : Option Text) (error : DeliveryError)
  | refuses (error : DeliveryError)
deriving DecidableEq

def Reception.accepted : Reception → Bool
  | .accepts _ | .acceptsUnheard .. => true
  | .refuses _ => false

def Reception.messageId : Reception → Option Text
  | .accepts messageId | .acceptsUnheard messageId _ => messageId
  | .refuses _ => none

/-- What comes back for a message that is known under an identifier. -/
def Reception.answer (messageId : Option Text) :
    Reception → Except DeliveryError (Option Text)
  | .accepts _ => .ok messageId
  | .acceptsUnheard _ error | .refuses error => .error error

/-- A request to the provider: whether it sent the message, and its answer. -/
structure Posting where
  message : Message
  key : Text
  accepted : Bool
  messageId : Option Text
  answer : Except DeliveryError (Option Text)
deriving DecidableEq

structure Mailbox where
  /-- How each request is going to be received. -/
  reception : Nat → Reception
  postings : List Posting

namespace Mailbox

/-- The message that was accepted under a key. -/
def earlier (mailbox : Mailbox) (key : Text) : Option Posting :=
  mailbox.postings.find? fun posting => posting.accepted && posting.key = key

/-- The next posting: a repeated key sends nothing. -/
def receive (mailbox : Mailbox) (message : Message) (key : Text) : Posting :=
  let reception := mailbox.reception mailbox.postings.length
  match mailbox.earlier key with
  | some earlier =>
      { message := message
        key := key
        accepted := false
        messageId := earlier.messageId
        answer := reception.answer earlier.messageId }
  | none =>
      { message := message
        key := key
        accepted := reception.accepted
        messageId := reception.messageId
        answer := reception.answer reception.messageId }

end Mailbox

/-! ## Statements -/

/-- The tables and the provider. -/
structure World where
  deliveries : Orchestrator.Delivery.Database
  accounts : Deletion.Accounts
  mailbox : Mailbox

namespace World

/-- The reminders that a request counts. -/
def reminders (world : World) (requestId : Text) : Nat :=
  (world.accounts.requests.find? fun request => request.id = requestId).elim 0
    Deletion.DeletionRequest.reminderCount

def message (world : World) (letter : Letter) : Message :=
  { letter with
    ordinal := match letter.purpose with
      | .reminder requestId => world.reminders requestId
      | _ => 0 }

/-- A request to the provider. -/
def post (world : World) (letter : Letter) (key : Text) :
    Except DeliveryError (Option Text) × World :=
  let posting := world.mailbox.receive (world.message letter) key
  (posting.answer, { world with
    mailbox := { world.mailbox with
      postings := world.mailbox.postings ++ [posting] } })

/-- The pending requests that are due a reminder. -/
def dueReminders (world : World) (now cutoff : Deletion.Timestamp) :
    List (Text × Text × Text × Deletion.Timestamp) :=
  (world.accounts.requests.filter fun request =>
    request.status = .requested && now < request.deadline &&
      request.lastReminderSent.all fun last => last < cutoff).map
        fun request => (request.id, request.userId, request.cancellationToken,
          request.deadline)

end World

/-- A statement on the tables, or a request to the provider. -/
inductive Statement where
  | delivery (statement : Orchestrator.Delivery.Statement)
  | deletion (statement : Deletion.Statement)
  /-- The second query of `process`, with all that it selects. -/
  | dueReminders (now cutoff : Deletion.Timestamp)
  | post (letter : Letter) (key : Text)

namespace Statement

def Reply : Statement → Type
  | .delivery statement => statement.Reply
  | .deletion statement => statement.Reply
  | .dueReminders .. =>
      Except Deletion.DatabaseError
        (List (Text × Text × Text × Deletion.Timestamp))
  | .post .. => Except DeliveryError (Option Text)

def answer (world : World) : (statement : Statement) →
    statement.Reply × World
  | .delivery statement =>
      ((statement.answer world.deliveries).1,
        { world with deliveries := (statement.answer world.deliveries).2 })
  | .deletion statement =>
      ((statement.answer world.accounts).1,
        { world with accounts := (statement.answer world.accounts).2 })
  | .dueReminders now cutoff => (.ok (world.dueReminders now cutoff), world)
  | .post letter key => world.post letter key

/-- What a failed connection looks like. -/
def failure : (statement : Statement) → statement.Reply
  | .delivery _ => Except.error (AppError.database .unavailable)
  | .deletion _ => Except.error Deletion.DatabaseError.unavailable
  | .dueReminders .. => Except.error Deletion.DatabaseError.unavailable
  | .post .. => Except.error DeliveryError.transport

end Statement

abbrev Task (Error : Type) := Program Statement Statement.Reply Error

def inDeliveries {Result : Type} (program : Orchestrator.Delivery.Task Result) :
    Task AppError Result :=
  program.lift .delivery fun _ reply => reply

def inAccounts {Result : Type} (program : Deletion.Task Result) :
    Task Deletion.DatabaseError Result :=
  program.lift .deletion fun _ reply => reply

/-! ## Sending -/

/-- Conservative validation of a recipient. -/
def validateRecipient (recipient : Text) : Bool :=
  let trimmed := recipient.trim
  if trimmed.isEmpty || '\r' ∈ trimmed || '\n' ∈ trimmed then false
  else
    match trimmed.rsplitOnce '@' with
    | none => false
    | some (front, domain) =>
        !(front.isEmpty || domain.isEmpty || '.' ∉ domain ||
          domain.startsWith ("." : Text) || domain.endsWith ("." : Text) ||
          trimmed.any Text.isWhitespace)

def isTransient : DeliveryError → Bool
  | .rateLimited | .unavailable => true
  | _ => false

/-- Post, and post again after a transient error as long as retries remain. -/
def sendAttempts (letter : Letter) (key : Text) :
    (retries : Nat) → Task DeliveryError (Option Text)
  | 0 => .ask (.post letter key) .done
  | retries + 1 => .ask (.post letter key) fun
      | .ok messageId => .done (.ok messageId)
      | .error error =>
          if isTransient error then sendAttempts letter key retries
          else .done (.error error)

/-- At most this many attempts. -/
def maxSendAttempts : Nat := 3

/-- The configured transport. -/
structure EmailService where
  maxAttempts : Nat

/-- Send a rendered message under its key. -/
def EmailService.sendArtifact (mailer : EmailService) (purpose : Purpose)
    (recipient : Text) (artifact : EmailArtifact) :
    Task DeliveryError (Option Text) :=
  if validateRecipient recipient then
    sendAttempts ⟨purpose, recipient, artifact⟩ (idempotencyKey artifact)
      (max 1 (min maxSendAttempts mailer.maxAttempts) - 1)
  else .fail .invalidRecipient

/-! ## Reports -/

/-- Claim, send and record. -/
def deliver (key : DeliveryKey)
    (sender : Task DeliveryError (Option Text)) :
    Task AppError DeliveryOutcome := do
  inDeliveries (Orchestrator.Delivery.claimDelivery key)
  let sent : Except DeliveryError (Option Text) ← sender.attempt
  match sent with
  | .ok messageId =>
      let _ ← inDeliveries (Orchestrator.Delivery.query
        (.finishDelivery key messageId none))
      return .sent
  | .error error =>
      let _ ← inDeliveries (Orchestrator.Delivery.query
        (.finishDelivery key none (some error.category)))
      .fail (.delivery error)

/-- Deliver one execution's report by email. -/
def deliverExecutionEmail (mailer : EmailService) (executionId recipient : Text)
    (artifact : EmailArtifact) : Task AppError DeliveryOutcome := do
  let target : Target := ⟨executionId, .email, recipient⟩
  let alreadySent : Bool ← inDeliveries (Orchestrator.Delivery.query
    (.alreadySent target))
  if alreadySent then return .alreadySent
  else
    let deliveryVersion ← inDeliveries
      (Orchestrator.Delivery.resolveDeliveryVersion target)
    let key : DeliveryKey := { target with deliveryVersion := deliveryVersion }
    let existing : Option DeliveryState ← inDeliveries
      (Orchestrator.Delivery.query (.deliveryState key))
    if existing.any fun existing => existing.status = .sent then
      return .alreadySent
    else
      deliver key (mailer.sendArtifact
        (.report artifact.executionId artifact.attemptNumber) recipient artifact)

/-! ## Deletions -/

/-- A rendered account message. -/
structure AccountEmail where
  subject : Text
  textBody : Text
  htmlBody : Text
deriving DecidableEq

/-- The environment: its periods, its addresses, the mailer where one is
configured, the templates and the format of a deadline. -/
structure Settings extends Deletion.LifecycleSettings where
  mailer : Option EmailService
  frontendUrl : Text
  backendBaseUrl : Text
  deletionRequestedEmail :
    (appBaseUrl username deadline cancelUrl : Text) → AccountEmail
  deletionReminderEmail :
    (appBaseUrl username deadline cancelUrl : Text) → AccountEmail
  deletionCompletedEmail : (appBaseUrl username : Text) → AccountEmail
  formatDeadline : Deletion.Timestamp → Text

variable (settings : Settings)

/-- `trim_end_matches('/')` of the address, then the path with the token. -/
def cancelUrl (token : Text) : Text :=
  settings.backendBaseUrl.rdropWhile (· == '/') ++
    ("/auth/account/deletion-cancel?token=" : Text) ++ token

/-- The artifact of an account message. -/
def lifecycleArtifact (identity : Text) (message : AccountEmail) :
    EmailArtifact where
  executionId := identity
  attemptNumber := 1
  subject := message.subject
  textBody := message.textBody
  htmlBody := message.htmlBody

/-- Send where a mailer is configured, and ignore the outcome. -/
def sendIgnored (purpose : Purpose) (recipient : Text)
    (artifact : EmailArtifact) : Task Deletion.DatabaseError Unit :=
  match settings.mailer with
  | none => pure ()
  | some mailer => do
      let _ ← (mailer.sendArtifact purpose recipient artifact).attempt
      return ()

/-- Best-effort confirmation of a deletion request. -/
def sendDeletionEmail (userId : Text) (deadline : Deletion.Timestamp)
    (token : Text) : Task Deletion.DatabaseError Unit := do
  let found : Except Deletion.DatabaseError (Option (Text × Text)) ←
    (inAccounts (Deletion.query (.recipient userId))).attempt
  match found with
  | .ok (some (username, email)) =>
      if email.isBlank then return ()
      else
        sendIgnored settings (.confirmation userId token) email
          (lifecycleArtifact (("deletion-requested-" : Text) ++ userId)
            (settings.deletionRequestedEmail settings.frontendUrl username
              (settings.formatDeadline deadline) (cancelUrl settings token)))
  | _ => return ()

/-- Record a deletion request and confirm it. -/
def requestDeletion (requestId userId token : Text) :
    Task Deletion.DatabaseError Unit := do
  let (deadline, token) ← inAccounts (Deletion.requestDeletion
    settings.toLifecycleSettings requestId userId token)
  sendDeletionEmail settings userId deadline token

/-- Delete the accounts of a list of overdue requests. -/
def deleteDue : List (Text × Text) → Task Deletion.DatabaseError Unit
  | [] => pure ()
  | (requestId, userId) :: rest => do
      let marked : Nat ← inAccounts (Deletion.query
        (.markRequestDeleted requestId))
      if marked = 0 then deleteDue rest
      else
        let _ ← inAccounts (Deletion.query (.markUserDeleted userId))
        let _ ← inAccounts (Deletion.query (.revokeSessions userId requestId))
        let found : Option (Text × Text) ← inAccounts (Deletion.query
          (.recipient userId))
        match found with
        | none => deleteDue rest
        | some (username, email) =>
            if email.isBlank then deleteDue rest
            else
              sendIgnored settings (.completion requestId) email
                (lifecycleArtifact (("deletion-completed-" : Text) ++ requestId)
                  (settings.deletionCompletedEmail settings.frontendUrl
                    username))
              deleteDue rest

/-- Remind of a list of pending requests. -/
def remindAll : List (Text × Text × Text × Deletion.Timestamp) →
    Task Deletion.DatabaseError Unit
  | [] => pure ()
  | (requestId, userId, token, deadline) :: rest => do
      let recipient : Option Text ← inAccounts (Deletion.query (.email userId))
      match recipient with
      | none => pure ()
      | some email =>
          if email.isBlank then pure ()
          else
            sendIgnored settings (.reminder requestId) email
              (lifecycleArtifact (("deletion-reminder-" : Text) ++ requestId)
                (settings.deletionReminderEmail settings.frontendUrl userId
                  (settings.formatDeadline deadline) (cancelUrl settings token)))
      let _ ← inAccounts (Deletion.query (.recordReminder requestId))
      remindAll rest

/-- One housekeeping run. -/
def process : Task Deletion.DatabaseError Unit := do
  let now : Deletion.Timestamp ← inAccounts (Deletion.query .utcNow)
  let due : List (Text × Text) ← inAccounts (Deletion.query (.selectDue now))
  deleteDue settings due
  let reminders : List (Text × Text × Text × Deletion.Timestamp) ←
    .ask (.dueReminders now (now - settings.reminderInterval)) .done
  remindAll settings reminders

/-! ## Operations -/

inductive Operation where
  | deliver (mailer : EmailService) (executionId recipient : Text)
      (artifact : EmailArtifact)
  | requestDeletion (requestId userId token : Text)
  | cancelDeletion (userId token : Text)
  | process

def Operation.program : Operation → Task AppError Unit
  | .deliver mailer executionId recipient artifact =>
      (deliverExecutionEmail mailer executionId recipient artifact).discard
  | .requestDeletion requestId userId token =>
      (Mail.requestDeletion settings requestId userId token).attempt.discard
  | .cancelDeletion userId token =>
      (inAccounts (Deletion.cancelDeletion userId token)).attempt.discard
  | .process => (Mail.process settings).attempt.discard

/-- The characters of a uuid. -/
def uuidCharacter (character : Char) : Bool :=
  Text.isAsciiHexdigit character || character == '-'

/-- An execution is delivered with its own report: its identifier is a uuid
that the server drew, and its attempts are counted from one. -/
def Operation.Permitted : Operation → Prop
  | .deliver _ executionId _ artifact =>
      artifact.executionId = executionId ∧
        executionId.all uuidCharacter = true ∧ 1 ≤ artifact.attemptNumber
  | _ => True

/-- The processes over the tables and the provider. -/
def machine :
    Machine World Statement Statement.Reply AppError Operation where
  answer := Statement.answer
  failure := Statement.failure
  elapse world duration :=
    { world with
      deliveries :=
        { world.deliveries with now := world.deliveries.now + duration }
      accounts := { world.accounts with now := world.accounts.now + duration } }
  program := Operation.program settings
  permitted _ operation := operation.Permitted

abbrev Configuration := Config World Statement Statement.Reply AppError

/-- No delivery, no request and no mail yet. -/
def opening (executions : List Text) (users : List Deletion.UserRow)
    (sessions : List Deletion.UserSession) (reception : Nat → Reception) :
    Configuration where
  state :=
    { deliveries := { now := 0, executions := executions, deliveries := [] }
      accounts :=
        { now := 0
          requests := []
          users := users
          sessions := sessions
          inFlight := [] }
      mailbox := { reception := reception, postings := [] } }
  processes _ := none

end FireCrow.Services.Mail
