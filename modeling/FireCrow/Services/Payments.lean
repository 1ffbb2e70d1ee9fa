import FireCrow.Library.Holdings
import FireCrow.Library.Text

/-!
# Payments

`record_payment` and the webhook of the payment provider, statement by
statement.  A transaction reads what has been committed; its insert and its
update stay its own until it commits.  An insert whose reference an open
transaction has inserted, and an update of a row that an open transaction has
updated, wait for that transaction.

Amounts and balances are rationals.
-/

namespace FireCrow.Services.Payments

open FireCrow.Library

abbrev Timestamp := Int

/-! ## Tables -/

structure CreatePaymentRequest where
  tenantId : Option Text
  amount : Rat
  currency : Option Text
  paymentProvider : Option Text
  transactionReference : Text
  description : Option Text
deriving DecidableEq

/-- A row of `payment_records`. -/
structure PaymentRecord where
  id : Text
  userId : Text
  tenantId : Option Text
  amount : Rat
  currency : Text
  status : Text
  paymentProvider : Text
  transactionReference : Text
  description : Option Text
  receiptPdfUrl : Option Text
  createdAt : Timestamp
deriving DecidableEq

/-- A row with a balance. -/
inductive Account where
  | user (id : Text)
  | tenant (id : Text)
deriving DecidableEq

/-- The account that a payment credits: the tenant that it names, else the
user. -/
def creditedAccount (userId : Text) : Option Text → Account
  | some tenantId => .tenant tenantId
  | none => .user userId

def PaymentRecord.account (record : PaymentRecord) : Account :=
  creditedAccount record.userId record.tenantId

inductive DatabaseError where
  | unavailable
  | uniqueViolation (constraint : Text)
  | foreignKeyViolation
  | stringDataRightTruncation
deriving DecidableEq

inductive AppError where
  | database (error : DatabaseError)
  | badRequest (message : Text)
deriving DecidableEq

/-- How far a transaction has come: what it has inserted, and the row that it
has updated with its new balance. -/
inductive Stage where
  | begun
  | inserted (record : PaymentRecord)
  | credited (record : PaymentRecord) (account : Account) (balance : Rat)
deriving DecidableEq

structure Transaction where
  number : Nat
  stage : Stage
deriving DecidableEq

def Stage.record? : Stage → Option PaymentRecord
  | .begun => none
  | .inserted record => some record
  | .credited record _ _ => some record

def Stage.locked? : Stage → Option Account
  | .credited _ account _ => some account
  | _ => none

/-- What a call returns, with its transaction. -/
structure Outcome where
  transaction : Nat
  result : Except AppError PaymentRecord
deriving DecidableEq

/-- What a caller receives. -/
structure Response where
  userId : Text
  request : CreatePaymentRequest
  outcome : Except AppError Outcome
deriving DecidableEq

/-- The committed tables, the open transactions, and what has happened: the
transactions that have committed, those whose insert found its reference in
the table, those whose insert was refused for anything else, and the
responses.  No statement reads what has happened. -/
structure Database where
  users : Text → Option Rat
  tenants : Text → Option (Option Rat)
  records : List PaymentRecord
  transactions : List Transaction
  nextTransaction : Nat
  clock : Timestamp
  committed : List Nat
  clashes : List Nat
  refused : List Nat
  responses : List Response

namespace Database

/-- `COALESCE(credit_balance, 0.0)` of the row, if there is one. -/
def balance (db : Database) : Account → Option Rat
  | .user id => db.users id
  | .tenant id => (db.tenants id).map fun balance => balance.getD 0

def setBalance (db : Database) (balance : Rat) : Account → Database
  | .user id => { db with users := Function.update db.users id (some balance) }
  | .tenant id =>
      { db with
        tenants := Function.update db.tenants id (some (some balance)) }

def transaction? (db : Database) (number : Nat) : Option Transaction :=
  db.transactions.find? fun transaction => transaction.number = number

/-- The transaction ends without a commit. -/
def release (db : Database) (number : Nat) : Database :=
  { db with
    transactions := db.transactions.filter fun transaction =>
      transaction.number ≠ number }

/-- The transaction has come further. -/
def advance (db : Database) (number : Nat) (stage : Stage) : Database :=
  { db with
    transactions := db.transactions.map fun transaction =>
      if transaction.number = number then ⟨number, stage⟩ else transaction }

end Database

/-! ## Constraints -/

/-- The widths of the columns, and no character that PostgreSQL does not
store. -/
def PaymentRecord.fits (record : PaymentRecord) : Bool :=
  let texts := [record.id, record.userId, record.currency, record.status,
    record.paymentProvider, record.transactionReference] ++
      record.tenantId.toList ++ record.description.toList ++
      record.receiptPdfUrl.toList
  record.id.length ≤ 128 && record.userId.length ≤ 128 &&
    (record.tenantId.all fun tenantId => tenantId.length ≤ 128) &&
    record.currency.length ≤ 16 && record.status.length ≤ 64 &&
    record.paymentProvider.length ≤ 64 &&
    record.transactionReference.length ≤ 255 &&
    texts.all fun text => !text.any (· == Char.ofNat 0)

/-- The rows that the foreign keys name. -/
def Database.references (db : Database) (record : PaymentRecord) : Bool :=
  (db.users record.userId).isSome &&
    record.tenantId.all fun tenantId => (db.tenants tenantId).isSome

def primaryKey : Text := "payment_records_pkey"

def referenceKey : Text := "payment_records_transaction_reference_key"

/-! ## Statements -/

inductive Statement where
  | utcNow
  | beginTransaction
  | selectByReference (transaction : Nat) (reference : Text)
  | insert (transaction : Nat) (record : PaymentRecord)
  | credit (transaction : Nat) (account : Account) (amount : Rat)
  | commit (transaction : Nat)
  | disconnect (transaction : Nat)
  | respond (response : Response)

namespace Statement

def Answer : Statement → Type
  | .utcNow => Timestamp
  | .beginTransaction => Nat
  | .selectByReference .. => Option PaymentRecord
  | .insert .. => PaymentRecord
  | _ => Unit

abbrev Reply (statement : Statement) : Type := Except AppError statement.Answer

end Statement

/-- A statement of a transaction that is over, or one that waits. -/
def unavailable : AppError := .database .unavailable

namespace Database

/-- Another open transaction has inserted the reference or the id. -/
def insertWaits (db : Database) (number : Nat) (record : PaymentRecord) :
    Bool :=
  db.transactions.any fun other =>
    other.number ≠ number && other.stage.record?.any fun held =>
      held.transactionReference = record.transactionReference ||
        held.id = record.id

/-- `INSERT INTO payment_records … RETURNING *`.  An error ends the
transaction: the call drops it. -/
def insert (db : Database) (number : Nat) (record : PaymentRecord) :
    Except AppError PaymentRecord × Database :=
  match db.transaction? number with
  | some ⟨_, .begun⟩ =>
      if !record.fits then
        (.error (.database .stringDataRightTruncation),
          { db.release number with refused := db.refused ++ [number] })
      else if db.records.any fun other =>
          other.transactionReference = record.transactionReference then
        (.error (.database (.uniqueViolation referenceKey)),
          { db.release number with clashes := db.clashes ++ [number] })
      else if db.records.any fun other => other.id = record.id then
        (.error (.database (.uniqueViolation primaryKey)),
          { db.release number with refused := db.refused ++ [number] })
      else if db.insertWaits number record then (.error unavailable, db)
      else if !db.references record then
        (.error (.database .foreignKeyViolation),
          { db.release number with refused := db.refused ++ [number] })
      else (.ok record, db.advance number (.inserted record))
  -- A call inserts once.
  | _ => (.error unavailable, db)

/-- Another open transaction has updated the row. -/
def updateWaits (db : Database) (number : Nat) (account : Account) : Bool :=
  db.transactions.any fun other =>
    other.number ≠ number && other.stage.locked? == some account

/-- `UPDATE … SET credit_balance = COALESCE(credit_balance, 0.0) + $1 WHERE
id = $2`. -/
def credit (db : Database) (number : Nat) (account : Account) (amount : Rat) :
    Except AppError Unit × Database :=
  match db.transaction? number with
  | some ⟨_, .inserted record⟩ =>
      match db.balance account with
      | none => (.ok (), db)
      | some balance =>
          if db.updateWaits number account then (.error unavailable, db)
          else
            (.ok (), db.advance number
              (.credited record account (balance + amount)))
  -- A call updates once, after its insert.
  | _ => (.error unavailable, db)

/-- The committed tables with what a transaction has written. -/
def apply (db : Database) : Stage → Database
  | .begun => db
  | .inserted record => { db with records := db.records ++ [record] }
  | .credited record account balance =>
      { db.setBalance balance account with records := db.records ++ [record] }

def commit (db : Database) (number : Nat) : Except AppError Unit × Database :=
  match db.transaction? number with
  | none => (.error unavailable, db)
  | some transaction =>
      (.ok (), { (db.apply transaction.stage).release number with
        committed := db.committed ++ [number] })

end Database

/-- What a statement answers and does. -/
def Statement.answer (db : Database) :
    (statement : Statement) → statement.Reply × Database
  | .utcNow => (.ok db.clock, db)
  | .beginTransaction =>
      (.ok db.nextTransaction, { db with
        transactions := db.transactions ++ [⟨db.nextTransaction, .begun⟩]
        nextTransaction := db.nextTransaction + 1 })
  | .selectByReference transaction reference =>
      match db.transaction? transaction with
      | some ⟨_, .begun⟩ =>
          (.ok (db.records.find? fun record =>
            record.transactionReference = reference), db)
      -- A call selects before it inserts.
      | _ => (.error unavailable, db)
  | .insert transaction record => db.insert transaction record
  | .credit transaction account amount => db.credit transaction account amount
  | .commit transaction => db.commit transaction
  | .disconnect transaction => (.ok (), db.release transaction)
  | .respond response =>
      (.ok (), { db with responses := db.responses ++ [response] })

/-! ## Operations -/

abbrev Task := Program Statement Statement.Reply AppError

def ask (statement : Statement) : Task statement.Answer := .ask statement .done

/-- The lookup that a blank reference skips. -/
def existingRecord (transaction : Nat) (req : CreatePaymentRequest) :
    Task (Option PaymentRecord) :=
  if !req.transactionReference.trim.isEmpty then
    ask (.selectByReference transaction req.transactionReference)
  else pure none

/-- The row that a call inserts. -/
def newRecord (id userId : Text) (req : CreatePaymentRequest)
    (now : Timestamp) : PaymentRecord where
  id := id
  userId := userId
  tenantId := req.tenantId
  amount := req.amount
  currency := req.currency.getD "USD"
  status := "completed"
  paymentProvider := req.paymentProvider.getD "stripe"
  transactionReference := req.transactionReference
  description := req.description
  receiptPdfUrl := some (("/api/v1/billing/receipt/" : Text) ++ id)
  createdAt := now

/-- `record_payment`, with the id that it draws. -/
def recordPayment (id userId : Text) (req : CreatePaymentRequest) :
    Task Outcome := do
  if req.amount ≤ 0 then
    .fail (.badRequest "Payment amount must be a positive number")
  else
    let transaction : Nat ← ask .beginTransaction
    let existing ← existingRecord transaction req
    match existing with
    | some record =>
        let _ ← ask (.commit transaction)
        return ⟨transaction, .ok record⟩
    | none =>
        let now : Timestamp ← ask .utcNow
        let inserted : Except AppError PaymentRecord ←
          (ask (.insert transaction (newRecord id userId req now))).attempt
        match inserted with
        | .error error => return ⟨transaction, .error error⟩
        | .ok record =>
            let _ ← ask (.credit transaction
              (creditedAccount userId req.tenantId) req.amount)
            let _ ← ask (.commit transaction)
            return ⟨transaction, .ok record⟩

/-- A call, up to its response. -/
def call (id userId : Text) (req : CreatePaymentRequest) : Task Unit := do
  let outcome ← (recordPayment id userId req).attempt
  let _ ← ask (.respond ⟨userId, req, outcome⟩)

structure DodoWebhookEvent where
  eventType : Text
  paymentId : Text
  userId : Text
  tenantId : Option Text
  amount : Rat
  currency : Option Text
  transactionReference : Text
deriving DecidableEq

def allowedWebhookEventTypes : List Text :=
  [("payment.succeeded" : Text), ("subscription.active" : Text)]

def creditsBalance (eventType : Text) : Bool :=
  allowedWebhookEventTypes.contains eventType

/-- `process_webhook`. -/
def processWebhook (id : Text) (event : DodoWebhookEvent) : Task Unit :=
  if !creditsBalance event.eventType then
    .fail (.badRequest "Unsupported webhook event type")
  else
    call id event.userId
      { tenantId := event.tenantId
        amount := event.amount
        currency := event.currency
        paymentProvider := some "dodo_payments"
        transactionReference := event.transactionReference
        description :=
          some (("Dodo Payments Event: " : Text) ++ event.eventType) }

/-- A call, a delivery of the provider, or the loss of a connection. -/
inductive Operation where
  | recordPayment (id userId : Text) (req : CreatePaymentRequest)
  | processWebhook (id : Text) (event : DodoWebhookEvent)
  | disconnect (transaction : Nat)

def Operation.program : Operation → Task Unit
  | .recordPayment id userId req => call id userId req
  | .processWebhook id event => Payments.processWebhook id event
  | .disconnect transaction => (ask (.disconnect transaction)).discard

def machine : Machine Database Statement Statement.Reply AppError Operation where
  answer := Statement.answer
  failure _ := .error unavailable
  elapse db duration := { db with clock := db.clock + duration }
  program := Operation.program
  permitted _ _ := True

instance (db : Database) (operation : Operation) :
    Decidable (machine.permitted db operation) :=
  inferInstanceAs (Decidable True)

abbrev Configuration := Config Database Statement Statement.Reply AppError

end FireCrow.Services.Payments
