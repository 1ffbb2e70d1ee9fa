import FireCrow.Library.Holdings
import FireCrow.Library.Table

/-!
# The lifecycle of a second factor

The MFA columns, the configuration and the recovery codes of one user, and the
endpoints that enroll, activate, regenerate and disable, statement by
statement, with the redemption of recovery codes.  Beside the rows stands a
record, which no statement reads: what was verified, shown and consumed, which
calls have written, and how far the call between its first write and its
response has come.
-/

namespace FireCrow.Api.Mfa

open FireCrow.Library

/-- The decryption of stored secrets and the verification of codes. -/
class MfaService where
  decryptSecret : Text → Option Text
  verifyTotp : (secret token : Text) → Bool

inductive DatabaseError where
  | uniqueViolation
  | foreignKeyViolation
  | unavailable
deriving DecidableEq

inductive AppError where
  | badRequest (message : Text)
  | crypto
  | database (error : DatabaseError)
deriving DecidableEq

/-! ## Rows -/

/-- A row of `mfa_configurations`. -/
structure MfaConfiguration where
  id : Text
  enabled : Bool
  secret : Text
  backupCodesConsumed : Nat
deriving DecidableEq

/-- A row of `mfa_recovery_codes`. -/
structure MfaRecoveryCode where
  id : Text
  mfaConfigId : Text
  codeHash : Text
  used : Bool
deriving DecidableEq

/-- How far an activation, a regeneration or a disabling has come between its
first write and its response. -/
inductive Stage where
  /-- The flag is set by an activation. -/
  | enabled
  /-- So many hashes are written under a configuration. -/
  | writing (configId : Text) (written : List Text)
  /-- The flag and the secret are cleared. -/
  | disabling
  | owning (configId : Text)
  | emptied (configId : Text)
  | bare
deriving DecidableEq

/-- What a call that succeeds has done: stored a secret, written the codes
that its response shows, or disabled the factor. -/
inductive Response where
  | stored
  | codes (configId : Text) (shown : List Text)
  | disabled
deriving DecidableEq

section Model

variable [MfaService]

/-- A token that was verified for a stored secret. -/
structure Verification where
  stored : Text
  token : Text
  secret : Text
  decrypted : MfaService.decryptSecret stored = some secret
  valid : MfaService.verifyTotp secret token = true

/-- The rows of one user, whose configuration is unique, and the record. -/
structure Account where
  mfaEnabled : Bool
  mfaSecret : Option Text
  configuration : Option MfaConfiguration
  codes : List MfaRecoveryCode
  calls : Nat
  stage : Option (Nat × Stage)
  verified : List Verification
  shown : List Text
  consumed : List Text
  writers : List Nat
  refused : List Nat

namespace Account

/-- A call makes the first of its writes. -/
def enter (account : Account) (call : Nat) (stage : Stage) : Account :=
  { account with
    writers := call :: account.writers
    stage := if account.stage = none then some (call, stage) else account.stage }

/-- A call comes from one stage to the next, or to its end. -/
def move (account : Account) (call : Nat) (source : Stage)
    (target : Option Stage) : Account :=
  { account with
    stage := if account.stage = some (call, source)
      then target.map fun stage => (call, stage) else account.stage }

/-- `UPDATE users SET mfa_secret = …`. -/
def setSecret (account : Account) (call : Nat) (secret : Text) : Account :=
  { account with
    mfaSecret := some secret
    writers := call :: account.writers }

/-- `UPDATE users SET mfa_enabled = true`. -/
def enable (account : Account) (call : Nat) (verification : Verification) :
    Account :=
  { account with
    mfaEnabled := true
    verified := verification :: account.verified }.enter call .enabled

/-- `INSERT INTO mfa_configurations … ON CONFLICT (user_id) DO UPDATE`, which
keeps the identifier of the row that is there. -/
def upsertConfiguration (account : Account) (call : Nat)
    (configId secret : Text) : Account :=
  { account with
    configuration := match account.configuration with
      | none =>
          some
            { id := configId
              enabled := true
              secret := secret
              backupCodesConsumed := 0 }
      | some present => some { present with enabled := true, secret := secret }
    consumed := [] }.move call .enabled (some (.writing configId []))

/-- `INSERT INTO mfa_recovery_codes`, under its keys. -/
def insertCode (account : Account) (call : Nat) (written : List Text)
    (codeId configId codeHash : Text) : Except DatabaseError (Unit × Account) :=
  if account.codes.any fun code => code.id = codeId then
    .error .uniqueViolation
  else if account.configuration.all fun present => present.id ≠ configId then
    .error .foreignKeyViolation
  else
    let after : Account :=
      { account with
        codes := account.codes ++
          [{ id := codeId
             mfaConfigId := configId
             codeHash := codeHash
             used := false }]
        consumed := account.consumed.filter fun other => other ≠ codeHash }
    .ok ((), after.move call (.writing configId written)
      (some (.writing configId (written ++ [codeHash]))))

/-- The codes that a configuration leaves when its own are deleted. -/
def otherCodes (account : Account) (configId : Text) : List MfaRecoveryCode :=
  account.codes.filter fun code => code.mfaConfigId ≠ configId

/-- The deletion that begins a regeneration. -/
def resetCodes (account : Account) (call : Nat) (configId : Text) : Account :=
  { account with
    codes := account.otherCodes configId
    consumed := [] }.enter call (.writing configId [])

/-- `UPDATE users SET mfa_enabled = false, mfa_secret = NULL`. -/
def disable (account : Account) (call : Nat) : Account :=
  { account with mfaEnabled := false, mfaSecret := none }.enter call .disabling

/-- The query between the writes of `disable_mfa`. -/
def ownConfiguration (account : Account) (call : Nat) :
    Option MfaConfiguration × Account :=
  (account.configuration, account.move call .disabling
    (some (account.configuration.elim .bare fun present => .owning present.id)))

def deleteCodes (account : Account) (call : Nat) (configId : Text) : Account :=
  { account with codes := account.otherCodes configId }.move call
    (.owning configId) (some (.emptied configId))

/-- The codes of a configuration are deleted with it. -/
def deleteConfiguration (account : Account) (call : Nat) (configId : Text) :
    Account :=
  { account with
    configuration := account.configuration.filter fun present =>
      present.id ≠ configId
    codes := account.otherCodes configId }.move call (.emptied configId)
      (some .bare)

/-- The rows that `UPDATE mfa_recovery_codes SET used_at = …` selects. -/
def redeems (configId codeHash : Text) (code : MfaRecoveryCode) : Bool :=
  code.mfaConfigId = configId && (code.codeHash = codeHash && !code.used)

def consumeCode (account : Account) (configId codeHash : Text) :
    Nat × Account :=
  let affected := account.codes.countP (redeems configId codeHash)
  (affected, { account with
    codes := Table.set (redeems configId codeHash)
      (fun code => { code with used := true }) account.codes
    consumed :=
      if affected = 0 then account.consumed else codeHash :: account.consumed })

def countConsumed (account : Account) (configId : Text) : Account :=
  { account with
    configuration := account.configuration.map fun present =>
      if present.id = configId then
        { present with backupCodesConsumed := present.backupCodesConsumed + 1 }
      else present }

/-- A call returns with an error or with its response, which shows codes or
withdraws them. -/
def respond (account : Account) (call : Nat) : Option Response → Account
  | none => { account with refused := call :: account.refused }
  | some .stored => account
  | some (.codes configId shown) =>
      { account with shown := shown }.move call (.writing configId shown) none
  | some .disabled => { account with shown := [] }.move call .bare none

end Account

/-! ## Statements -/

/-- A statement of the endpoints, with the number of its call where it writes;
the beginning and the response of a call are its own. -/
inductive Statement where
  | begin
  | selectUser
  | selectConfiguration
  | setSecret (call : Nat) (secret : Text)
  | enable (call : Nat) (verification : Verification)
  | upsertConfiguration (call : Nat) (configId secret : Text)
  | insertCode (call : Nat) (written : List Text)
      (codeId configId codeHash : Text)
  | resetCodes (call : Nat) (configId : Text)
  | disable (call : Nat)
  | ownConfiguration (call : Nat)
  | deleteCodes (call : Nat) (configId : Text)
  | deleteConfiguration (call : Nat) (configId : Text)
  | consumeCode (configId codeHash : Text)
  | countConsumed (configId : Text)
  | respond (call : Nat) (response : Option Response)

namespace Statement

def Answer : Statement → Type
  | .begin => Nat
  | .selectUser => Option Text
  | .selectConfiguration => Option MfaConfiguration
  | .ownConfiguration _ => Option MfaConfiguration
  | .consumeCode .. => Nat
  | _ => Unit

def run (account : Account) : (statement : Statement) →
    Except AppError (statement.Answer × Account)
  | .begin => .ok (account.calls, { account with calls := account.calls + 1 })
  | .selectUser => .ok (account.mfaSecret, account)
  | .selectConfiguration => .ok (account.configuration, account)
  | .setSecret call secret => .ok ((), account.setSecret call secret)
  | .enable call verification => .ok ((), account.enable call verification)
  | .upsertConfiguration call configId secret =>
      .ok ((), account.upsertConfiguration call configId secret)
  | .insertCode call written codeId configId codeHash =>
      (account.insertCode call written codeId configId codeHash).mapError
        .database
  | .resetCodes call configId => .ok ((), account.resetCodes call configId)
  | .disable call => .ok ((), account.disable call)
  | .ownConfiguration call => .ok (account.ownConfiguration call)
  | .deleteCodes call configId => .ok ((), account.deleteCodes call configId)
  | .deleteConfiguration call configId =>
      .ok ((), account.deleteConfiguration call configId)
  | .consumeCode configId codeHash =>
      .ok (account.consumeCode configId codeHash)
  | .countConsumed configId => .ok ((), account.countConsumed configId)
  | .respond call response => .ok ((), account.respond call response)

abbrev Reply (statement : Statement) : Type := Except AppError statement.Answer

/-- A refused statement leaves the rows. -/
def answer (account : Account) (statement : Statement) :
    statement.Reply × Account :=
  match statement.run account with
  | .ok (answer, after) => (.ok answer, after)
  | .error error => (.error error, account)

end Statement

/-! ## The endpoints -/

abbrev Task := Program Statement Statement.Reply AppError

def query (statement : Statement) : Task statement.Answer :=
  .ask statement .done

/-- A call and its response. -/
def answering (body : Nat → Task Response) : Task Unit := do
  let call : Nat ← query .begin
  let result : Except AppError Response ← (body call).attempt
  match result with
  | .ok response => query (.respond call (some response))
  | .error error => do
      let _ ← query (.respond call none)
      .fail error

/-- Store a fresh secret, which the encryption may refuse. -/
def enrollMfa (encrypted : Option Text) (call : Nat) : Task Response :=
  match encrypted with
  | none => .fail .crypto
  | some encrypted => do
      let _ ← query (.setSecret call encrypted)
      return .stored

/-- Store the hashes, each under an identifier of its own. -/
def persistRecoveryCodes (call : Nat) (configId : Text) :
    List (Text × Text) → (written : List Text) → Task Response
  | [], written => return .codes configId written
  | (codeId, codeHash) :: rest, written => do
      let _ ← query (.insertCode call written codeId configId codeHash)
      persistRecoveryCodes call configId rest (written ++ [codeHash])

/-- Decrypt the stored secret and verify a token for it. -/
def verifyToken (encrypted token : Text) : Except AppError Verification :=
  match decrypted : MfaService.decryptSecret encrypted with
  | none => .error .crypto
  | some secret =>
      if valid : MfaService.verifyTotp secret token = true then
        .ok ⟨encrypted, token, secret, decrypted, valid⟩
      else .error (.badRequest "Invalid MFA verification token")

/-- Set the flag, and write the configuration and the recovery codes. -/
def writeActivation (verification : Verification) (configId : Text)
    (codes : List (Text × Text)) (call : Nat) : Task Response := do
  let _ ← query (.enable call verification)
  let _ ← query (.upsertConfiguration call configId verification.stored)
  persistRecoveryCodes call configId codes []

/-- Verify a token for the stored secret and activate the factor. -/
def activateMfa (token : Option Text) (configId : Text)
    (codes : List (Text × Text)) (call : Nat) : Task Response :=
  match token with
  | none => .fail (.badRequest "Missing MFA token")
  | some token => do
      let stored : Option Text ← query .selectUser
      match stored with
      | none =>
          .fail (.badRequest "MFA secret not set. Please enroll first.")
      | some encrypted => do
          let verification ← .done (verifyToken encrypted token)
          writeActivation verification configId codes call

/-- Replace the recovery codes. -/
def regenerateCodes (codes : List (Text × Text)) (call : Nat) : Task Response := do
  let configuration : Option MfaConfiguration ← query .selectConfiguration
  match configuration with
  | none => .fail (.badRequest "MFA not configured")
  | some present => do
      let _ ← query (.resetCodes call present.id)
      persistRecoveryCodes call present.id codes []

/-- Clear the flag and the secret, then delete the codes and the
configuration, whatever becomes of that. -/
def disableMfa (call : Nat) : Task Response := do
  let _ ← query (.disable call)
  let configuration : Option MfaConfiguration ← query (.ownConfiguration call)
  match configuration with
  | none => return .disabled
  | some present => do
      let _ : Except AppError Unit ←
        (query (.deleteCodes call present.id)).attempt
      let _ : Except AppError Unit ←
        (query (.deleteConfiguration call present.id)).attempt
      return .disabled

/-- Redeem a recovery code, as the login and the recovery endpoint do. -/
def tryConsumeRecoveryCode (codeHash : Text) : Task Bool := do
  let configuration : Option MfaConfiguration ← query .selectConfiguration
  match configuration with
  | none => return false
  | some present => do
      let consumed : Nat ← query (.consumeCode present.id codeHash)
      if consumed = 0 then return false
      else do
        let _ ← query (.countConsumed present.id)
        return true

/-- The requests; identifiers and hashes are drawn by the caller. -/
inductive Operation where
  | enroll (encrypted : Option Text)
  | activate (token : Option Text) (configId : Text)
      (codes : List (Text × Text))
  | regenerate (codes : List (Text × Text))
  | disable
  | redeem (codeHash : Text)

def Operation.program : Operation → Task Unit
  | .enroll encrypted => answering (enrollMfa encrypted)
  | .activate token configId codes =>
      answering (activateMfa token configId codes)
  | .regenerate codes => answering (regenerateCodes codes)
  | .disable => answering disableMfa
  | .redeem codeHash => (tryConsumeRecoveryCode codeHash).discard

/-- The requests over one user's rows. -/
def machine : Machine Account Statement Statement.Reply AppError Operation where
  answer := Statement.answer
  failure _ := .error (.database .unavailable)
  elapse account _ := account
  program := Operation.program
  permitted _ _ := True

instance (account : Account) (operation : Operation) :
    Decidable (machine.permitted account operation) :=
  isTrue trivial

abbrev Configuration := Config Account Statement Statement.Reply AppError

/-- A user who has not enrolled. -/
def fresh : Configuration where
  state :=
    { mfaEnabled := false
      mfaSecret := none
      configuration := none
      codes := []
      calls := 0
      stage := none
      verified := []
      shown := []
      consumed := []
      writers := []
      refused := [] }
  processes _ := none

end Model

end FireCrow.Api.Mfa
