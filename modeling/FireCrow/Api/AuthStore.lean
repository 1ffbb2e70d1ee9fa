import FireCrow.Library.Sha256
import FireCrow.Services.DeletionLifecycle
import FireCrow.Services.Sessions

/-!
# The tables behind the logins

The users with their lifecycle columns, the exchange codes, the lockout rows
and the second factors, beside the stores of the tokens and the tables of the
deletion lifecycle.

Beside the tables stands a record that no statement reads: the requests that a
lockout check has let through, with what became of their credential, the
second factors that were verified and the requests that were refused, the
sessions and challenges that were minted, and the users that were let in.
-/

namespace FireCrow.Api.Auth

open FireCrow.Library
open FireCrow.Services

abbrev Timestamp := Sessions.Timestamp

inductive AppError where
  | badRequest
  | unauthorized
  | forbidden
  | invalidCredentials
  | accountLocked
  | rateLimited
  | tokenRevoked
  | internal
  | database
  | token (error : Sessions.AppError)
  | lifecycle (error : Deletion.DatabaseError)
deriving DecidableEq

/-! ## Rows -/

/-- The columns of `users` that the deletion lifecycle does not read. -/
structure UserColumns where
  passwordHash : Option Text
  isActive : Bool
  mfaEnabled : Bool
  mfaSecret : Option Text
deriving DecidableEq

/-- What is decoded of a row of `users`; the deletion mark is not. -/
structure User extends UserColumns where
  id : Text
  username : Text
  email : Option Text
deriving DecidableEq

structure AuthExchangeCode where
  code : Text
  userId : Text
  accessToken : Text
  expiresAt : Timestamp
deriving DecidableEq

structure LoginFailure where
  keyHash : Text
  attemptedAt : Timestamp
deriving DecidableEq

structure MfaConfiguration where
  id : Text
  userId : Text
  backupCodesConsumed : Nat
deriving DecidableEq

structure MfaRecoveryCode where
  mfaConfigId : Text
  codeHash : Text
  usedAt : Option Timestamp
deriving DecidableEq

/-- The user whom the tokens of a family name. -/
structure Subject where
  tokenFamily : Nat
  userId : Text
deriving DecidableEq

/-- A token as it is presented. -/
structure Bearer where
  claims : Sessions.TokenClaims
  sub : Text
deriving DecidableEq

/-! ## Lockout keys -/

inductive LockoutKey where
  | login (normalized : Text)
  | loginIp (clientIp : Text)
  | mfaLogin (userId : Text)
  | mfaRecovery (userId : Text)
deriving DecidableEq

def LockoutKey.text : LockoutKey → Text
  | .login normalized => ("login:" : Text) ++ normalized
  | .loginIp clientIp => ("login_ip:" : Text) ++ clientIp
  | .mfaLogin userId => ("mfa_login:" : Text) ++ userId
  | .mfaRecovery userId => ("mfa_recovery:" : Text) ++ userId

/-- What the endpoints are configured with, and the primitives of the
cryptographic libraries and of the database's `LOWER`. -/
structure AuthSettings where
  sessions : Sessions.SessionSettings
  loginFailureWindowMinutes : Int
  loginFailureLimit : Int
  verifyPassword : Text → Text → Except AppError Bool
  verifyTotp : Text → Text → Timestamp → Bool
  decryptSecret : Text → Option Text
  lower : Text → Text

/-- The window of a key, in seconds. -/
def AuthSettings.window (settings : AuthSettings) : LockoutKey → Int
  | .login _ => settings.loginFailureWindowMinutes * 60
  | .loginIp _ => settings.loginFailureWindowMinutes * 60
  | .mfaLogin _ => 10 * 60
  | .mfaRecovery _ => 10 * 60

def AuthSettings.limit (settings : AuthSettings) : LockoutKey → Int
  | .login _ => settings.loginFailureLimit
  | .loginIp _ => settings.loginFailureLimit
  | .mfaLogin _ => 5
  | .mfaRecovery _ => 5

/-! ## The record -/

/-- What became of the credential of a request that a check let through. -/
inductive Outcome where
  | pending
  | wrong (time : Timestamp) (recorded : Bool)
  | finished
deriving DecidableEq

/-- The request has ended; a wrong credential stays. -/
def Outcome.close : Outcome → Outcome
  | .pending => .finished
  | other => other

/-- A request that the check of a key let through. -/
structure Attempt where
  key : LockoutKey
  outcome : Outcome
deriving DecidableEq

/-- What a session was paid with. -/
inductive Factor where
  | totp
  | recoveryCode (configId codeHash : Text)
deriving DecidableEq

structure Payment where
  attempt : Nat
  challenge : Nat
  factor : Factor
deriving DecidableEq

/-- A session may be the successor of another. -/
inductive Minting where
  | session (userId : Text) (rotates : Option Nat) (payment : Option Payment)
  | challenge (userId : Text)
deriving DecidableEq

def Minting.userId : Minting → Text
  | .session userId _ _ => userId
  | .challenge userId => userId

/-- A second factor that an attempt has verified. -/
structure Verification where
  attempt : Nat
  factor : Factor
deriving DecidableEq

/-- An attempt that has ended with an error. -/
structure Refusal where
  key : LockoutKey
  attempt : Nat
deriving DecidableEq

structure Record where
  attempts : List Attempt
  minted : List Minting
  accepted : List Text
  verified : List Verification
  refused : List Refusal
deriving DecidableEq

structure Tables where
  stores : Sessions.Stores
  accounts : Deletion.Accounts
  columns : Text → UserColumns
  subjects : List Subject
  exchangeCodes : List AuthExchangeCode
  loginFailures : List LoginFailure
  mfaConfigurations : List MfaConfiguration
  recoveryCodes : List MfaRecoveryCode

structure AuthState where
  tables : Tables
  record : Record

section Statements

variable [TextDigest]

def LockoutKey.hash (key : LockoutKey) : Text := TextDigest.hexDigest key.text

/-- A recovery code is stored by its digest. -/
def hashRecoveryCode (code : Text) : Text := TextDigest.hexDigest code

namespace Tables

def decode (tables : Tables) (row : Deletion.UserRow) : User :=
  { tables.columns row.id with
    id := row.id
    username := row.username
    email := row.email }

/-- `WHERE LOWER(username) = $1 OR LOWER(email) = $1`; of several rows any may
be fetched. -/
def findLogin (settings : AuthSettings) (tables : Tables) (normalized : Text)
    (pick : Nat) : Option User :=
  let found := tables.accounts.users.filter fun row =>
    settings.lower row.username = normalized ||
      row.email.any fun email => settings.lower email = normalized
  (found[pick % found.length]?).map tables.decode

def findUser (tables : Tables) (id : Text) : Option User :=
  (tables.accounts.users.find? fun row => row.id = id).map tables.decode

/-- The failures of a key after a time. -/
def countFailures (tables : Tables) (key : LockoutKey)
    (windowStart : Timestamp) : Nat :=
  tables.loginFailures.countP fun failure =>
    failure.keyHash = key.hash && windowStart < failure.attemptedAt

def recordFailure (tables : Tables) (key : LockoutKey)
    (attemptedAt : Timestamp) : Tables :=
  { tables with
    loginFailures := tables.loginFailures ++ [⟨key.hash, attemptedAt⟩] }

def clearFailures (tables : Tables) (key : LockoutKey) : Tables :=
  { tables with
    loginFailures :=
      tables.loginFailures.filter fun failure => failure.keyHash ≠ key.hash }

/-- `DELETE .. WHERE code = $1 AND expires_at > NOW() RETURNING`. -/
def consumeExchangeCode (tables : Tables) (code : Text) :
    Option AuthExchangeCode × Tables :=
  let selects := fun row : AuthExchangeCode =>
    row.code = code && tables.stores.now < row.expiresAt
  (tables.exchangeCodes.find? selects, { tables with
    exchangeCodes := tables.exchangeCodes.filter fun row => !selects row })

def findMfaConfiguration (tables : Tables) (userId : Text) :
    Option MfaConfiguration :=
  tables.mfaConfigurations.find? fun row => row.userId = userId

def countUnused (tables : Tables) (configId : Text) : Nat :=
  tables.recoveryCodes.countP fun row =>
    row.mfaConfigId = configId && row.usedAt.isNone

def unusedCode (configId codeHash : Text) (row : MfaRecoveryCode) : Bool :=
  row.mfaConfigId = configId && (row.codeHash = codeHash && row.usedAt.isNone)

/-- `UPDATE mfa_recovery_codes SET used_at = NOW() .. AND used_at IS NULL`. -/
def consumeRecoveryCode (tables : Tables) (configId codeHash : Text) :
    Nat × Tables :=
  (tables.recoveryCodes.countP (unusedCode configId codeHash), { tables with
    recoveryCodes := tables.recoveryCodes.map fun row =>
      if unusedCode configId codeHash row then
        { row with usedAt := some tables.stores.now }
      else row })

def countConsumed (tables : Tables) (configId : Text) : Tables :=
  { tables with
    mfaConfigurations := tables.mfaConfigurations.map fun row =>
      if row.id = configId then
        { row with backupCodesConsumed := row.backupCodesConsumed + 1 }
      else row }

/-- `UPDATE users SET is_active=false, email=NULL, username='deleted_'||id`. -/
def deactivate (tables : Tables) (userId : Text) : Tables :=
  { tables with
    columns := Function.update tables.columns userId
      { tables.columns userId with isActive := false }
    accounts := { tables.accounts with
      users := tables.accounts.users.map fun row =>
        if row.id = userId then
          { row with
            email := none
            username := ("deleted_" : Text) ++ row.id }
        else row } }

/-- Sign the two tokens of a session for a user. -/
def mintSession (settings : AuthSettings) (tables : Tables) (userId : Text)
    (rotates : Option Nat) : Tables :=
  { tables with
    stores := tables.stores.issueTokens settings.sessions rotates
    subjects := tables.subjects ++ [⟨tables.stores.drawn, userId⟩] }

def mfaChallengeTtlMinutes : Int := 5

/-- Sign a challenge for a user. -/
def mintChallenge (tables : Tables) (userId : Text) : Tables :=
  { tables with
    stores := { tables.stores with
      drawn := tables.stores.drawn + 2
      tokens := tables.stores.tokens ++
        [{ jti := tables.stores.drawn + 1
           tokenFamily := tables.stores.drawn
           tokenType := .mfachallenge
           exp := tables.stores.now + mfaChallengeTtlMinutes * 60
           nbf := tables.stores.now - 5 }] }
    subjects := tables.subjects ++ [⟨tables.stores.drawn, userId⟩] }

end Tables

namespace Record

/-- Change an attempt by its number. -/
def change (record : Record) (attempt : Nat)
    (change : Outcome → Outcome) : Record :=
  { record with
    attempts := record.attempts.modify attempt fun entry =>
      { entry with outcome := change entry.outcome } }

/-- A compared credential was wrong, or there is nothing more to it. -/
def compared (record : Record) (attempt : Nat) (time : Timestamp)
    (right : Bool) : Record :=
  record.change attempt fun outcome =>
    if right then .finished
    else
      match outcome with
      | .pending => .wrong time false
      | other => other

/-- The failure of an attempt has its row, which counts when it is not older
than the attempt. -/
def failed (record : Record) (attempt : Nat) (attemptedAt : Timestamp) :
    Record :=
  record.change attempt fun outcome =>
    match outcome with
    | .pending => .finished
    | .wrong time recorded => .wrong time (recorded || time ≤ attemptedAt)
    | .finished => .finished

/-- The request has ended, perhaps with an error. -/
def ended (record : Record) (key : LockoutKey) (attempt : Nat)
    (succeeded : Bool) : Record :=
  { record.change attempt Outcome.close with
    refused :=
      if succeeded then record.refused
      else record.refused ++ [⟨key, attempt⟩] }

/-- A factor was right. -/
def verifies (record : Record) (attempt : Nat) (factor : Factor)
    (right : Bool) : Record :=
  { record with
    verified :=
      if right then record.verified ++ [⟨attempt, factor⟩]
      else record.verified }

/-- A success ends what was wrong before under the key. -/
def cleared (record : Record) (key : LockoutKey) : Record :=
  { record with
    attempts := record.attempts.map fun entry =>
      match entry.outcome with
      | .wrong .. =>
          if entry.key.hash = key.hash then { entry with outcome := .finished }
          else entry
      | _ => entry }

def passed (record : Record) (key : LockoutKey) : Record :=
  { record with attempts := record.attempts ++ [⟨key, .pending⟩] }

end Record

/-! ## Statements -/

/-- A statement; the attempts in it, with their keys, are for the record
alone. -/
inductive Statement where
  | session (statement : Sessions.Statement) (redeems : Option Nat)
  | lifecycle (statement : Deletion.Statement)
  | utcNow
  | countFailures (key : LockoutKey) (windowStart : Timestamp)
  | recordFailure (key : LockoutKey) (attemptedAt : Timestamp) (attempt : Nat)
  | clearFailures (key : LockoutKey) (attempt : Nat)
  | findLogin (normalized : Text) (pick : Nat)
  | findUser (id : Text)
  | verifyPassword (password passwordHash : Text) (attempts : List Nat)
  | verifyTotp (secret code : Text) (attempt : Nat)
  | consumeExchangeCode (code : Text)
  | findMfaConfiguration (userId : Text)
  | countUnused (configId : Text)
  | consumeRecoveryCode (configId codeHash : Text) (key : LockoutKey)
      (attempt : Nat)
  | countConsumed (configId : Text) (key : LockoutKey) (attempt : Nat)
  | deactivate (userId : Text)
  | mintSession (userId : Text) (rotates : Option Nat)
      (payment : Option Payment)
  | mintChallenge (userId : Text)
  | accept (userId : Text)
  | ended (key : LockoutKey) (attempt : Nat) (succeeded : Bool)

namespace Statement

def Answer : Statement → Type
  | .session .. => Unit
  | .lifecycle _ => Unit
  | .utcNow => Timestamp
  | .countFailures .. => Nat × Nat
  | .recordFailure .. => Unit
  | .clearFailures .. => Unit
  | .findLogin .. => Option User
  | .findUser _ => Option User
  | .verifyPassword .. => Bool
  | .verifyTotp .. => Bool
  | .consumeExchangeCode _ => Option AuthExchangeCode
  | .findMfaConfiguration _ => Option MfaConfiguration
  | .countUnused _ => Nat
  | .consumeRecoveryCode .. => Nat
  | .countConsumed .. => Unit
  | .deactivate _ => Unit
  | .mintSession .. => Unit
  | .mintChallenge _ => Unit
  | .accept _ => Unit
  | .ended .. => Unit

/-- The statements of the token stores and of the lifecycle have replies of
their own. -/
def Reply : Statement → Type
  | .session statement _ => statement.Reply
  | .lifecycle statement => statement.Reply
  | statement => Except AppError statement.Answer

/-- A passing check opens an attempt and answers its number. -/
def checked (settings : AuthSettings) (state : AuthState) (key : LockoutKey)
    (windowStart : Timestamp) : (Nat × Nat) × AuthState :=
  let count := state.tables.countFailures key windowStart
  ((count, state.record.attempts.length),
    if count < settings.limit key then
      { state with record := state.record.passed key }
    else state)

def answer (settings : AuthSettings) (state : AuthState) :
    (statement : Statement) → statement.Reply × AuthState
  | .session statement _ =>
      let result := statement.answer settings.sessions state.tables.stores
      (result.1, { state with
        tables := { state.tables with stores := result.2 } })
  | .lifecycle statement =>
      let result := statement.answer state.tables.accounts
      (result.1, { state with
        tables := { state.tables with accounts := result.2 } })
  | .utcNow => (.ok state.tables.stores.now, state)
  | .countFailures key windowStart =>
      let result := checked settings state key windowStart
      (.ok result.1, result.2)
  | .recordFailure key attemptedAt attempt =>
      (.ok (), ⟨state.tables.recordFailure key attemptedAt,
        state.record.failed attempt attemptedAt⟩)
  | .clearFailures key _ =>
      (.ok (), ⟨state.tables.clearFailures key, state.record.cleared key⟩)
  | .findLogin normalized pick =>
      (.ok (state.tables.findLogin settings normalized pick), state)
  | .findUser id => (.ok (state.tables.findUser id), state)
  | .verifyPassword password passwordHash attempts =>
      match settings.verifyPassword password passwordHash with
      | .error error => (.error error, state)
      | .ok right =>
          (.ok right, { state with
            record := attempts.foldl
              (fun record attempt =>
                record.compared attempt state.tables.stores.now right)
              state.record })
  | .verifyTotp secret code attempt =>
      let right := settings.verifyTotp secret code state.tables.stores.now
      (.ok right, { state with
        record :=
          (state.record.compared attempt state.tables.stores.now right).verifies
            attempt .totp right })
  | .consumeExchangeCode code =>
      let result := state.tables.consumeExchangeCode code
      (.ok result.1, { state with tables := result.2 })
  | .findMfaConfiguration userId =>
      (.ok (state.tables.findMfaConfiguration userId), state)
  | .countUnused configId => (.ok (state.tables.countUnused configId), state)
  | .consumeRecoveryCode configId codeHash _ attempt =>
      let result := state.tables.consumeRecoveryCode configId codeHash
      let right := decide (0 < result.1)
      (.ok result.1, ⟨result.2,
        (state.record.compared attempt state.tables.stores.now right).verifies
          attempt (.recoveryCode configId codeHash) right⟩)
  | .countConsumed configId _ _ =>
      (.ok (), { state with tables := state.tables.countConsumed configId })
  | .deactivate userId =>
      (.ok (), { state with tables := state.tables.deactivate userId })
  | .mintSession userId rotates payment =>
      (.ok (), ⟨state.tables.mintSession settings userId rotates,
        { state.record with
          minted :=
            state.record.minted ++ [.session userId rotates payment] }⟩)
  | .mintChallenge userId =>
      (.ok (), ⟨state.tables.mintChallenge userId,
        { state.record with
          minted := state.record.minted ++ [.challenge userId] }⟩)
  | .accept userId =>
      (.ok (), { state with
        record := { state.record with
          accepted := state.record.accepted ++ [userId] } })
  | .ended key attempt succeeded =>
      (.ok (), { state with
        record := state.record.ended key attempt succeeded })

/-- The reply of a connection that fails. -/
def failure : (statement : Statement) → statement.Reply
  | .session statement _ =>
      .error (if statement.onRedis then .redisError else .database)
  | .lifecycle _ => .error .unavailable
  | .utcNow => .error .database
  | .countFailures .. => .error .database
  | .recordFailure .. => .error .database
  | .clearFailures .. => .error .database
  | .findLogin .. => .error .database
  | .findUser _ => .error .database
  | .verifyPassword .. => .error .database
  | .verifyTotp .. => .error .database
  | .consumeExchangeCode _ => .error .database
  | .findMfaConfiguration _ => .error .database
  | .countUnused _ => .error .database
  | .consumeRecoveryCode .. => .error .database
  | .countConsumed .. => .error .database
  | .deactivate _ => .error .database
  | .mintSession .. => .error .database
  | .mintChallenge _ => .error .database
  | .accept _ => .error .database
  | .ended .. => .error .database

end Statement

end Statements

end FireCrow.Api.Auth
