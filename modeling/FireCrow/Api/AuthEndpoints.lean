import FireCrow.Api.AuthStore
import FireCrow.Library.Unicode

/-!
# The endpoints that mint and accept sessions

A login checks its lockout keys, compares a password and mints a session, or a
challenge where the account has a second factor; an exchange code stands for
the password.  A challenge is redeemed with a second factor, a refresh token
with itself.  The gate of every other request reads the user's row again.

The credential-abuse gate, the security log and the time of the last login,
which decide nothing, are left out.
-/

namespace FireCrow.Api.Auth

open FireCrow.Library
open FireCrow.Services

section Endpoints

variable [TextDigest]

abbrev Task := Program Statement Statement.Reply AppError

/-- A program over the stores of the tokens, which may redeem a challenge. -/
def onStores {Result : Type} (task : Sessions.Task Result)
    (redeems : Option Nat) : Task Result := do
  let result ← (task.lift (.session · redeems) fun _ reply => reply).attempt
  .done (result.mapError .token)

/-- A program over the tables of the deletion lifecycle. -/
def onAccounts {Result : Type} (task : Deletion.Task Result) :
    Task Result := do
  let result ← (task.lift .lifecycle fun _ reply => reply).attempt
  .done (result.mapError .lifecycle)

def utcNow : Task Timestamp := .ask .utcNow .done

/-! ## The lockout -/

/-- Whether a key is locked, with the number of the attempt. -/
def checkLoginLockout (settings : AuthSettings) (key : LockoutKey) :
    Task (Bool × Nat) := do
  let now ← utcNow
  let windowStart := now - settings.window key
  let counted : Nat × Nat ← .ask (.countFailures key windowStart) .done
  return (decide (settings.limit key ≤ counted.1), counted.2)

def recordLoginFailure (key : LockoutKey) (attempt : Nat) : Task Unit := do
  let now ← utcNow
  .ask (.recordFailure key now attempt) .done

def clearLoginFailures (key : LockoutKey) (attempt : Nat) : Task Unit :=
  .ask (.clearFailures key attempt) .done

/-- What a request does once a key has let it through, and its end. -/
def closing {Result : Type} (key : LockoutKey) (attempt : Nat)
    (body : Task Result) : Task Result := do
  let result : Except AppError Result ← body.attempt
  let _ ← (.ask (.ended key attempt result.isOk) .done : Task Unit).attempt
  .done result

/-- Run what follows unless the key is locked. -/
def unlessLocked {Result : Type} (settings : AuthSettings) (key : LockoutKey)
    (locked : AppError) (body : Nat → Task Result) : Task Result := do
  let checked ← checkLoginLockout settings key
  if checked.1 then .fail locked
  else closing key checked.2 (body checked.2)

/-! ## Minting -/

def sessionResponse (userId : Text) (payment : Option Payment) : Task Unit :=
  .ask (.mintSession userId none payment) .done

def createMfaChallengeToken (userId : Text) : Task Unit :=
  .ask (.mintChallenge userId) .done

/-! ## The first factor -/

structure LoginRequest where
  username : Text
  password : Text
  ipKey : Option Text
  pick : Nat

/-- The keys that were let through, with the numbers of their attempts. -/
structure Passed where
  account : LockoutKey
  attempt : Nat
  address : Option (LockoutKey × Nat)

def Passed.attempts (passed : Passed) : List Nat :=
  passed.attempt :: passed.address.toList.map Prod.snd

/-- Record a failure under the account's key, and without its error under the
address's, where there is one. -/
def recordFailures (passed : Passed) : Task Unit := do
  recordLoginFailure passed.account passed.attempt
  match passed.address with
  | none => pure ()
  | some (key, attempt) => (recordLoginFailure key attempt).attempt.discard

def clearFailures (passed : Passed) : Task Unit := do
  clearLoginFailures passed.account passed.attempt
  match passed.address with
  | none => pure ()
  | some (key, attempt) => clearLoginFailures key attempt

/-- A login whose keys are not locked. -/
def loginUnlocked (request : LoginRequest) (normalized : Text)
    (passed : Passed) : Task Unit := do
  let found : Option User ← .ask (.findLogin normalized request.pick) .done
  match found with
  | none => do
      recordFailures passed
      .fail .invalidCredentials
  | some user =>
      if !user.isActive then do
        recordFailures passed
        .fail .forbidden
      else do
        let passwordHash := user.passwordHash.getD []
        let right : Bool ← .ask
          (.verifyPassword request.password passwordHash passed.attempts) .done
        if !right then do
          recordFailures passed
          .fail .invalidCredentials
        else do
          clearFailures passed
          if user.mfaEnabled then createMfaChallengeToken user.id
          else sessionResponse user.id none

section Login

variable [UnicodeTables]

def login (settings : AuthSettings) (request : LoginRequest) : Task Unit := do
  let normalized : Text := request.username.trim.toLowercase
  let account := LockoutKey.login normalized
  unlessLocked settings account .accountLocked fun first =>
    match request.ipKey with
    | none => loginUnlocked request normalized ⟨account, first, none⟩
    | some clientIp =>
        unlessLocked settings (.loginIp clientIp) .accountLocked fun second =>
          loginUnlocked request normalized
            ⟨account, first, some (.loginIp clientIp, second)⟩

end Login

/-- The owner of a consumed code whose secret can be decrypted. -/
def decryptedOwner (settings : AuthSettings) :
    Option AuthExchangeCode → Task (Option Text)
  | none => return none
  | some record =>
      match settings.decryptSecret record.accessToken with
      | none => .fail .internal
      | some _ => return some record.userId

def verifyAndConsumeExchangeCode (settings : AuthSettings) (code : Text) :
    Task (Option Text) := do
  let record : Option AuthExchangeCode ←
    .ask (.consumeExchangeCode code) .done
  decryptedOwner settings record

def exchangeToken (settings : AuthSettings) (code : Text) : Task Unit := do
  let consumed ← verifyAndConsumeExchangeCode settings code
  match consumed with
  | none => .fail .badRequest
  | some userId => do
      let found : Option User ← .ask (.findUser userId) .done
      if found.any fun user => user.mfaEnabled then
        createMfaChallengeToken userId
      else sessionResponse userId none

/-! ## The second factor -/

/-- Whether an unused recovery code was there and has been consumed, and the
configuration it belongs to. -/
def tryConsumeRecoveryCode (userId code : Text) (key : LockoutKey)
    (attempt : Nat) : Task (Option Factor) := do
  let config : Option MfaConfiguration ←
    .ask (.findMfaConfiguration userId) .done
  match config with
  | none => return none
  | some config => do
      let codeHash := hashRecoveryCode code
      let consumed : Nat ←
        .ask (.consumeRecoveryCode config.id codeHash key attempt) .done
      if consumed = 0 then return none
      else do
        let _ ← (.ask (.countConsumed config.id key attempt) .done : Task Unit)
        return some (.recoveryCode config.id codeHash)

/-- A code of the authenticator; a secret that cannot be decrypted verifies
nothing. -/
def verifyTotp (settings : AuthSettings) (user : User) (code : Text)
    (attempt : Nat) : Task Bool :=
  match user.mfaSecret.bind settings.decryptSecret with
  | none => pure false
  | some secret => .ask (.verifyTotp secret code attempt) .done

def secondFactor (settings : AuthSettings) (user : User) (code : Text)
    (attempt : Nat) : Task (Option Factor) := do
  let totpOk ← verifyTotp settings user code attempt
  if totpOk then return some .totp
  else tryConsumeRecoveryCode user.id code (.mfaLogin user.id) attempt

/-- The lifetime of a claimed challenge in the stores. -/
def challengeTtl : Int := Tables.mfaChallengeTtlMinutes * 60 + 3600

/-- A statement of the stores whose error is ignored. -/
def ignoringError (statement : Sessions.Statement) : Task Unit :=
  (onStores (Sessions.query statement) none).attempt.discard

/-- Retire a claimed challenge in both stores, without their errors. -/
def retireChallenge (settings : AuthSettings)
    (claims : Sessions.TokenClaims) : Task Unit := do
  if settings.sessions.redis then do
    ignoringError (.revokeTokenJti claims challengeTtl)
    ignoringError (.revokeTokenFamily claims challengeTtl)
  ignoringError (.revokeTokenInDb claims challengeTtl none)

/-- A redemption whose key is not locked. -/
def redeemChallenge (settings : AuthSettings) (claims : Sessions.TokenClaims)
    (user : User) (code : Text) (attempt : Nat) : Task Unit := do
  let factor ← secondFactor settings user code attempt
  match factor with
  | none => do
      let _ ← (recordLoginFailure (.mfaLogin user.id) attempt).attempt
      .fail .invalidCredentials
  | some factor => do
      clearLoginFailures (.mfaLogin user.id) attempt
      let claimed ← onStores
        (Sessions.consumeJtiOnce settings.sessions claims challengeTtl)
        (some attempt)
      if !claimed then .fail .tokenRevoked
      else do
        retireChallenge settings claims
        sessionResponse user.id (some ⟨attempt, claims.jti, factor⟩)

/-- The redemption of a challenge by its user. -/
def redeemAs (settings : AuthSettings) (claims : Sessions.TokenClaims)
    (code : Text) : Option User → Task Unit
  | none => .fail .invalidCredentials
  | some user =>
      if !user.isActive then .fail .forbidden
      else if !user.mfaEnabled then .fail .forbidden
      else
        unlessLocked settings (.mfaLogin user.id) .rateLimited fun attempt =>
          redeemChallenge settings claims user code attempt

def loginMfa (settings : AuthSettings) (challenge : Bearer) (code : Text) :
    Task Unit := do
  let _ ← onStores
    (Sessions.validateTokenWithAntiReplay settings.sessions challenge.claims)
    none
  .done ((Sessions.requireTokenType challenge.claims .mfachallenge).mapError
    .token)
  let found : Option User ← .ask (.findUser challenge.sub) .done
  redeemAs settings challenge.claims code found

/-! ## Sessions -/

def refreshToken (settings : AuthSettings) (token : Bearer) : Task Unit := do
  let _ ← onStores
    (Sessions.consumeRefreshToken settings.sessions token.claims) none
  onStores (Sessions.revokeFamilyInRedis settings.sessions token.claims) none
  ignoringError (.revokeTokenInDb token.claims Sessions.familyTtl none)
  .ask (.mintSession token.sub (some token.claims.tokenFamily) none) .done

/-- The gate of a request with an access token. -/
def authenticatedUser (settings : AuthSettings) (token : Bearer) :
    Task Text := do
  let _ ← onStores
    (Sessions.validateAccessToken settings.sessions token.claims) none
  let found : Option User ← .ask (.findUser token.sub) .done
  match found with
  | none => .fail .unauthorized
  | some user =>
      if !user.isActive then .fail .unauthorized
      else do
        let _ ← (.ask (.accept token.sub) .done : Task Unit)
        return token.sub

/-- Deactivate the account of the caller. -/
def deleteUser (settings : AuthSettings) (token : Bearer) : Task Unit := do
  let userId ← authenticatedUser settings token
  .ask (.deactivate userId) .done

/-- A guess whose key is not locked. -/
def guessRecoveryCode (userId code : Text) (attempt : Nat) : Task Unit := do
  let config : Option MfaConfiguration ←
    .ask (.findMfaConfiguration userId) .done
  match config with
  | none => .fail .badRequest
  | some config => do
      let unused : Nat ← .ask (.countUnused config.id) .done
      if unused = 0 then .fail .badRequest
      else do
        let consumed ← tryConsumeRecoveryCode userId code
          (.mfaRecovery userId) attempt
        match consumed with
        | some _ => clearLoginFailures (.mfaRecovery userId) attempt
        | none => do
            let _ ←
              (recordLoginFailure (.mfaRecovery userId) attempt).attempt
            .fail .badRequest

def useRecoveryCode (settings : AuthSettings) (token : Bearer) (code : Text) :
    Task Unit := do
  let userId ← authenticatedUser settings token
  unlessLocked settings (.mfaRecovery userId) .rateLimited
    (guessRecoveryCode userId code)

/-! ## The machine -/

/-- A request, or a run of the deletion lifecycle. -/
inductive Operation where
  | login (request : LoginRequest)
  | loginMfa (challenge : Bearer) (code : Text)
  | exchangeToken (code : Text)
  | refreshToken (token : Bearer)
  | authenticated (token : Bearer)
  | deleteUser (token : Bearer)
  | useRecoveryCode (token : Bearer) (code : Text)
  | processDeletions (lifecycle : Deletion.LifecycleSettings)

/-- A presented token carries a signature. -/
def Bearer.Signed (tables : Tables) (token : Bearer) : Prop :=
  token.claims ∈ tables.stores.tokens ∧
    (⟨token.claims.tokenFamily, token.sub⟩ : Subject) ∈ tables.subjects

instance (tables : Tables) (token : Bearer) : Decidable (token.Signed tables) :=
  inferInstanceAs (Decidable (_ ∧ _))

def Operation.Signed (tables : Tables) : Operation → Prop
  | .loginMfa challenge _ => challenge.Signed tables
  | .refreshToken token => token.Signed tables
  | .authenticated token => token.Signed tables
  | .deleteUser token => token.Signed tables
  | .useRecoveryCode token _ => token.Signed tables
  | _ => True

instance (tables : Tables) (operation : Operation) :
    Decidable (operation.Signed tables) := by
  cases operation <;> unfold Operation.Signed <;> infer_instance

variable [UnicodeTables]

def Operation.program (settings : AuthSettings) : Operation → Task Unit
  | .login request => Auth.login settings request
  | .loginMfa challenge code => Auth.loginMfa settings challenge code
  | .exchangeToken code => Auth.exchangeToken settings code
  | .refreshToken token => Auth.refreshToken settings token
  | .authenticated token => (authenticatedUser settings token).discard
  | .deleteUser token => Auth.deleteUser settings token
  | .useRecoveryCode token code => Auth.useRecoveryCode settings token code
  | .processDeletions lifecycle =>
      (onAccounts (Deletion.process lifecycle)).discard

/-- The requests over the tables. -/
def machine (settings : AuthSettings) :
    Machine AuthState Statement Statement.Reply AppError Operation where
  answer := Statement.answer settings
  failure := Statement.failure
  elapse state duration :=
    { state with
      tables := { state.tables with
        stores := { state.tables.stores with
          now := state.tables.stores.now + duration }
        accounts := { state.tables.accounts with
          now := state.tables.accounts.now + duration } } }
  program := Operation.program settings
  permitted state operation := operation.Signed state.tables

instance (settings : AuthSettings) (state : AuthState)
    (operation : Operation) :
    Decidable ((machine settings).permitted state operation) :=
  inferInstanceAs (Decidable (operation.Signed state.tables))

end Endpoints

end FireCrow.Api.Auth
