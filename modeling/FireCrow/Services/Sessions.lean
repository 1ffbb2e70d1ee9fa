import FireCrow.Library.Interleaving

/-!
# Sessions

A session is a family of two signed tokens.  A logout and a rotation revoke the
family in Redis and in the database, one statement after the other, and ignore
the errors of both; a validation asks Redis and turns to the database where
Redis fails.  A refresh checks that its family is alive, consumes its token,
revokes the family and mints a new one.

Either store may fail in any statement, and Redis may restart empty.
-/

namespace FireCrow.Services.Sessions

open FireCrow.Library

/-- Seconds. -/
abbrev Timestamp := Int

inductive AppError where
  | tokenExpired
  | invalidToken
  | tokenRevoked
  | redisError
  | database
deriving DecidableEq

inductive TokenType where
  | access
  | refresh
  | mfachallenge
deriving DecidableEq

/-- The claims of a signed token that are checked.  A uuid is the number of its
draw, so that no two are the same. -/
structure TokenClaims where
  jti : Nat
  tokenFamily : Nat
  tokenType : TokenType
  exp : Timestamp
  nbf : Timestamp
deriving DecidableEq

/-- A row of `token_revocations`. -/
structure TokenRevocation where
  jti : Nat
  tokenFamily : Nat
  expiresAt : Timestamp
deriving DecidableEq

/-- A key in Redis, with the time of its expiry. -/
structure RedisKey where
  name : Nat
  expiresAt : Timestamp
deriving DecidableEq

/-- What happens to sessions; a moment is the number of things that have
happened before.  A validation has accepted a token since the moment when it
began; a logout, since the moment when it began, has written its row, and has
returned success; a rotation has minted a successor; a refresh token has been
consumed. -/
inductive Happening where
  | accepted (claims : TokenClaims) (since : Nat) (time : Timestamp)
  | left (family since : Nat)
  | loggedOut (family since : Nat)
  | rotated (family successor : Nat)
  | consumed (jti : Nat)
deriving DecidableEq

/-- The two stores and the tokens that were signed.  No check reads what has
happened. -/
structure Stores where
  now : Timestamp
  drawn : Nat
  tokens : List TokenClaims
  redisJtis : List RedisKey
  redisFamilies : List RedisKey
  revocations : List TokenRevocation
  happened : List Happening
deriving DecidableEq

structure SessionSettings where
  redis : Bool
  accessTokenExpireMinutes : Int

def refreshTokenTtlSeconds : Int := 7 * 24 * 60 * 60
def revocationTtlMarginSeconds : Int := 3600

/-- How long after its expiry `jsonwebtoken` accepts a token. -/
def leeway : Int := 60

/-- The lifetime of a family revocation. -/
def familyTtl : Int := refreshTokenTtlSeconds + 3600

def SessionSettings.accessTtl (settings : SessionSettings) : Int :=
  settings.accessTokenExpireMinutes * 60

namespace Stores

/-! ## Redis -/

/-- `EXISTS`. -/
def exists? (keys : List RedisKey) (now : Timestamp) (name : Nat) : Bool :=
  keys.any fun key => key.name = name && now < key.expiresAt

/-- `SET .. EX`. -/
def setEx (keys : List RedisKey) (name : Nat) (expiresAt : Timestamp) :
    List RedisKey :=
  ⟨name, expiresAt⟩ :: keys.filter fun key => key.name ≠ name

def revokeTokenJti (stores : Stores) (jti : Nat) (ttlSeconds : Int) :
    Except AppError (Unit × Stores) :=
  if ttlSeconds ≤ 0 then .error .redisError
  else
    .ok ((), { stores with
      redisJtis := setEx stores.redisJtis jti (stores.now + ttlSeconds) })

def revokeTokenFamily (stores : Stores) (family : Nat) (ttlSeconds : Int) :
    Stores :=
  { stores with
    redisFamilies :=
      setEx stores.redisFamilies family (stores.now + ttlSeconds) }

/-- `SET .. NX EX`, and whether it has set the key. -/
def consumeInRedis (stores : Stores) (claims : TokenClaims)
    (ttlSeconds : Int) : Bool × Stores :=
  if exists? stores.redisJtis stores.now claims.jti then (false, stores)
  else
    (true, { stores with
      redisJtis := setEx stores.redisJtis claims.jti (stores.now + ttlSeconds)
      happened := stores.happened ++ [.consumed claims.jti] })

/-! ## The database -/

def isRevokedInDb (stores : Stores) (jti family : Nat) : Bool :=
  stores.revocations.any fun row =>
    (row.jti = jti || row.tokenFamily = family) && stores.now < row.expiresAt

def isFamilyRevokedInDb (stores : Stores) (family : Nat) : Bool :=
  stores.revocations.any fun row =>
    row.tokenFamily = family && stores.now < row.expiresAt

/-- `INSERT .. ON CONFLICT (jti) DO NOTHING`. -/
def insertRevocation (stores : Stores) (claims : TokenClaims)
    (ttlSeconds : Int) : List TokenRevocation :=
  if stores.revocations.any fun row => row.jti = claims.jti then
    stores.revocations
  else
    stores.revocations ++
      [⟨claims.jti, claims.tokenFamily, stores.now + ttlSeconds⟩]

def consumeInDb (stores : Stores) (claims : TokenClaims) (ttlSeconds : Int) :
    Bool × Stores :=
  if stores.revocations.any fun row => row.jti = claims.jti then
    (false, stores)
  else
    (true, { stores with
      revocations := stores.insertRevocation claims ttlSeconds
      happened := stores.happened ++ [.consumed claims.jti] })

/-- The revocation of a family by a rotation, or by a logout that began at the
given moment. -/
def revokeTokenInDb (stores : Stores) (claims : TokenClaims)
    (ttlSeconds : Int) (leaving : Option Nat) : Stores :=
  { stores with
    revocations := stores.insertRevocation claims ttlSeconds
    happened := stores.happened ++
      leaving.toList.map fun since => .left claims.tokenFamily since }

/-! ## Tokens -/

/-- Sign the two tokens of a new family, which may be the successor of
another. -/
def issueTokens (settings : SessionSettings) (stores : Stores)
    (rotates : Option Nat) : Stores :=
  { stores with
    drawn := stores.drawn + 3
    tokens := stores.tokens ++
      [{ jti := stores.drawn + 1
         tokenFamily := stores.drawn
         tokenType := .access
         exp := stores.now + settings.accessTtl
         nbf := stores.now - 5 },
       { jti := stores.drawn + 2
         tokenFamily := stores.drawn
         tokenType := .refresh
         exp := stores.now + refreshTokenTtlSeconds
         nbf := stores.now - 5 }]
    happened := stores.happened ++
      rotates.toList.map fun family => .rotated family stores.drawn }

def record (stores : Stores) (happening : Happening) : Stores :=
  { stores with happened := stores.happened ++ [happening] }

end Stores

/-- A statement; the moments in it are for the record alone. -/
inductive Statement where
  | start
  | utcNow
  | jtiExists (jti : Nat)
  | familyExists (family : Nat)
  | isRevokedInDb (jti family : Nat)
  | isFamilyRevokedInDb (family : Nat)
  | consumeInRedis (claims : TokenClaims) (ttlSeconds : Int)
  | consumeInDb (claims : TokenClaims) (ttlSeconds : Int)
  | revokeTokenJti (claims : TokenClaims) (ttlSeconds : Int)
  | revokeTokenFamily (claims : TokenClaims) (ttlSeconds : Int)
  | revokeTokenInDb (claims : TokenClaims) (ttlSeconds : Int)
      (leaving : Option Nat)
  | issueTokens (rotates : Option (TokenClaims × Nat))
  | accept (claims : TokenClaims) (since : Nat)
  | logOut (claims : TokenClaims) (since : Nat)
  | restartRedis

namespace Statement

def Answer : Statement → Type
  | .start => Timestamp × Nat
  | .utcNow => Timestamp
  | .jtiExists _ => Bool
  | .familyExists _ => Bool
  | .isRevokedInDb .. => Bool
  | .isFamilyRevokedInDb _ => Bool × Nat
  | .consumeInRedis .. => Bool
  | .consumeInDb .. => Bool
  | .revokeTokenJti .. => Unit
  | .revokeTokenFamily .. => Unit
  | .revokeTokenInDb .. => Unit
  | .issueTokens _ => Unit
  | .accept .. => Unit
  | .logOut .. => Unit
  | .restartRedis => Unit

def run (settings : SessionSettings) (stores : Stores) :
    (statement : Statement) → Except AppError (statement.Answer × Stores)
  | .start => .ok ((stores.now, stores.happened.length), stores)
  | .utcNow => .ok (stores.now, stores)
  | .jtiExists jti =>
      .ok (Stores.exists? stores.redisJtis stores.now jti, stores)
  | .familyExists family =>
      .ok (Stores.exists? stores.redisFamilies stores.now family, stores)
  | .isRevokedInDb jti family => .ok (stores.isRevokedInDb jti family, stores)
  | .isFamilyRevokedInDb family =>
      .ok ((stores.isFamilyRevokedInDb family, stores.happened.length), stores)
  | .consumeInRedis claims ttlSeconds =>
      .ok (stores.consumeInRedis claims ttlSeconds)
  | .consumeInDb claims ttlSeconds => .ok (stores.consumeInDb claims ttlSeconds)
  | .revokeTokenJti claims ttlSeconds =>
      stores.revokeTokenJti claims.jti ttlSeconds
  | .revokeTokenFamily claims ttlSeconds =>
      .ok ((), stores.revokeTokenFamily claims.tokenFamily ttlSeconds)
  | .revokeTokenInDb claims ttlSeconds leaving =>
      .ok ((), stores.revokeTokenInDb claims ttlSeconds leaving)
  | .issueTokens rotates =>
      .ok ((), stores.issueTokens settings
        (rotates.map fun rotation => rotation.1.tokenFamily))
  | .accept claims since =>
      .ok ((), stores.record (.accepted claims since stores.now))
  | .logOut claims since =>
      .ok ((), stores.record (.loggedOut claims.tokenFamily since))
  | .restartRedis => .ok ((), { stores with redisJtis := [], redisFamilies := [] })

abbrev Reply (statement : Statement) : Type := Except AppError statement.Answer

/-- A refused statement leaves the stores. -/
def answer (settings : SessionSettings) (stores : Stores)
    (statement : Statement) : statement.Reply × Stores :=
  match statement.run settings stores with
  | .ok (answer, after) => (.ok answer, after)
  | .error error => (.error error, stores)

def onRedis : Statement → Bool
  | .jtiExists _ => true
  | .familyExists _ => true
  | .consumeInRedis .. => true
  | .revokeTokenJti .. => true
  | .revokeTokenFamily .. => true
  | .restartRedis => true
  | _ => false

end Statement

/-! ## Operations -/

abbrev Task := Program Statement Statement.Reply AppError

def query (statement : Statement) : Task statement.Answer :=
  .ask statement .done

/-- The expiry and the start of a signed token at a time. -/
def validateToken (claims : TokenClaims) (now : Timestamp) :
    Except AppError Unit :=
  if claims.exp < now - leeway then .error .tokenExpired
  else if claims.nbf > now + leeway then .error .invalidToken
  else .ok ()

def requireTokenType (claims : TokenClaims) (expected : TokenType) :
    Except AppError Unit :=
  if claims.tokenType ≠ expected then .error .invalidToken else .ok ()

def isRevokedInRedis (claims : TokenClaims) : Task Bool := do
  let isRevoked : Bool ← query (.jtiExists claims.jti)
  if isRevoked then return true
  else query (.familyExists claims.tokenFamily)

def isRevokedInDb (claims : TokenClaims) : Task Bool :=
  query (.isRevokedInDb claims.jti claims.tokenFamily)

/-- The lookup of a validation. -/
def isRevoked (settings : SessionSettings) (claims : TokenClaims) :
    Task Bool := do
  if settings.redis then
    let redisRevoked ← (isRevokedInRedis claims).attempt
    match redisRevoked with
    | .ok isRevoked => return isRevoked
    | .error _ => isRevokedInDb claims
  else isRevokedInDb claims

def validateTokenWithAntiReplay (settings : SessionSettings)
    (claims : TokenClaims) : Task Nat := do
  let started : Timestamp × Nat ← query .start
  .done (validateToken claims started.1)
  let revoked ← isRevoked settings claims
  if revoked then .fail .tokenRevoked
  else return started.2

/-- The gate of every request; it returns the moment when it began. -/
def validateAccessToken (settings : SessionSettings) (claims : TokenClaims) :
    Task Nat := do
  let since ← validateTokenWithAntiReplay settings claims
  .done (requireTokenType claims .access)
  let _ ← query (.accept claims since)
  return since

def isFamilyRevokedInDb (claims : TokenClaims) : Task (Bool × Nat) :=
  query (.isFamilyRevokedInDb claims.tokenFamily)

/-- The liveness of a family, with the moment of the last lookup. -/
def isFamilyRevoked (settings : SessionSettings) (claims : TokenClaims) :
    Task (Bool × Nat) := do
  if settings.redis then
    let found ← (query (.familyExists claims.tokenFamily)).attempt
    match found with
    | .ok true => return (true, 0)
    | _ => isFamilyRevokedInDb claims
  else isFamilyRevokedInDb claims

def consumeJtiOnce (settings : SessionSettings) (claims : TokenClaims)
    (ttlSeconds : Int) : Task Bool :=
  if settings.redis then query (.consumeInRedis claims ttlSeconds)
  else query (.consumeInDb claims ttlSeconds)

/-- The gate of the refresh endpoint; it returns the moment of its liveness
check. -/
def consumeRefreshToken (settings : SessionSettings) (claims : TokenClaims) :
    Task Nat := do
  let now : Timestamp ← query .utcNow
  .done (validateToken claims now)
  .done (requireTokenType claims .refresh)
  let liveness ← isFamilyRevoked settings claims
  if liveness.1 then .fail .tokenRevoked
  else
    let now : Timestamp ← query .utcNow
    let ttlSeconds := min (max (claims.exp - now) 60)
      (refreshTokenTtlSeconds + revocationTtlMarginSeconds)
    let first ← consumeJtiOnce settings claims ttlSeconds
    if first then return liveness.2
    else .fail .tokenRevoked

/-- Revoke a family in Redis, where it is configured, and ignore the error. -/
def revokeFamilyInRedis (settings : SessionSettings) (claims : TokenClaims) :
    Task Unit :=
  if settings.redis then
    (query (.revokeTokenFamily claims familyTtl)).attempt.discard
  else pure ()

def revokeJtiInRedis (settings : SessionSettings) (claims : TokenClaims) :
    Task Unit :=
  if settings.redis then
    (query (.revokeTokenJti claims settings.accessTtl)).attempt.discard
  else pure ()

def refreshToken (settings : SessionSettings) (claims : TokenClaims) :
    Task Unit := do
  let checked ← consumeRefreshToken settings claims
  revokeFamilyInRedis settings claims
  (query (.revokeTokenInDb claims familyTtl none)).attempt.discard
  query (.issueTokens (some (claims, checked)))

def logout (settings : SessionSettings) (claims : TokenClaims) :
    Task Unit := do
  let since ← validateAccessToken settings claims
  revokeJtiInRedis settings claims
  revokeFamilyInRedis settings claims
  (query (.revokeTokenInDb claims familyTtl (some since))).attempt.discard
  query (.logOut claims since)

inductive Operation where
  | sessionResponse
  | validate (claims : TokenClaims)
  | refresh (claims : TokenClaims)
  | logout (claims : TokenClaims)
  | restartRedis

def Operation.program (settings : SessionSettings) : Operation → Task Unit
  | .sessionResponse => query (.issueTokens none)
  | .validate claims => (validateAccessToken settings claims).discard
  | .refresh claims => refreshToken settings claims
  | .logout claims => Sessions.logout settings claims
  | .restartRedis => query .restartRedis

/-- A presented token carries a signature. -/
def Operation.Signed (stores : Stores) : Operation → Prop
  | .validate claims => claims ∈ stores.tokens
  | .refresh claims => claims ∈ stores.tokens
  | .logout claims => claims ∈ stores.tokens
  | _ => True

instance (stores : Stores) (operation : Operation) :
    Decidable (operation.Signed stores) := by
  cases operation <;> unfold Operation.Signed <;> infer_instance

/-- The requests over the two stores. -/
def machine (settings : SessionSettings) :
    Machine Stores Statement Statement.Reply AppError Operation where
  answer := Statement.answer settings
  failure statement :=
    .error (if statement.onRedis then .redisError else .database)
  elapse stores duration := { stores with now := stores.now + duration }
  program := Operation.program settings
  permitted stores operation := operation.Signed stores

instance (settings : SessionSettings) (stores : Stores)
    (operation : Operation) :
    Decidable ((machine settings).permitted stores operation) :=
  inferInstanceAs (Decidable (operation.Signed stores))

abbrev Configuration := Config Stores Statement Statement.Reply AppError

/-- No session yet. -/
def opening : Configuration where
  state :=
    { now := 0
      drawn := 0
      tokens := []
      redisJtis := []
      redisFamilies := []
      revocations := []
      happened := [] }
  processes _ := none

end FireCrow.Services.Sessions
