import FireCrow.Library.Text
import FireCrow.Services.Sessions

/-!
# The event stream of a job

A stream is authorized once, when it is opened, and again at every tick of its
revalidation.  The revalidation asks the database alone: whether the account
is active and whether the family of the token has been revoked.  A request is
authorized by the whole of `AuthenticatedUser` and by the query for the job.

Both are evaluated at one moment: the tables, Redis, which may not answer, and
the clock.
-/

namespace FireCrow.Api.Streams

open FireCrow.Library FireCrow.Services

/-! ## The state at a moment -/

/-- A row of `users`. -/
structure User where
  id : Text
  isActive : Bool
  tenantId : Option Text
deriving DecidableEq, Repr

/-- The columns of `audit_jobs` that decide who sees a job. -/
structure AuditJob where
  id : Text
  userId : Text
  tenantId : Option Text
deriving DecidableEq, Repr

/-- The stores and tables, and which servers answer. -/
structure Moment where
  stores : Sessions.Stores
  users : List User
  jobs : List AuditJob
  redisAnswers : Bool
  databaseAnswers : Bool

/-- A signed token: its claims, and whose it is. -/
structure Token where
  sub : Text
  claims : Sessions.TokenClaims
deriving DecidableEq

inductive AppError where
  | token (error : Sessions.AppError)
  | database
  | unauthorized (message : Text)
deriving DecidableEq

namespace Moment

/-- A query of the database. -/
def query {Answer : Type} (moment : Moment) (answer : Answer) :
    Except AppError Answer :=
  if moment.databaseAnswers then .ok answer else .error .database

def findUser (moment : Moment) (userId : Text) : Option User :=
  moment.users.find? fun user => user.id = userId

/-- `SELECT * FROM audit_jobs WHERE id=$1 AND (user_id=$2 OR (tenant_id IS NOT
NULL AND tenant_id=$3))`. -/
def findJob (moment : Moment) (jobId userId tenantId : Text) :
    Option AuditJob :=
  moment.jobs.find? fun job =>
    job.id = jobId && (job.userId = userId || job.tenantId = some tenantId)

/-- How a statement of a validation is answered at this moment. -/
def answer (settings : Sessions.SessionSettings) (moment : Moment)
    (stores : Sessions.Stores) :
    (statement : Sessions.Statement) → statement.Reply × Sessions.Stores
  | .jtiExists jti =>
      if moment.redisAnswers then
        Sessions.Statement.answer settings stores (.jtiExists jti)
      else (.error .redisError, stores)
  | .familyExists family =>
      if moment.redisAnswers then
        Sessions.Statement.answer settings stores (.familyExists family)
      else (.error .redisError, stores)
  | .isRevokedInDb jti family =>
      if moment.databaseAnswers then
        Sessions.Statement.answer settings stores (.isRevokedInDb jti family)
      else (.error .database, stores)
  | statement => Sessions.Statement.answer settings stores statement

end Moment

/-! ## A request -/

structure AuthenticatedUser where
  userId : Text
  jti : Nat
  tokenFamily : Nat
  tenantId : Text
deriving DecidableEq

/-- `validate_access_token`. -/
def validateAccessToken (settings : Sessions.SessionSettings) (moment : Moment)
    (token : Token) : Except AppError Unit :=
  (((Sessions.validateAccessToken settings token.claims).alone
    (moment.answer settings) moment.stores).1.mapError .token).map fun _ => ()

/-- `AuthenticatedUser::from_request_parts`, for the token that the request
carries. -/
def fromRequestParts (settings : Sessions.SessionSettings) (moment : Moment)
    (token : Token) : Except AppError AuthenticatedUser := do
  validateAccessToken settings moment token
  let row ← moment.query (moment.findUser token.sub)
  match row with
  | none => .error (.unauthorized "Account no longer exists")
  | some user =>
      if !user.isActive then .error (.unauthorized "Account is not active")
      else
        return {
          userId := token.sub
          jti := token.claims.jti
          tokenFamily := token.claims.tokenFamily
          tenantId := user.tenantId.getD [] }

/-! ## A stream -/

/-- What a stream keeps of the request that opened it. -/
structure Stream where
  jobId : Text
  userId : Text
  tenantId : Text
  tokenFamily : Nat
deriving DecidableEq

/-- The stream that a request opens. -/
def Stream.opened (user : AuthenticatedUser) (jobId : Text) : Stream where
  jobId := jobId
  userId := user.userId
  tenantId := user.tenantId
  tokenFamily := user.tokenFamily

/-- `SELECT is_active FROM users WHERE id = $1`. -/
def Moment.isActive (moment : Moment) (userId : Text) : Option Bool :=
  (moment.findUser userId).map User.isActive

/-- `SELECT COUNT(*) FROM token_revocations WHERE token_family = $1 AND
expires_at > NOW()`. -/
def Moment.countRevocations (moment : Moment) (tokenFamily : Nat) : Nat :=
  moment.stores.revocations.countP fun row =>
    row.tokenFamily = tokenFamily && moment.stores.now < row.expiresAt

/-- `Result::unwrap_or`. -/
def unwrapOr {Answer : Type} (answer : Except AppError Answer)
    (otherwise : Answer) : Answer :=
  answer.toOption.getD otherwise

def authStillValid (moment : Moment) (userId : Text) (tokenFamily : Nat) :
    Bool :=
  let active := unwrapOr (moment.query (moment.isActive userId)) none
  if active ≠ some true then false
  else
    let revoked :=
      unwrapOr (moment.query (moment.countRevocations tokenFamily)) 1
    revoked == 0

/-- A tick of the revalidation: the stream goes on, or it ends. -/
def Stream.tick (moment : Moment) (stream : Stream) : Option Stream :=
  if authStillValid moment stream.userId stream.tokenFamily then some stream
  else none

/-! ## The two checks -/

/-- Redis, where it is configured and answers, revokes the token. -/
def Moment.RevokedInRedis (settings : Sessions.SessionSettings)
    (moment : Moment) (claims : Sessions.TokenClaims) : Prop :=
  settings.redis = true ∧ moment.redisAnswers = true ∧
    (Sessions.Stores.exists? moment.stores.redisJtis moment.stores.now
        claims.jti = true ∨
      Sessions.Stores.exists? moment.stores.redisFamilies moment.stores.now
        claims.tokenFamily = true)

/-- A fresh request with the token of the stream is accepted, for the tenant of
the stream and with the token revoked in neither store, and sees the job. -/
structure FreshlyAllowed (settings : Sessions.SessionSettings)
    (moment : Moment) (token : Token) (stream : Stream) : Prop where
  accepted : ∃ user, fromRequestParts settings moment token = .ok user ∧
    user.tenantId = stream.tenantId ∧
    (moment.findJob stream.jobId user.userId user.tenantId).isSome = true
  redis : ¬ moment.RevokedInRedis settings token.claims
  database : moment.stores.isRevokedInDb token.claims.jti
    token.claims.tokenFamily = false

/-- What the revalidation reads: the database answers, the account is active
and the family has no live revocation. -/
structure Moment.Serves (moment : Moment) (token : Token) : Prop where
  answers : moment.databaseAnswers = true
  active : ∃ user, moment.findUser token.sub = some user ∧ user.isActive = true
  family : ∀ row ∈ moment.stores.revocations,
    row.tokenFamily = token.claims.tokenFamily →
      row.expiresAt ≤ moment.stores.now

/-- What the revalidation does not read: the times and the purpose of the
token, its keys in Redis, the revocations of its own id, the tenant of the
account and the job. -/
structure Moment.Current (settings : Sessions.SessionSettings)
    (moment : Moment) (token : Token) (stream : Stream) : Prop where
  times : Sessions.validateToken token.claims moment.stores.now = .ok ()
  purpose : token.claims.tokenType = .access
  redis : ¬ moment.RevokedInRedis settings token.claims
  ownId : ∀ row ∈ moment.stores.revocations, row.jti = token.claims.jti →
    row.expiresAt ≤ moment.stores.now
  tenant : ∀ user, moment.findUser token.sub = some user →
    user.tenantId.getD [] = stream.tenantId
  job : (moment.findJob stream.jobId token.sub stream.tenantId).isSome = true

theorem authStillValid_iff (moment : Moment) (token : Token) :
    authStillValid moment token.sub token.claims.tokenFamily = true ↔
      moment.Serves token := by
  unfold authStillValid Moment.query unwrapOr
  cases answering : moment.databaseAnswers with
  | false =>
      constructor
      · intro valid
        cases valid
      · intro serves
        rw [serves.answers] at answering
        cases answering
  | true =>
      cases found : moment.findUser token.sub with
      | none =>
          simp only [Moment.isActive, found, Option.map_none]
          constructor
          · intro valid
            cases valid
          · intro serves
            rcases serves.active with ⟨user, same, _⟩
            rw [found] at same
            cases same
      | some user =>
          have counted : moment.countRevocations token.claims.tokenFamily = 0 ↔
              ∀ row ∈ moment.stores.revocations,
                row.tokenFamily = token.claims.tokenFamily →
                  row.expiresAt ≤ moment.stores.now := by
            simp [Moment.countRevocations, List.countP_eq_zero]
          cases active : user.isActive with
          | false =>
              simp only [Moment.isActive, found, Option.map_some, active]
              constructor
              · intro valid
                cases valid
              · intro serves
                rcases serves.active with ⟨other, same, live⟩
                rw [found] at same
                cases same
                rw [active] at live
                cases live
          | true =>
              simp only [Moment.isActive, found, Option.map_some, active,
                if_true, Except.toOption, Option.getD_some, ne_eq,
                not_true_eq_false, if_false, beq_iff_eq, counted]
              exact ⟨fun family => ⟨answering, ⟨user, found, active⟩, family⟩,
                fun serves => serves.family⟩

/-- The lookup of a validation at one moment. -/
def Moment.revoked (settings : Sessions.SessionSettings) (moment : Moment)
    (claims : Sessions.TokenClaims) : Except Sessions.AppError Bool :=
  if settings.redis && moment.redisAnswers then
    .ok (Sessions.Stores.exists? moment.stores.redisJtis moment.stores.now
        claims.jti ||
      Sessions.Stores.exists? moment.stores.redisFamilies moment.stores.now
        claims.tokenFamily)
  else if moment.databaseAnswers then
    .ok (moment.stores.isRevokedInDb claims.jti claims.tokenFamily)
  else .error .database

section

variable (settings : Sessions.SessionSettings)
include settings

theorem alone_query (moment : Moment)
    (stores : Sessions.Stores) (statement : Sessions.Statement) :
    (Sessions.query statement).alone (moment.answer settings) stores =
      moment.answer settings stores statement := rfl

theorem alone_isRevoked (moment : Moment) (claims : Sessions.TokenClaims) :
    (Sessions.isRevoked settings claims).alone (moment.answer settings)
      moment.stores = (moment.revoked settings claims, moment.stores) := by
  have inDb : (Sessions.isRevokedInDb claims).alone (moment.answer settings)
      moment.stores =
        (if moment.databaseAnswers then
          .ok (moment.stores.isRevokedInDb claims.jti claims.tokenFamily)
        else .error .database, moment.stores) := by
    refine (alone_query settings moment _ _).trans ?_
    rw [Moment.answer]
    split <;> rfl
  have own : (Sessions.query (.jtiExists claims.jti)).alone
      (moment.answer settings) moment.stores =
        (if moment.redisAnswers then
          .ok (Sessions.Stores.exists? moment.stores.redisJtis
            moment.stores.now claims.jti)
        else .error .redisError, moment.stores) := by
    rw [alone_query, Moment.answer]
    split <;> rfl
  have family : (Sessions.query (.familyExists claims.tokenFamily)).alone
      (moment.answer settings) moment.stores =
        (if moment.redisAnswers then
          .ok (Sessions.Stores.exists? moment.stores.redisFamilies
            moment.stores.now claims.tokenFamily)
        else .error .redisError, moment.stores) := by
    rw [alone_query, Moment.answer]
    split <;> rfl
  unfold Sessions.isRevoked Moment.revoked
  by_cases configured : settings.redis = true
  · rw [if_pos configured, configured, Bool.true_and]
    by_cases redis : moment.redisAnswers = true
    · rw [if_pos redis] at family own ⊢
      have inRedis : (Sessions.isRevokedInRedis claims).alone
          (moment.answer settings) moment.stores =
            (.ok (Sessions.Stores.exists? moment.stores.redisJtis
                moment.stores.now claims.jti ||
              Sessions.Stores.exists? moment.stores.redisFamilies
                moment.stores.now claims.tokenFamily), moment.stores) := by
        cases held : Sessions.Stores.exists? moment.stores.redisJtis
            moment.stores.now claims.jti with
        | true =>
            rw [held] at own
            exact Program.alone_bind own
        | false =>
            rw [held] at own
            exact (Program.alone_bind own).trans family
      have attempted := @Program.alone_attempt _ _ _ _ _
        (moment.answer settings) Sessions.AppError
        (Sessions.isRevokedInRedis claims) moment.stores
      rw [inRedis] at attempted
      exact Program.alone_bind attempted
    · rw [if_neg redis] at own ⊢
      have failed : (Sessions.isRevokedInRedis claims).alone
          (moment.answer settings) moment.stores =
            (.error .redisError, moment.stores) :=
        Program.alone_bind_error own
      have attempted : ((Sessions.isRevokedInRedis claims).attempt :
          Sessions.Task _).alone (moment.answer settings) moment.stores =
            (.ok (.error .redisError), moment.stores) := by
        rw [Program.alone_attempt, failed]
      exact (Program.alone_bind attempted).trans inDb
  · rw [if_neg configured]
    rw [Bool.not_eq_true] at configured
    rw [configured]
    exact inDb

theorem validateAccessToken_eq_ok_iff (moment : Moment) (token : Token) :
    validateAccessToken settings moment token = .ok () ↔
      Sessions.validateToken token.claims moment.stores.now = .ok () ∧
        moment.revoked settings token.claims = .ok false ∧
        token.claims.tokenType = .access := by
  have started : (Sessions.query .start).alone (moment.answer settings)
      moment.stores =
        (.ok (moment.stores.now, moment.stores.happened.length),
          moment.stores) := rfl
  have lookup := alone_isRevoked settings moment token.claims
  unfold validateAccessToken
  cases times : Sessions.validateToken token.claims moment.stores.now with
  | error error =>
      have ended : (Sessions.validateAccessToken settings token.claims).alone
          (moment.answer settings) moment.stores =
            (.error error, moment.stores) := by
        refine Program.alone_bind_error ((Program.alone_bind started).trans ?_)
        apply Program.alone_bind_error
        rw [times]
        rfl
      rw [ended]
      constructor <;> intro impossible
      · cases impossible
      · cases impossible.1
  | ok =>
      have checked : (.done (Sessions.validateToken token.claims
          moment.stores.now) : Sessions.Task Unit).alone
            (moment.answer settings) moment.stores =
              (.ok (), moment.stores) := by
        rw [times]
        rfl
      cases revoked : moment.revoked settings token.claims with
      | error error =>
          rw [revoked] at lookup
          have ended : (Sessions.validateAccessToken settings token.claims).alone
              (moment.answer settings) moment.stores =
                (.error error, moment.stores) :=
            Program.alone_bind_error ((Program.alone_bind started).trans
              ((Program.alone_bind checked).trans
                (Program.alone_bind_error lookup)))
          rw [ended]
          constructor <;> intro impossible
          · cases impossible
          · cases impossible.2.1
      | ok isRevoked =>
          rw [revoked] at lookup
          have validated : (Sessions.validateTokenWithAntiReplay settings
              token.claims).alone (moment.answer settings) moment.stores =
                ((if isRevoked then .fail .tokenRevoked
                  else return moment.stores.happened.length :
                    Sessions.Task Nat)).alone
                  (moment.answer settings) moment.stores :=
            (Program.alone_bind started).trans
              ((Program.alone_bind checked).trans (Program.alone_bind lookup))
          cases isRevoked with
          | true =>
              have ended : (Sessions.validateAccessToken settings
                  token.claims).alone (moment.answer settings) moment.stores =
                    (.error .tokenRevoked, moment.stores) :=
                Program.alone_bind_error validated
              rw [ended]
              constructor <;> intro impossible
              · cases impossible
              · cases impossible.2.1
          | false =>
              have continued : (Sessions.validateAccessToken settings
                  token.claims).alone (moment.answer settings) moment.stores =
                    _ := Program.alone_bind validated
              rw [continued]
              by_cases purpose : token.claims.tokenType = .access
              · have passed : Sessions.requireTokenType token.claims .access =
                    .ok () := if_neg (not_not.2 purpose)
                rw [passed]
                exact iff_of_true rfl ⟨rfl, rfl, purpose⟩
              · have refused : Sessions.requireTokenType token.claims .access =
                    .error .invalidToken := if_pos purpose
                rw [refused]
                refine iff_of_false ?_ fun accepted => purpose accepted.2.2
                intro impossible
                cases impossible

end

/-- Whom a request acts for. -/
def User.authenticated (user : User) (token : Token) : AuthenticatedUser where
  userId := token.sub
  jti := token.claims.jti
  tokenFamily := token.claims.tokenFamily
  tenantId := user.tenantId.getD []

variable {settings : Sessions.SessionSettings} {moment : Moment}

variable {token : Token}

theorem fromRequestParts_eq_ok {user : User}
    (answers : moment.databaseAnswers = true)
    (accepted : validateAccessToken settings moment token = .ok ())
    (found : moment.findUser token.sub = some user)
    (active : user.isActive = true) :
    fromRequestParts settings moment token =
      .ok (user.authenticated token) := by
  simp only [fromRequestParts, accepted, Moment.query, answers, if_true, found,
    active, bind, Except.bind]
  rfl

theorem validateAccessToken_of_accepted {user : AuthenticatedUser}
    (accepted : fromRequestParts settings moment token = .ok user) :
    validateAccessToken settings moment token = .ok () := by
  cases validated : validateAccessToken settings moment token with
  | ok => rfl
  | error error =>
      rw [fromRequestParts, validated] at accepted
      cases accepted

theorem isRevokedInDb_eq_false (stores : Sessions.Stores) (jti family : Nat) :
    stores.isRevokedInDb jti family = false ↔
      (∀ row ∈ stores.revocations, row.jti = jti →
        row.expiresAt ≤ stores.now) ∧
      ∀ row ∈ stores.revocations, row.tokenFamily = family →
        row.expiresAt ≤ stores.now := by
  simp only [Sessions.Stores.isRevokedInDb, List.any_eq_false, Bool.and_eq_true,
    Bool.or_eq_true, decide_eq_true_eq, not_and, not_lt]
  constructor
  · exact fun spared => ⟨fun row member own => spared row member (.inl own),
      fun row member same => spared row member (.inr same)⟩
  · rintro ⟨own, family⟩ row member (same | same)
    · exact own row member same
    · exact family row member same

/-- The store that is asked does not revoke a token that neither revokes. -/
theorem Moment.revoked_eq_false {claims : Sessions.TokenClaims}
    (answers : moment.databaseAnswers = true)
    (redis : ¬ moment.RevokedInRedis settings claims)
    (database : moment.stores.isRevokedInDb claims.jti claims.tokenFamily =
      false) : moment.revoked settings claims = .ok false := by
  unfold Moment.revoked
  split
  · rename_i asked
    rw [Bool.and_eq_true] at asked
    congr 1
    rw [Bool.or_eq_false_iff]
    constructor
    · exact Bool.eq_false_of_not_eq_true fun held =>
        redis ⟨asked.1, asked.2, .inl held⟩
    · exact Bool.eq_false_of_not_eq_true fun held =>
        redis ⟨asked.1, asked.2, .inr held⟩
  · rw [database]

theorem Moment.Serves.freshlyAllowed_iff {stream : Stream}
    (serves : moment.Serves token) :
    FreshlyAllowed settings moment token stream ↔
      moment.Current settings token stream := by
  rcases serves.active with ⟨user, found, active⟩
  constructor
  · intro allowed
    rcases allowed.accepted with ⟨fresh, accepted, tenant, seen⟩
    have validated := validateAccessToken_of_accepted accepted
    have own := (isRevokedInDb_eq_false _ _ _).1 allowed.database
    rw [fromRequestParts_eq_ok serves.answers validated found active] at accepted
    cases accepted
    rcases (validateAccessToken_eq_ok_iff ..).1 validated with
      ⟨times, _, purpose⟩
    refine ⟨times, purpose, allowed.redis, own.1, ?_, ?_⟩
    · intro other same
      rw [found] at same
      cases same
      exact tenant
    · rw [← tenant]
      exact seen
  · intro current
    have database := (isRevokedInDb_eq_false _ _ _).2
      ⟨current.ownId, serves.family⟩
    have validated := (validateAccessToken_eq_ok_iff ..).2 ⟨current.times,
      Moment.revoked_eq_false serves.answers current.redis database,
      current.purpose⟩
    have tenant := current.tenant user found
    refine ⟨⟨user.authenticated token,
      fromRequestParts_eq_ok serves.answers validated found active, tenant, ?_⟩,
      current.redis, database⟩
    change (moment.findJob stream.jobId token.sub (user.tenantId.getD [])).isSome
      = true
    rw [tenant]
    exact current.job

/-- The stream that an accepted request opens is that of its token. -/
theorem Stream.opened_token {user : AuthenticatedUser}
    (accepted : fromRequestParts settings moment token = .ok user) :
    user.userId = token.sub ∧ user.tokenFamily = token.claims.tokenFamily := by
  have validated := validateAccessToken_of_accepted accepted
  simp only [fromRequestParts, validated, bind, Except.bind] at accepted
  split at accepted
  · cases accepted
  · split at accepted
    · cases accepted
    · split at accepted
      · cases accepted
      · cases accepted
        exact ⟨rfl, rfl⟩

/-- At every tick of every stream: the stream goes on only if a fresh request
would be allowed, exactly when the account that is active with a family that
is not revoked has a current token, tenant and job. -/
theorem revalidation_authenticates_iff (settings : Sessions.SessionSettings)
    (opening moment : Moment) (token : Token) (user : AuthenticatedUser)
    (jobId : Text)
    (accepted : fromRequestParts settings opening token = .ok user) :
    ((Stream.opened user jobId).tick moment = some (.opened user jobId) →
      FreshlyAllowed settings moment token (.opened user jobId)) ↔
    (moment.Serves token →
      moment.Current settings token (.opened user jobId)) := by
  rcases Stream.opened_token accepted with ⟨subject, family⟩
  have continues :
      (Stream.opened user jobId).tick moment = some (.opened user jobId) ↔
        moment.Serves token := by
    rw [← authStillValid_iff, Stream.tick, Stream.opened, subject, family]
    split
    · rename_i valid
      exact iff_of_true rfl valid
    · rename_i ended
      exact iff_of_false (fun impossible => by cases impossible) ended
  rw [continues]
  exact forall_congr' fun serves => serves.freshlyAllowed_iff

/-! ## Two ticks -/

def aliceToken : Token where
  sub := "alice"
  claims :=
    { jti := 1
      tokenFamily := 0
      tokenType := .access
      exp := 900
      nbf := -5 }

def alice : AuthenticatedUser :=
  (⟨"alice", true, none⟩ : User).authenticated aliceToken

/-- Alice is active and nothing is revoked, at a time. -/
def aliceAt (now : Sessions.Timestamp) : Moment where
  stores :=
    { now := now
      drawn := 3
      tokens := [aliceToken.claims]
      redisJtis := []
      redisFamilies := []
      revocations := []
      happened := [] }
  users := [⟨"alice", true, none⟩]
  jobs := [⟨"job-1", "alice", none⟩]
  redisAnswers := true
  databaseAnswers := true

theorem aliceAt_opens :
    fromRequestParts ⟨true, 15⟩ (aliceAt 0) aliceToken = .ok alice := by
  decide +kernel

theorem revalidation_authenticates_iff_aliceAt :
    FreshlyAllowed ⟨true, 15⟩ (aliceAt 60) aliceToken (.opened alice "job-1") := by
  refine (revalidation_authenticates_iff ⟨true, 15⟩ (aliceAt 0) (aliceAt 60)
    aliceToken alice "job-1" aliceAt_opens).2 (fun _ => ?_) (by decide)
  have unrevoked : ¬ (aliceAt 60).RevokedInRedis ⟨true, 15⟩ aliceToken.claims := by
    rintro ⟨_, _, held | held⟩
    · exact absurd held (by decide)
    · exact absurd held (by decide)
  refine ⟨by decide, rfl, unrevoked, fun _ member => (by cases member), ?_,
    by decide⟩
  intro user found
  cases found
  rfl

/-- The token of alice has expired, and her stream goes on. -/
theorem expired_stream_continues :
    fromRequestParts ⟨true, 15⟩ (aliceAt 0) aliceToken = .ok alice ∧
      (Stream.opened alice "job-1").tick (aliceAt 3600) =
        some (.opened alice "job-1") ∧
      fromRequestParts ⟨true, 15⟩ (aliceAt 3600) aliceToken =
        .error (.token .tokenExpired) ∧
      ¬ FreshlyAllowed ⟨true, 15⟩ (aliceAt 3600) aliceToken
        (.opened alice "job-1") := by
  have refused : fromRequestParts ⟨true, 15⟩ (aliceAt 3600) aliceToken =
      .error (.token .tokenExpired) := by
    decide +kernel
  refine ⟨by decide +kernel, by decide, refused, fun allowed => ?_⟩
  rcases allowed.accepted with ⟨user, accepted, _⟩
  rw [refused] at accepted
  cases accepted

end FireCrow.Api.Streams
