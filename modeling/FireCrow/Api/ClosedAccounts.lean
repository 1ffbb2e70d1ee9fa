import FireCrow.Api.EndpointAsks
import FireCrow.Library.Sequences

/-!
# Closed accounts

An account is closed when it is deactivated or marked deleted.  The deletion
run writes the mark alone, which no endpoint reads; `Harmless` is the condition
on a request under which this does not matter.
-/

namespace FireCrow.Api.Auth

open FireCrow.Library
open FireCrow.Services

/-! ## Closing -/

def Tables.Marked (tables : Tables) (userId : Text) : Prop :=
  ∃ row ∈ tables.accounts.users, row.id = userId ∧ row.deletedAt ≠ none

def Tables.Deactivated (tables : Tables) (userId : Text) : Prop :=
  (∃ row ∈ tables.accounts.users, row.id = userId) ∧
    (tables.columns userId).isActive = false

/-- The account is deactivated or marked deleted. -/
def Tables.Closed (tables : Tables) (userId : Text) : Prop :=
  tables.Deactivated userId ∨ tables.Marked userId

/-- The users are as they were. -/
def SameAccounts (before after : AuthState) : Prop :=
  after.tables.accounts.users = before.tables.accounts.users ∧
    after.tables.columns = before.tables.columns

theorem SameAccounts.refl (state : AuthState) : SameAccounts state state :=
  ⟨rfl, rfl⟩

theorem SameAccounts.trans {first second third : AuthState}
    (before : SameAccounts first second) (after : SameAccounts second third) :
    SameAccounts first third :=
  ⟨after.1.trans before.1, after.2.trans before.2⟩

theorem SameAccounts.closed {before after : AuthState}
    (same : SameAccounts before after) (userId : Text) :
    after.tables.Closed userId ↔ before.tables.Closed userId := by
  simp only [Tables.Closed, Tables.Deactivated, Tables.Marked, same.1, same.2]

/-! ## What the code reads -/

section Conditions

variable [TextDigest]

/-- A lookup may answer that the token is not revoked: the one in Redis, or,
without Redis or when it fails, the one in the database. -/
def Unrevoked (settings : AuthSettings) (stores : Sessions.Stores)
    (claims : Sessions.TokenClaims) : Prop :=
  (settings.sessions.redis = true ∧
    Sessions.Stores.exists? stores.redisJtis stores.now claims.jti = false ∧
    Sessions.Stores.exists? stores.redisFamilies stores.now
      claims.tokenFamily = false) ∨
    stores.isRevokedInDb claims.jti claims.tokenFamily = false

/-- A `jti` can be consumed. -/
def Consumable (settings : AuthSettings) (stores : Sessions.Stores)
    (claims : Sessions.TokenClaims) : Prop :=
  if settings.sessions.redis then
    Sessions.Stores.exists? stores.redisJtis stores.now claims.jti = false
  else (stores.revocations.any fun row => row.jti = claims.jti) = false

/-- The key is not locked. -/
def Unlocked (settings : AuthSettings) (tables : Tables) (key : LockoutKey) :
    Prop :=
  tables.countFailures key (tables.stores.now - settings.window key) <
    settings.limit key

/-- The code is a second factor of the user. -/
def RightFactor (settings : AuthSettings) (tables : Tables) (user : User)
    (code : Text) : Prop :=
  (∃ secret, user.mfaSecret.bind settings.decryptSecret = some secret ∧
    settings.verifyTotp secret code tables.stores.now = true) ∨
    ∃ config, tables.findMfaConfiguration user.id = some config ∧
      0 < tables.recoveryCodes.countP
        (Tables.unusedCode config.id (hashRecoveryCode code))

/-- A token that the gate of every request may accept. -/
structure Accepts (settings : AuthSettings) (tables : Tables)
    (token : Bearer) : Prop where
  inDate : Sessions.validateToken token.claims tables.stores.now = .ok ()
  purpose : token.claims.tokenType = .access
  unrevoked : Unrevoked settings tables.stores token.claims
  active : ∃ user, tables.findUser token.sub = some user ∧ user.isActive = true

/-- A challenge that may be redeemed with a code. -/
structure Redeems (settings : AuthSettings) (tables : Tables)
    (challenge : Bearer) (code : Text) : Prop where
  inDate : Sessions.validateToken challenge.claims tables.stores.now = .ok ()
  purpose : challenge.claims.tokenType = .mfachallenge
  unrevoked : Unrevoked settings tables.stores challenge.claims
  consumable : Consumable settings tables.stores challenge.claims
  user : ∃ user, tables.findUser challenge.sub = some user ∧
    user.isActive = true ∧ user.mfaEnabled = true ∧
    Unlocked settings tables (.mfaLogin user.id) ∧
    RightFactor settings tables user code

/-- A refresh token that may be redeemed. -/
structure Refreshes (settings : AuthSettings) (stores : Sessions.Stores)
    (claims : Sessions.TokenClaims) : Prop where
  inDate : Sessions.validateToken claims stores.now = .ok ()
  purpose : claims.tokenType = .refresh
  alive : stores.isFamilyRevokedInDb claims.tokenFamily = false
  consumable : Consumable settings stores claims

/-- An exchange code that can be redeemed. -/
def Exchanges (settings : AuthSettings) (tables : Tables)
    (code userId : Text) : Prop :=
  ∃ record secret, (tables.consumeExchangeCode code).1 = some record ∧
    settings.decryptSecret record.accessToken = some secret ∧
    record.userId = userId

variable [UnicodeTables]

/-- A login that succeeds. -/
structure LogsIn (settings : AuthSettings) (tables : Tables)
    (request : LoginRequest) (user : User) : Prop where
  found : tables.findLogin settings request.username.trim.toLowercase
    request.pick = some user
  active : user.isActive = true
  right : settings.verifyPassword request.password
    (user.passwordHash.getD []) = .ok true
  unlocked : Unlocked settings tables
    (.login request.username.trim.toLowercase)
  unlockedIp : ∀ clientIp, request.ipKey = some clientIp →
    Unlocked settings tables (.loginIp clientIp)

/-- The request does not get past what the code reads, where it is for an
account that is marked deleted; and no exchange code or refresh token of a
closed account is redeemed. -/
def Harmless (settings : AuthSettings) (state : AuthState) :
    Operation → Prop
  | .login request => ∀ user, LogsIn settings state.tables request user →
      ¬ state.tables.Marked user.id
  | .loginMfa challenge code => Redeems settings state.tables challenge code →
      ¬ state.tables.Marked challenge.sub
  | .exchangeToken code => ∀ userId, Exchanges settings state.tables code
      userId → ¬ state.tables.Closed userId
  | .refreshToken token =>
      Refreshes settings state.tables.stores token.claims →
        ¬ state.tables.Closed token.sub
  | .authenticated token => Accepts settings state.tables token →
      ¬ state.tables.Marked token.sub
  | .deleteUser token => Accepts settings state.tables token →
      ¬ state.tables.Marked token.sub
  | .useRecoveryCode token _ => Accepts settings state.tables token →
      ¬ state.tables.Marked token.sub
  | .processDeletions _ => True

end Conditions

/-! ## What statements may do -/

section Requirements

variable [TextDigest] [UnicodeTables] (settings : AuthSettings)

/-- Nothing is minted for a closed account, nor is it accepted. -/
def spares (state : AuthState) : Statement → Prop
  | .mintSession userId _ _ => ¬ state.tables.Closed userId
  | .mintChallenge userId => ¬ state.tables.Closed userId
  | .accept userId => ¬ state.tables.Closed userId
  | _ => True

abbrev sparing : Discipline AuthState Statement Statement.Reply :=
  sequential (machine settings).Executes spares

/-- What is known of an account that has been closed. -/
structure LockedOut (userId : Text) (minted : List Minting)
    (accepted : List Text) (state : AuthState) : Prop where
  closed : state.tables.Closed userId
  minted : state.record.minted.filter (fun entry => entry.userId = userId) =
    minted
  accepted : state.record.accepted.filter (fun entry => entry = userId) =
    accepted

variable {userId : Text}

omit [TextDigest] [UnicodeTables] in
theorem Tables.Closed.of_users {before after : Tables}
    (closed : before.Closed userId)
    (columns : (before.columns userId).isActive = false →
      (after.columns userId).isActive = false)
    (rows : ∀ row ∈ before.accounts.users, ∃ other ∈ after.accounts.users,
      other.id = row.id ∧ (row.deletedAt ≠ none → other.deletedAt ≠ none)) :
    after.Closed userId := by
  rcases closed with ⟨⟨row, member, named⟩, inactive⟩ | ⟨row, member, named, marked⟩
  · obtain ⟨other, inside, same, _⟩ := rows row member
    exact .inl ⟨⟨other, inside, same.trans named⟩, columns inactive⟩
  · obtain ⟨other, inside, same, keeps⟩ := rows row member
    exact .inr ⟨other, inside, same.trans named, keeps marked⟩

omit [TextDigest] [UnicodeTables] in
theorem mem_map_users {users : List Deletion.UserRow}
    {change : Deletion.UserRow → Deletion.UserRow}
    (keeps : ∀ row, (change row).id = row.id ∧
      (row.deletedAt ≠ none → (change row).deletedAt ≠ none)) :
    ∀ row ∈ users, ∃ other ∈ users.map change, other.id = row.id ∧
      (row.deletedAt ≠ none → other.deletedAt ≠ none) :=
  fun row member => ⟨change row, List.mem_map_of_mem member, keeps row⟩

omit [TextDigest] [UnicodeTables] in
/-- The lifecycle keeps every row and every mark. -/
theorem lifecycle_users (accounts : Deletion.Accounts)
    (statement : Deletion.Statement) :
    ∀ row ∈ accounts.users, ∃ other ∈ (statement.answer accounts).2.users,
      other.id = row.id ∧ (row.deletedAt ≠ none → other.deletedAt ≠ none) := by
  have unchanged : ∀ row ∈ accounts.users, ∃ other ∈ accounts.users,
      other.id = row.id ∧ (row.deletedAt ≠ none → other.deletedAt ≠ none) :=
    fun row member => ⟨row, member, rfl, id⟩
  cases statement with
  | markUserDeleted userId =>
      apply mem_map_users
      intro row
      split
      · exact ⟨rfl, fun _ => Option.some_ne_none _⟩
      · exact ⟨rfl, id⟩
  | insertRequest requestId userId token deadline =>
      rw [Deletion.insertRequest_users]
      exact unchanged
  | recipient userId =>
      simp only [Deletion.Statement.answer, Deletion.Statement.run]
      cases accounts.recipient userId <;> exact unchanged
  | utcNow | cancelRequest | selectDue | markRequestDeleted | revokeSessions
  | selectReminders | email | recordReminder | ended => exact unchanged

omit [TextDigest] [UnicodeTables] in
theorem inactive_deactivate {tables : Tables} (other : Text)
    (inactive : (tables.columns userId).isActive = false) :
    ((tables.deactivate other).columns userId).isActive = false := by
  show (Function.update tables.columns other
    { tables.columns other with isActive := false } userId).isActive = false
  by_cases same : userId = other
  · rw [same, Function.update_self]
  · rw [Function.update_of_ne same, inactive]

omit [UnicodeTables] in
theorem closed_answer {state : AuthState} (statement : Statement)
    (closed : state.tables.Closed userId) :
    (statement.answer settings state).2.tables.Closed userId := by
  have same : ∀ row ∈ state.tables.accounts.users,
      ∃ other ∈ state.tables.accounts.users, other.id = row.id ∧
        (row.deletedAt ≠ none → other.deletedAt ≠ none) :=
    fun row member => ⟨row, member, rfl, id⟩
  cases statement with
  | lifecycle statement =>
      exact closed.of_users id (lifecycle_users _ statement)
  | deactivate other =>
      refine closed.of_users (fun inactive => ?_) (mem_map_users fun row => ?_)
      · exact inactive_deactivate other inactive
      · split
        · exact ⟨rfl, id⟩
        · exact ⟨rfl, id⟩
  | verifyPassword password passwordHash attempts =>
      simp only [Statement.answer]
      split <;> exact closed
  | countFailures key windowStart =>
      simp only [Statement.answer, Statement.checked]
      split <;> exact closed
  | session | utcNow | recordFailure | clearFailures | findLogin | findUser
  | verifyTotp | consumeExchangeCode | findMfaConfiguration | countUnused
  | consumeRecoveryCode | countConsumed | mintSession | mintChallenge | accept
  | ended => exact closed

omit [TextDigest] [UnicodeTables] in
theorem attempts_only (record : Record) (attempts : List Nat)
    (time : Timestamp) (right : Bool) :
    (attempts.foldl (fun record attempt => record.compared attempt time right)
        record).minted = record.minted ∧
      (attempts.foldl (fun record attempt =>
        record.compared attempt time right) record).accepted =
        record.accepted := by
  induction attempts generalizing record with
  | nil => exact ⟨rfl, rfl⟩
  | cons attempt attempts ih => exact ih (record.compared attempt time right)

omit [TextDigest] [UnicodeTables] in
theorem filter_append_ne {Entry : Type} {owner : Entry → Text}
    {entries : List Entry} {entry : Entry} (other : owner entry ≠ userId) :
    (entries ++ [entry]).filter (fun entry => owner entry = userId) =
      entries.filter fun entry => owner entry = userId := by
  simp [other]

omit [UnicodeTables] in
theorem lockedOut_answer {state : AuthState} {statement : Statement}
    {minted : List Minting} {accepted : List Text}
    (spared : spares state statement)
    (out : LockedOut userId minted accepted state) :
    LockedOut userId minted accepted (statement.answer settings state).2 := by
  refine ⟨closed_answer settings statement out.closed, ?_, ?_⟩
  · refine Eq.trans ?_ out.minted
    cases statement with
    | mintSession | mintChallenge =>
        apply filter_append_ne
        rintro rfl
        exact spared out.closed
    | verifyPassword password passwordHash attempts =>
        simp only [Statement.answer]
        split
        · rfl
        · simp only [attempts_only]
    | countFailures key windowStart =>
        simp only [Statement.answer, Statement.checked]
        split <;> rfl
    | _ => rfl
  · refine Eq.trans ?_ out.accepted
    cases statement with
    | accept other =>
        have other : id other ≠ userId := by
          rintro rfl
          exact spared out.closed
        exact filter_append_ne other
    | verifyPassword password passwordHash attempts =>
        simp only [Statement.answer]
        split
        · rfl
        · simp only [attempts_only]
    | countFailures key windowStart =>
        simp only [Statement.answer, Statement.checked]
        split <;> rfl
    | _ => rfl

/-! ## Statements in a program -/

section Steps

variable {settings}

variable {state : AuthState} {Result : Type}

theorem safe_statement (statement : Statement)
    (read : statement.Reply → Except AppError Result)
    (relation : AuthState → Prop) (required : spares state statement)
    (before : relation state) (after : relation
      (statement.answer settings state).2)
    (fails : ∃ error, read statement.failure = .error error) :
    (Program.ask statement fun reply => .done (read reply)).Safe
      (sparing settings)
      (fun after result => relation after ∧
        ∀ value, result = .ok value →
          read (statement.answer settings state).1 = .ok value) state := by
  refine Program.safe_ask required fun reply last executes => ?_
  apply Program.safe_done
  rcases fails with ⟨error, fails⟩
  cases executes with
  | answered => exact ⟨after, fun value same => same⟩
  | failed =>
      refine ⟨before, fun value same => ?_⟩
      cases fails.symm.trans same
  | lost =>
      refine ⟨after, fun value same => ?_⟩
      cases fails.symm.trans same

theorem safe_read (statement : Statement)
    (read : statement.Reply → Except AppError Result)
    (required : spares state statement)
    (kept : (statement.answer settings state).2.tables = state.tables)
    (fails : ∃ error, read statement.failure = .error error) :
    (Program.ask statement fun reply => .done (read reply)).Safe
      (sparing settings)
      (fun after result => after.tables = state.tables ∧
        ∀ value, result = .ok value →
          read (statement.answer settings state).1 = .ok value) state :=
  safe_statement statement read (fun after => after.tables = state.tables)
    required rfl kept fails

/-- A statement that leaves the users and mints nothing. -/
def Quiet (settings : AuthSettings) (statement : Statement) : Prop :=
  ∀ state, spares state statement ∧
    SameAccounts state (statement.answer settings state).2

theorem safe_quiet {program : Task Result}
    (quiet : program.Asks (Quiet settings)) {start : AuthState}
    (same : SameAccounts start state) :
    program.Safe (sparing settings) (fun after _ => SameAccounts start after)
      state := by
  induction program generalizing state with
  | done result => exact Program.safe_done same
  | ask statement next ih =>
      have here := quiet.1 state
      refine Program.safe_ask here.1 fun reply after executes => ?_
      apply ih reply (quiet.2 reply)
      cases executes with
      | answered => exact same.trans here.2
      | failed => exact same
      | lost => exact same.trans here.2

theorem safe_discarded {program : Task Result}
    {ensures : AuthState → Except AppError Result → Prop}
    (safe : program.Safe (sparing settings) ensures state) :
    program.Safe (sparing settings) (fun _ _ => True) state :=
  safe.mono fun _ _ _ => trivial

omit [UnicodeTables] in
theorem quiet_recordFailure (key : LockoutKey) (attempt : Nat) :
    (recordLoginFailure key attempt).Asks (Quiet settings) :=
  asks_recordLoginFailure (fun state => ⟨trivial, SameAccounts.refl state⟩)
    fun _ _ => ⟨trivial, rfl, rfl⟩

omit [UnicodeTables] in
theorem quiet_clearLoginFailures (key : LockoutKey) (attempt : Nat) :
    (clearLoginFailures key attempt).Asks (Quiet settings) :=
  asks_one fun _ => ⟨trivial, rfl, rfl⟩

omit [UnicodeTables] in
theorem quiet_recordFailures (passed : Passed) :
    (recordFailures passed).Asks (Quiet settings) :=
  asks_recordFailures passed (fun state => ⟨trivial, SameAccounts.refl state⟩)
    (fun _ _ => ⟨trivial, rfl, rfl⟩) fun _ _ _ _ => ⟨trivial, rfl, rfl⟩

omit [UnicodeTables] in
theorem quiet_clearFailures (passed : Passed) :
    (clearFailures passed).Asks (Quiet settings) :=
  asks_clearFailures passed fun _ _ _ => ⟨trivial, rfl, rfl⟩

theorem closing_safe {body : Task Result} {key : LockoutKey} {attempt : Nat}
    (safe : body.Safe (sparing settings) (fun _ _ => True) state) :
    (closing key attempt body).Safe (sparing settings) (fun _ _ => True) state := by
  have handed : (body.attempt : Task (Except AppError Result)).Safe
      (sparing settings) (fun _ _ => True) state :=
    safe.attempt fun _ _ _ => trivial
  refine handed.bind (fun _ _ _ => trivial) fun after result _ => ?_
  have quiet : (Program.ask (.ended key attempt result.isOk) .done : Task Unit).Asks
      (Quiet settings) := ⟨fun _ => ⟨trivial, ⟨rfl, rfl⟩⟩, fun _ => trivial⟩
  refine Program.Safe.bind (safe_discarded (safe_quiet quiet.attempt
    (SameAccounts.refl after))) (fun _ _ _ => trivial) ?_
  exact fun _ _ _ => Program.safe_done trivial

theorem checkLoginLockout_safe (key : LockoutKey) (state : AuthState) :
    (checkLoginLockout settings key).Safe (sparing settings)
      (fun after result => after.tables = state.tables ∧
        ∀ checked, result = .ok checked → checked.1 = false →
          Unlocked settings state.tables key) state := by
  refine Program.Safe.bind (safe_read .utcNow (fun reply => reply)
    trivial rfl ⟨_, rfl⟩) ?_ ?_
  · exact fun after error kept => ⟨kept.1, fun _ same => by cases same⟩
  · rintro middle now ⟨kept, read⟩
    obtain rfl : state.tables.stores.now = now := Except.ok.inj (read now rfl)
    refine Program.Safe.bind (safe_read (.countFailures key _)
      (fun reply => reply) trivial ?_ ⟨_, rfl⟩) ?_ ?_
    · simp only [Statement.answer, Statement.checked]
      split <;> rfl
    · exact fun after error last => ⟨last.1.trans kept, fun _ same => by
        cases same⟩
    · rintro last counted ⟨keptLast, answered⟩
      refine Program.safe_done ⟨keptLast.trans kept, fun checked same open_ => ?_⟩
      obtain rfl := Except.ok.inj same
      have counts := Except.ok.inj (answered counted rfl)
      rw [← counts] at open_
      have below := of_decide_eq_false open_
      rw [Statement.checked, kept] at below
      exact not_le.1 below

theorem unlessLocked_safe {key : LockoutKey}
    {locked : AppError} {body : Nat → Task Result}
    (safe : ∀ attempt middle, middle.tables = state.tables →
      Unlocked settings state.tables key →
        (body attempt).Safe (sparing settings) (fun _ _ => True) middle) :
    (unlessLocked settings key locked body).Safe (sparing settings)
      (fun _ _ => True) state := by
  refine Program.Safe.bind (checkLoginLockout_safe key state)
    (fun _ _ _ => trivial) ?_
  rintro middle checked ⟨kept, unlocked⟩
  split
  · exact Program.safe_done trivial
  · rename_i passes
    exact closing_safe (safe _ middle kept
      (unlocked checked rfl (Bool.eq_false_of_not_eq_true passes)))

/-! ## The first factor -/

omit [TextDigest] [UnicodeTables] in
/-- An account that a decoded row shows as active is closed by its mark. -/
theorem marked_of_closed {tables : Tables} {row : Deletion.UserRow}
    (active : (tables.decode row).isActive = true)
    (closed : tables.Closed row.id) : tables.Marked row.id := by
  rcases closed with ⟨_, inactive⟩ | marked
  · have same : (tables.decode row).isActive =
        (tables.columns row.id).isActive := rfl
    rw [same, inactive] at active
    cases active
  · exact marked

theorem mint_safe (spared : ¬ state.tables.Closed userId) (mfaEnabled : Bool) :
    (if mfaEnabled then createMfaChallengeToken userId
      else sessionResponse userId none : Task Unit).Safe (sparing settings)
        (fun _ _ => True) state := by
  cases mfaEnabled with
  | true | false =>
      exact Program.safe_ask spared fun _ _ _ => Program.safe_done trivial

theorem loginUnlocked_safe {request : LoginRequest} {normalized : Text}
    {passed : Passed}
    (harmless : ∀ user,
      state.tables.findLogin settings normalized request.pick = some user →
        user.isActive = true →
          settings.verifyPassword request.password
            (user.passwordHash.getD []) = .ok true →
            ¬ state.tables.Marked user.id) :
    (loginUnlocked request normalized passed).Safe (sparing settings)
      (fun _ _ => True) state := by
  have refused : ∀ (middle : AuthState) (error : AppError),
      (do recordFailures passed; .fail error : Task Unit).Safe
        (sparing settings) (fun _ _ => True) middle := by
    intro middle error
    refine (safe_discarded (safe_quiet (quiet_recordFailures passed)
      (SameAccounts.refl middle))).bind (fun _ _ _ => trivial) ?_
    exact fun _ _ _ => Program.safe_done trivial
  refine (safe_read (.findLogin normalized request.pick) (fun reply => reply)
    trivial rfl ⟨_, rfl⟩).bind (fun _ _ _ => trivial) ?_
  rintro middle found ⟨kept, answered⟩
  obtain rfl := Except.ok.inj (answered found rfl)
  split
  · exact refused middle _
  · rename_i user named
    split
    · exact refused middle _
    · rename_i active
      refine (safe_read (.verifyPassword request.password _ passed.attempts)
        (fun reply => reply) trivial ?_ ⟨_, rfl⟩).bind
          (fun _ _ _ => trivial) ?_
      · simp only [Statement.answer]
        split <;> rfl
      · rintro last right ⟨keptLast, compared⟩
        split
        · exact refused last _
        · rename_i rightly
          have verified : settings.verifyPassword request.password
              (user.passwordHash.getD []) = .ok true := by
            have reply := compared right rfl
            simp only [Statement.answer] at reply
            split at reply
            · cases reply
            · rename_i verified
              rw [verified, Except.ok.inj reply]
              refine congrArg Except.ok (by_contra fun wrong => rightly ?_)
              rw [Bool.eq_false_of_not_eq_true wrong]
              rfl
          refine (safe_quiet (quiet_clearFailures passed)
            (SameAccounts.refl last)).bind (fun _ _ _ => trivial) ?_
          intro final _ same
          refine mint_safe (fun closed => ?_) user.mfaEnabled
          rw [same.closed, keptLast, kept] at closed
          have isActive : user.isActive = true := by simpa using active
          obtain ⟨row, _, rfl⟩ := Option.map_eq_some_iff.1 named
          exact harmless _ named isActive verified
            (marked_of_closed isActive closed)

theorem login_safe {request : LoginRequest}
    (harmless : ∀ user, LogsIn settings state.tables request user →
      ¬ state.tables.Marked user.id) :
    (login settings request).Safe (sparing settings) (fun _ _ => True)
      state := by
  unfold login
  apply unlessLocked_safe
  intro first middle kept unlocked
  have through : ∀ (last : AuthState) (passed : Passed),
      last.tables = state.tables →
      (∀ clientIp, request.ipKey = some clientIp →
        Unlocked settings state.tables (.loginIp clientIp)) →
      (loginUnlocked request request.username.trim.toLowercase passed).Safe
        (sparing settings) (fun _ _ => True) last := by
    intro last passed keptLast unlockedIp
    apply loginUnlocked_safe
    intro user found active right
    rw [keptLast] at found ⊢
    exact harmless user ⟨found, active, right, unlocked, unlockedIp⟩
  cases address : request.ipKey with
  | none =>
      apply through _ _ kept
      intro clientIp named
      rw [address] at named
      cases named
  | some clientIp =>
      apply unlessLocked_safe
      intro second last keptLast unlockedIp
      apply through _ _ (keptLast.trans kept)
      intro other named
      rw [address, Option.some.injEq] at named
      rw [← named, ← kept]
      exact unlockedIp

theorem decryptedOwner_safe {code : Text} {after : AuthState}
    {record : Option AuthExchangeCode}
    (found : (state.tables.consumeExchangeCode code).1 = record)
    (same : SameAccounts state after) :
    (decryptedOwner settings record).Safe (sparing settings)
      (fun after result => SameAccounts state after ∧ ∀ userId,
        result = .ok (some userId) →
          Exchanges settings state.tables code userId) after := by
  cases record with
  | none => exact Program.safe_done ⟨same, fun _ other => by cases other⟩
  | some record =>
      rw [decryptedOwner]
      cases decrypted : settings.decryptSecret record.accessToken with
      | none => exact Program.safe_done ⟨same, fun _ other => by cases other⟩
      | some secret =>
          refine Program.safe_done ⟨same, fun userId other => ?_⟩
          cases other
          exact ⟨record, secret, found, decrypted, rfl⟩

theorem exchangeToken_safe {code : Text}
    (harmless : ∀ userId, Exchanges settings state.tables code userId →
      ¬ state.tables.Closed userId) :
    (exchangeToken settings code).Safe (sparing settings) (fun _ _ => True)
      state := by
  have consumed : (verifyAndConsumeExchangeCode settings code).Safe
      (sparing settings)
      (fun after result => SameAccounts state after ∧ ∀ userId,
        result = .ok (some userId) →
          Exchanges settings state.tables code userId) state := by
    refine Program.safe_ask trivial fun reply after executes => ?_
    have same : SameAccounts state after := by
      cases executes <;> exact ⟨rfl, rfl⟩
    cases reply with
    | error error => exact Program.safe_done ⟨same, fun _ other => by cases other⟩
    | ok record =>
        have found : (state.tables.consumeExchangeCode code).1 = record := by
          rcases executes.reply_cases with answered | failed
          · exact Except.ok.inj (congrArg Prod.fst answered)
          · cases failed
        exact (decryptedOwner_safe found same)
  refine consumed.bind (fun _ _ _ => trivial) ?_
  rintro middle result ⟨same, exchanged⟩
  cases result with
  | none => exact Program.safe_done trivial
  | some userId =>
      have spared : ¬ middle.tables.Closed userId := by
        rw [same.closed]
        exact harmless userId (exchanged userId rfl)
      refine (safe_read (.findUser userId) (fun reply => reply)
        trivial rfl ⟨_, rfl⟩).bind (fun _ _ _ => trivial) ?_
      rintro last found ⟨kept, _⟩
      rw [← kept] at spared
      exact mint_safe spared _

/-! ## The stores of the tokens -/

omit [TextDigest] [UnicodeTables]

abbrev storing (settings : AuthSettings) :
    Discipline Sessions.Stores Sessions.Statement Sessions.Statement.Reply :=
  sequential (Sessions.machine settings.sessions).Executes fun _ _ => True

theorem query_safe (statement : Sessions.Statement) (stores : Sessions.Stores) :
    (Sessions.query statement).Safe (storing settings)
      (fun after result => ∀ value, result = .ok value →
        statement.answer settings.sessions stores = (.ok value, after))
      stores := by
  refine Program.safe_ask trivial fun reply after executes => ?_
  refine Program.safe_done fun value same => ?_
  rcases executes.reply_cases with answered | failed
  · exact same ▸ answered
  · cases failed.symm.trans same

theorem reading_safe (statement : Sessions.Statement) {stores : Sessions.Stores}
    (reads : (statement.answer settings.sessions stores).2 = stores) :
    (Sessions.query statement).Safe (storing settings)
      (fun after result => after = stores ∧ ∀ value, result = .ok value →
        (statement.answer settings.sessions stores).1 = .ok value) stores := by
  refine Program.safe_ask trivial fun reply after executes => ?_
  have kept : after = stores := by
    cases executes with
    | answered => exact reads
    | failed => rfl
    | lost => exact reads
  refine Program.safe_done ⟨kept, fun value same => ?_⟩
  rcases executes.reply_cases with answered | failed
  · exact (congrArg Prod.fst answered).trans same
  · cases failed.symm.trans same

variable (claims : Sessions.TokenClaims)

variable (stores : Sessions.Stores)

theorem isRevokedInRedis_safe :
    (Sessions.isRevokedInRedis claims).Safe (storing settings)
      (fun after result => after = stores ∧ (result = .ok false →
        Sessions.Stores.exists? stores.redisJtis stores.now claims.jti = false ∧
          Sessions.Stores.exists? stores.redisFamilies stores.now
            claims.tokenFamily = false)) stores := by
  refine (reading_safe (.jtiExists claims.jti) rfl).bind
    (fun _ _ kept => ⟨kept.1, fun other => by cases other⟩) ?_
  rintro middle jtiRevoked ⟨rfl, found⟩
  have jti := Except.ok.inj (found jtiRevoked rfl)
  cases jtiRevoked with
  | true => exact Program.safe_done ⟨rfl, fun other => by cases other⟩
  | false =>
      refine (reading_safe (.familyExists claims.tokenFamily) rfl).mono ?_
      rintro after result ⟨rfl, answered⟩
      exact ⟨rfl, fun same => ⟨jti, Except.ok.inj (answered false same)⟩⟩

theorem isRevoked_safe :
    (Sessions.isRevoked settings.sessions claims).Safe (storing settings)
      (fun after result => after = stores ∧ (result = .ok false →
        Unrevoked settings stores claims)) stores := by
  have inDb : (Sessions.isRevokedInDb claims).Safe (storing settings)
      (fun after result => after = stores ∧ (result = .ok false →
        Unrevoked settings stores claims)) stores := by
    refine (reading_safe (.isRevokedInDb claims.jti claims.tokenFamily)
      rfl).mono ?_
    rintro after result ⟨rfl, answered⟩
    exact ⟨rfl, fun same => .inr (Except.ok.inj (answered false same))⟩
  unfold Sessions.isRevoked
  split
  · rename_i redis
    have handed : ((Sessions.isRevokedInRedis claims).attempt :
        Sessions.Task (Except Sessions.AppError Bool)).Safe (storing settings)
        (fun after result => after = stores ∧ (result = .ok (.ok false) →
          Unrevoked settings stores claims)) stores := by
      apply (isRevokedInRedis_safe claims stores).attempt
      rintro after result ⟨kept, clear⟩
      refine ⟨kept, fun same => .inl ⟨redis, clear (Except.ok.inj same)⟩⟩
    refine handed.bind (fun _ _ kept => ⟨kept.1, fun other => by cases other⟩) ?_
    rintro middle asked ⟨rfl, clear⟩
    cases asked with
    | error error => exact inDb
    | ok revoked =>
        refine Program.safe_done ⟨rfl, fun same => clear ?_⟩
        exact congrArg Except.ok same
  · exact inDb

theorem validateToken_safe :
    (Sessions.validateTokenWithAntiReplay settings.sessions claims).Safe
      (storing settings)
      (fun after result => after = stores ∧ ∀ since, result = .ok since →
        Sessions.validateToken claims stores.now = .ok () ∧
          Unrevoked settings stores claims) stores := by
  refine (reading_safe .start rfl).bind
    (fun _ _ kept => ⟨kept.1, fun _ other => by cases other⟩) ?_
  rintro middle started ⟨rfl, answered⟩
  obtain rfl := Except.ok.inj (answered started rfl)
  dsimp only
  cases valid : Sessions.validateToken claims middle.now with
  | error error => exact Program.safe_done ⟨rfl, fun _ other => by cases other⟩
  | ok _ =>
      refine (isRevoked_safe claims middle).bind
        (fun _ _ kept => ⟨kept.1, fun _ other => by cases other⟩) ?_
      rintro last revoked ⟨rfl, clear⟩
      cases revoked with
      | true => exact Program.safe_done ⟨rfl, fun _ other => by cases other⟩
      | false =>
          exact Program.safe_done ⟨rfl, fun _ _ => ⟨rfl, clear rfl⟩⟩

theorem requireTokenType_eq_ok {claims : Sessions.TokenClaims}
    {expected : Sessions.TokenType}
    (accepted : Sessions.requireTokenType claims expected = .ok ()) :
    claims.tokenType = expected := by
  unfold Sessions.requireTokenType at accepted
  split at accepted
  · cases accepted
  · rename_i same
    exact not_not.1 same

theorem validateAccessToken_safe :
    (Sessions.validateAccessToken settings.sessions claims).Safe
      (storing settings)
      (fun _ result => ∀ since, result = .ok since →
        Sessions.validateToken claims stores.now = .ok () ∧
          Unrevoked settings stores claims ∧ claims.tokenType = .access)
      stores := by
  refine (validateToken_safe claims stores).bind
    (fun _ _ _ => fun _ other => by cases other) ?_
  rintro middle since ⟨rfl, valid⟩
  cases purpose : Sessions.requireTokenType claims .access with
  | error error => exact Program.safe_done fun _ other => by cases other
  | ok _ =>
      have checked := valid since rfl
      have accepted : (do
          let _ ← Sessions.query (.accept claims since)
          return since : Sessions.Task Nat).Safe (storing settings)
          (fun _ result => ∀ since, result = .ok since →
            Sessions.validateToken claims middle.now = .ok () ∧
              Unrevoked settings middle claims ∧ claims.tokenType = .access)
          middle := by
        refine Program.Safe.bind (query_safe (.accept claims since) middle)
          (fun _ _ _ => fun _ other => by cases other) ?_
        intro last _ _
        refine Program.safe_done fun _ _ => ?_
        exact ⟨checked.1, checked.2, requireTokenType_eq_ok purpose⟩
      exact accepted

theorem consumeJtiOnce_safe (ttlSeconds : Int) (stores : Sessions.Stores) :
    (Sessions.consumeJtiOnce settings.sessions claims ttlSeconds).Safe
      (storing settings)
      (fun _ result => result = .ok true →
        Consumable settings stores claims) stores := by
  have inRedis : settings.sessions.redis = true →
      (Sessions.query (.consumeInRedis claims ttlSeconds)).Safe
        (storing settings) (fun _ result => result = .ok true →
          Consumable settings stores claims) stores := by
    intro redis
    refine (query_safe (.consumeInRedis claims ttlSeconds) stores).mono ?_
    intro after result answered same
    have won := congrArg Prod.fst (answered true same)
    simp only [Sessions.Statement.answer, Sessions.Statement.run,
      Sessions.Stores.consumeInRedis] at won
    rw [Consumable, if_pos redis]
    by_contra present
    rw [if_pos (Bool.eq_true_of_not_eq_false present)] at won
    cases won
  have inDb : settings.sessions.redis = false →
      (Sessions.query (.consumeInDb claims ttlSeconds)).Safe
        (storing settings) (fun _ result => result = .ok true →
          Consumable settings stores claims) stores := by
    intro noRedis
    refine (query_safe (.consumeInDb claims ttlSeconds) stores).mono ?_
    intro after result answered same
    have won := congrArg Prod.fst (answered true same)
    simp only [Sessions.Statement.answer, Sessions.Statement.run,
      Sessions.Stores.consumeInDb] at won
    rw [Consumable, noRedis, if_neg Bool.false_ne_true]
    by_contra present
    rw [if_pos (Bool.eq_true_of_not_eq_false present)] at won
    cases won
  unfold Sessions.consumeJtiOnce
  cases redis : settings.sessions.redis with
  | true => exact inRedis redis
  | false => exact inDb redis

theorem isFamilyRevoked_safe :
    (Sessions.isFamilyRevoked settings.sessions claims).Safe
      (storing settings)
      (fun after result => after = stores ∧ ∀ moment,
        result = .ok (false, moment) →
          stores.isFamilyRevokedInDb claims.tokenFamily = false) stores := by
  have inDb : (Sessions.isFamilyRevokedInDb claims).Safe (storing settings)
      (fun after result => after = stores ∧ ∀ moment,
        result = .ok (false, moment) →
          stores.isFamilyRevokedInDb claims.tokenFamily = false) stores := by
    refine (reading_safe (.isFamilyRevokedInDb claims.tokenFamily) rfl).mono ?_
    rintro after result ⟨rfl, answered⟩
    refine ⟨rfl, fun moment same => ?_⟩
    exact congrArg Prod.fst (Except.ok.inj (answered (false, moment) same))
  unfold Sessions.isFamilyRevoked
  split
  · have handed : ((Sessions.query
        (.familyExists claims.tokenFamily)).attempt :
          Sessions.Task (Except Sessions.AppError Bool)).Safe (storing settings)
        (fun after _ => after = stores) stores := by
      apply (reading_safe (.familyExists claims.tokenFamily) rfl).attempt
      exact fun _ _ kept => kept.1
    refine handed.bind (fun _ _ kept => ⟨kept, fun _ other => by cases other⟩) ?_
    rintro middle found rfl
    cases found with
    | error error => exact inDb
    | ok known =>
        cases known with
        | true => exact Program.safe_done ⟨rfl, fun _ other => by cases other⟩
        | false => exact inDb
  · exact inDb

theorem consumeRefreshToken_safe :
    (Sessions.consumeRefreshToken settings.sessions claims).Safe
      (storing settings)
      (fun _ result => ∀ checked, result = .ok checked →
        Refreshes settings stores claims) stores := by
  have fails : ∀ (after : Sessions.Stores) (error : Sessions.AppError),
      ∀ checked : Nat, (.error error : Except Sessions.AppError Nat) =
        .ok checked → Refreshes settings stores claims :=
    fun _ _ _ other => by cases other
  refine (reading_safe .utcNow rfl).bind (fun _ error _ => fails stores error) ?_
  rintro middle now ⟨rfl, answered⟩
  obtain rfl := Except.ok.inj (answered now rfl)
  cases valid : Sessions.validateToken claims middle.now with
  | error error => exact Program.safe_done (fails middle error)
  | ok _ =>
      cases purpose : Sessions.requireTokenType claims .refresh with
      | error error => exact Program.safe_done (fails middle error)
      | ok _ =>
          refine (isFamilyRevoked_safe claims middle).bind
            (fun _ error _ => fails middle error) ?_
          rintro third ⟨revoked, moment⟩ ⟨rfl, alive⟩
          cases revoked with
          | true => exact Program.safe_done (fails third _)
          | false =>
              refine (reading_safe .utcNow rfl).bind
                (fun _ error _ => fails third error) ?_
              rintro fourth later ⟨rfl, _⟩
              refine (consumeJtiOnce_safe claims _ fourth).bind
                (fun _ error _ => fails fourth error) ?_
              intro last first consumable
              cases first with
              | true =>
                  refine Program.safe_done fun _ _ => ?_
                  exact {
                    inDate := valid
                    purpose := requireTokenType_eq_ok purpose
                    alive := alive moment rfl
                    consumable := consumable rfl }
              | false => exact Program.safe_done (fails last _)

/-- Everything but the stores of the tokens is as it was. -/
def OnlyStores (before after : AuthState) : Prop :=
  after.tables = { before.tables with stores := after.tables.stores }

theorem OnlyStores.refl (state : AuthState) : OnlyStores state state := rfl

theorem OnlyStores.trans {first second third : AuthState}
    (before : OnlyStores first second) (after : OnlyStores second third) :
    OnlyStores first third := by
  unfold OnlyStores at *
  rw [after, before]

theorem OnlyStores.accounts {before after : AuthState}
    (only : OnlyStores before after) : SameAccounts before after := by
  unfold OnlyStores at only
  rw [SameAccounts, only]
  exact ⟨rfl, rfl⟩

end Steps

section Endpoints

variable {settings}

variable {state : AuthState}

theorem onStores_safe {Result : Type} {task : Sessions.Task Result}
    {redeems : Option Nat}
    {ensures : Sessions.Stores → Except Sessions.AppError Result → Prop}
    (safe : task.Safe (storing settings) ensures state.tables.stores) :
    (onStores task redeems).Safe (sparing settings)
      (fun after result => OnlyStores state after ∧
        ∀ value, result = .ok value →
          ensures after.tables.stores (.ok value)) state := by
  have lifted : (task.lift (Statement.session · redeems) fun _ reply => reply).Safe
      (sparing settings) (fun after result =>
        ensures after.tables.stores result ∧ OnlyStores state after) state := by
    refine Program.Safe.lift (fun state => state.tables.stores) OnlyStores
      OnlyStores.refl OnlyStores.trans ?_ ?_ safe
    rotate_left
    · exact fun _ => trivial
    intro state statement answer after executes
    cases executes with
    | answered => exact ⟨.answered, rfl⟩
    | failed => exact ⟨.failed, rfl⟩
    | lost => exact ⟨.lost, rfl⟩
  have handed : ((task.lift (Statement.session · redeems) fun _ reply => reply).attempt :
      Task (Except Sessions.AppError Result)).Safe (sparing settings)
      (fun after result => ∃ inner, result = .ok inner ∧
        ensures after.tables.stores inner ∧ OnlyStores state after) state := by
    apply lifted.attempt
    rintro after inner ⟨ensured, only⟩
    exact ⟨inner, rfl, ensured, only⟩
  refine handed.bind ?_ ?_
  · rintro after error ⟨inner, other, _⟩
    cases other
  · rintro after result ⟨inner, same, ensured, only⟩
    cases same
    refine Program.safe_done ⟨only, fun value mapped => ?_⟩
    cases result with
    | error error => cases mapped
    | ok found =>
        cases mapped
        exact ensured

theorem mint_session_safe {rotates : Option Nat}
    {payment : Option Payment} (spared : ¬ state.tables.Closed userId) :
    (.ask (.mintSession userId rotates payment) .done : Task Unit).Safe
      (sparing settings) (fun _ _ => True) state :=
  Program.safe_ask spared fun _ _ _ => Program.safe_done trivial

/-! ## The gate of the requests -/

theorem findUser_safe (userId : Text) (state : AuthState) :
    (Program.ask (.findUser userId) .done : Task (Option User)).Safe
      (sparing settings)
      (fun after result => after.tables = state.tables ∧ ∀ found,
        result = .ok found → state.tables.findUser userId = found) state := by
  refine (safe_read (.findUser userId) (fun reply => reply) trivial rfl
    ⟨_, rfl⟩).mono ?_
  rintro after result ⟨kept, answered⟩
  exact ⟨kept, fun found same => Except.ok.inj (answered found same)⟩

variable {user : User}

omit [TextDigest] [UnicodeTables] in
theorem findUser_active {tables : Tables}
    (found : tables.findUser userId = some user) (active : user.isActive = true)
    (closed : tables.Closed userId) : tables.Marked userId := by
  obtain ⟨row, named, rfl⟩ := Option.map_eq_some_iff.1 found
  obtain rfl : row.id = userId := by simpa using List.find?_some named
  exact marked_of_closed active closed

variable {token : Bearer}

theorem authenticatedUser_safe
    (harmless : Accepts settings state.tables token →
      ¬ state.tables.Marked token.sub) :
    (authenticatedUser settings token).Safe (sparing settings)
      (fun after _ => SameAccounts state after) state := by
  refine (onStores_safe (validateAccessToken_safe token.claims
    state.tables.stores)).bind (fun _ _ kept => kept.1.accounts) ?_
  rintro middle since ⟨only, valid⟩
  have checked := valid since rfl since rfl
  refine (findUser_safe token.sub middle).bind
    (fun after _ kept => only.accounts.trans
      ⟨congrArg (·.accounts.users) kept.1, congrArg Tables.columns kept.1⟩) ?_
  rintro last found ⟨kept, named⟩
  have same : SameAccounts state last := only.accounts.trans
    ⟨congrArg (·.accounts.users) kept, congrArg Tables.columns kept⟩
  have read : state.tables.findUser token.sub = found := by
    rw [← named found rfl, only]
    rfl
  cases found with
  | none => exact Program.safe_done same
  | some user =>
      cases active : user.isActive with
      | false =>
          simp only [active]
          exact Program.safe_done same
      | true =>
          simp only [active]
          have spared : ¬ last.tables.Closed token.sub := by
            rw [same.closed]
            intro closed
            refine harmless ⟨checked.1, checked.2.2, checked.2.1, user, read,
              active⟩ (findUser_active read active closed)
          refine Program.safe_ask spared fun reply after executes => ?_
          have kept : SameAccounts state after := by
            cases executes with
            | answered => exact same.trans ⟨rfl, rfl⟩
            | failed => exact same
            | lost => exact same.trans ⟨rfl, rfl⟩
          cases reply with
          | error | ok => exact Program.safe_done kept

/-! ## The second factor -/

/-- The accounts and the stores of the tokens are as they were. -/
def SameStanding (before after : AuthState) : Prop :=
  SameAccounts before after ∧ after.tables.stores = before.tables.stores

omit [TextDigest] [UnicodeTables] in
theorem SameStanding.of_tables {before after : AuthState}
    (kept : after.tables = before.tables) : SameStanding before after :=
  ⟨⟨congrArg (·.accounts.users) kept, congrArg Tables.columns kept⟩,
    congrArg Tables.stores kept⟩

omit [TextDigest] [UnicodeTables] in
theorem SameStanding.trans {first second third : AuthState}
    (before : SameStanding first second) (after : SameStanding second third) :
    SameStanding first third :=
  ⟨before.1.trans after.1, after.2.trans before.2⟩

variable {code : Text}

variable {attempt : Nat}

theorem tryConsumeRecoveryCode_safe {key : LockoutKey} :
    (tryConsumeRecoveryCode user.id code key attempt).Safe (sparing settings)
      (fun after result => SameStanding state after ∧ ∀ factor,
        result = .ok (some factor) →
          RightFactor settings state.tables user code) state := by
  refine (safe_read (.findMfaConfiguration user.id) (fun reply => reply) trivial
    rfl ⟨_, rfl⟩).bind (fun _ _ kept => ⟨SameStanding.of_tables kept.1,
      fun _ other => by cases other⟩) ?_
  rintro middle config ⟨kept, answered⟩
  have found := Except.ok.inj (answered config rfl)
  have standing := SameStanding.of_tables kept
  cases config with
  | none => exact Program.safe_done ⟨standing, fun _ other => by cases other⟩
  | some config =>
      refine (safe_statement (.consumeRecoveryCode config.id
        (hashRecoveryCode code) key attempt) (fun reply => reply)
        (SameStanding middle) trivial (SameStanding.of_tables rfl)
        ⟨⟨rfl, rfl⟩, rfl⟩ ⟨_, rfl⟩).bind
          (fun _ _ kept => ⟨standing.trans kept.1,
            fun _ other => by cases other⟩) ?_
      rintro last consumed ⟨consumedStanding, counted⟩
      have affected := Except.ok.inj (counted consumed rfl)
      have whole := standing.trans consumedStanding
      cases consumed with
      | zero => exact Program.safe_done ⟨whole, fun _ other => by cases other⟩
      | succ others =>
          have right : RightFactor settings state.tables user code := by
            refine .inr ⟨config, found, ?_⟩
            rw [← kept]
            exact (Nat.succ_pos others).trans_eq affected.symm
          refine Program.safe_ask trivial fun reply after executes => ?_
          have counted : SameStanding last after := by
            cases executes with
            | answered => exact ⟨⟨rfl, rfl⟩, rfl⟩
            | failed => exact SameStanding.of_tables rfl
            | lost => exact ⟨⟨rfl, rfl⟩, rfl⟩
          cases reply with
          | error error =>
              exact Program.safe_done ⟨whole.trans counted,
                fun _ other => by cases other⟩
          | ok _ =>
              exact Program.safe_done ⟨whole.trans counted, fun _ _ => right⟩

theorem secondFactor_safe :
    (secondFactor settings user code attempt).Safe (sparing settings)
      (fun after result => SameStanding state after ∧ ∀ factor,
        result = .ok (some factor) →
          RightFactor settings state.tables user code) state := by
  have totp : (verifyTotp settings user code attempt).Safe (sparing settings)
      (fun after result => after.tables = state.tables ∧ (result = .ok true →
        RightFactor settings state.tables user code)) state := by
    unfold verifyTotp
    cases readable : user.mfaSecret.bind settings.decryptSecret with
    | none => exact Program.safe_done ⟨rfl, fun other => by cases other⟩
    | some secret =>
        refine (safe_read (.verifyTotp secret code attempt) (fun reply => reply)
          trivial rfl ⟨_, rfl⟩).mono ?_
        rintro after result ⟨kept, answered⟩
        refine ⟨kept, fun same => .inl ⟨secret, readable, ?_⟩⟩
        exact Except.ok.inj (answered true same)
  refine totp.bind (fun _ _ kept => ⟨SameStanding.of_tables kept.1,
    fun _ other => by cases other⟩) ?_
  rintro middle totpOk ⟨kept, right⟩
  have standing := SameStanding.of_tables kept
  cases totpOk with
  | true => exact Program.safe_done ⟨standing, fun _ _ => right rfl⟩
  | false =>
      refine tryConsumeRecoveryCode_safe.mono ?_
      rintro after result ⟨later, found⟩
      rw [kept] at found
      exact ⟨standing.trans later, found⟩

omit [UnicodeTables] in
theorem quiet_session (statement : Sessions.Statement) (redeems : Option Nat) :
    Quiet settings (.session statement redeems) :=
  fun _ => ⟨trivial, rfl, rfl⟩

theorem redeemChallenge_safe {claims : Sessions.TokenClaims}
    (harmless : RightFactor settings state.tables user code →
      Consumable settings state.tables.stores claims →
        ¬ state.tables.Closed user.id) :
    (redeemChallenge settings claims user code attempt).Safe
      (sparing settings) (fun _ _ => True) state := by
  refine secondFactor_safe.bind (fun _ _ _ => trivial) ?_
  rintro middle factor ⟨standing, right⟩
  cases factor with
  | none =>
      refine (safe_discarded (safe_quiet
        (quiet_recordFailure (.mfaLogin user.id) attempt).attempt
        (SameAccounts.refl middle))).bind (fun _ _ _ => trivial) ?_
      exact fun _ _ _ => Program.safe_done trivial
  | some factor =>
      refine (safe_statement (.clearFailures (.mfaLogin user.id) attempt)
        (fun reply => reply) (SameStanding middle) trivial
        (SameStanding.of_tables rfl) ⟨⟨rfl, rfl⟩, rfl⟩ ⟨_, rfl⟩).bind
          (fun _ _ _ => trivial) ?_
      rintro third _ ⟨cleared, _⟩
      have whole := standing.trans cleared
      refine (onStores_safe (consumeJtiOnce_safe claims challengeTtl
        third.tables.stores)).bind (fun _ _ _ => trivial) ?_
      rintro fourth claimed ⟨only, consumable⟩
      cases claimed with
      | false => exact Program.safe_done trivial
      | true =>
          have spared := harmless (right factor rfl)
            (whole.2 ▸ consumable true rfl rfl)
          refine (safe_quiet
            (asks_retireChallenge claims fun _ => quiet_session _ _)
            (SameAccounts.refl fourth)).bind (fun _ _ _ => trivial) ?_
          intro last _ same
          apply mint_session_safe
          rw [same.closed, only.accounts.closed, whole.1.closed]
          exact spared

theorem redeemAs_safe {claims : Sessions.TokenClaims} {found : Option User}
    (harmless : ∀ user, found = some user → user.isActive = true →
      user.mfaEnabled = true →
        Unlocked settings state.tables (.mfaLogin user.id) →
          RightFactor settings state.tables user code →
            Consumable settings state.tables.stores claims →
              ¬ state.tables.Closed user.id) :
    (redeemAs settings claims code found).Safe (sparing settings)
      (fun _ _ => True) state := by
  cases found with
  | none => exact Program.safe_done trivial
  | some user =>
      rw [redeemAs]
      cases active : user.isActive with
      | false => exact Program.safe_done trivial
      | true =>
          cases mfaEnabled : user.mfaEnabled with
          | false => exact Program.safe_done trivial
          | true =>
              apply unlessLocked_safe
              intro attempt middle kept unlocked
              apply redeemChallenge_safe
              rw [kept]
              exact harmless user rfl active mfaEnabled unlocked

theorem loginMfa_safe {challenge : Bearer}
    (harmless : Redeems settings state.tables challenge code →
      ¬ state.tables.Marked challenge.sub) :
    (loginMfa settings challenge code).Safe (sparing settings)
      (fun _ _ => True) state := by
  refine (onStores_safe (validateToken_safe challenge.claims
    state.tables.stores)).bind (fun _ _ _ => trivial) ?_
  rintro middle since ⟨only, valid⟩
  have checked := valid since rfl
  have kept : middle.tables = state.tables := by
    rw [only, checked.1]
  have live := checked.2 since rfl
  cases purpose : Sessions.requireTokenType challenge.claims .mfachallenge with
  | error error => exact Program.safe_done trivial
  | ok _ =>
      have body : (do
          let found : Option User ← .ask (.findUser challenge.sub) .done
          redeemAs settings challenge.claims code found : Task Unit).Safe
            (sparing settings) (fun _ _ => True) middle := by
        refine (findUser_safe challenge.sub middle).bind
          (fun _ _ _ => trivial) ?_
        rintro last found ⟨same, named⟩
        have read := named found rfl
        rw [kept] at same read
        apply redeemAs_safe
        rintro user rfl active mfaEnabled unlocked right consumable closed
        rw [same] at unlocked right consumable closed
        have idOf : user.id = challenge.sub := by
          obtain ⟨row, rowNamed, rfl⟩ := Option.map_eq_some_iff.1 read
          simpa [Tables.decode] using List.find?_some rowNamed
        rw [idOf] at closed
        exact harmless
          { inDate := live.1
            purpose := requireTokenType_eq_ok purpose
            unrevoked := live.2
            consumable := consumable
            user := ⟨user, read, active, mfaEnabled, unlocked, right⟩ }
          (findUser_active read active closed)
      exact body

/-! ## Sessions -/

theorem refreshToken_safe
    (harmless : Refreshes settings state.tables.stores token.claims →
      ¬ state.tables.Closed token.sub) :
    (refreshToken settings token).Safe (sparing settings) (fun _ _ => True)
      state := by
  refine (onStores_safe (consumeRefreshToken_safe token.claims
    state.tables.stores)).bind (fun _ _ _ => trivial) ?_
  rintro middle checked ⟨only, refreshes⟩
  have spared := harmless (refreshes checked rfl checked rfl)
  refine (safe_quiet (asks_onStores (Sessions.revokeFamilyInRedis
    settings.sessions token.claims) fun _ => quiet_session _ none)
    only.accounts).bind
      (fun _ _ _ => trivial) ?_
  intro third _ sameThird
  refine (safe_quiet (asks_ignoringError _ fun _ => quiet_session _ _)
    sameThird).bind
    (fun _ _ _ => trivial) ?_
  intro last _ sameLast
  apply mint_session_safe
  rw [sameLast.closed]
  exact spared

theorem deleteUser_safe
    (harmless : Accepts settings state.tables token →
      ¬ state.tables.Marked token.sub) :
    (deleteUser settings token).Safe (sparing settings) (fun _ _ => True)
      state := by
  refine (authenticatedUser_safe harmless).bind (fun _ _ _ => trivial) ?_
  exact fun _ _ _ => Program.safe_ask trivial fun _ _ _ =>
    Program.safe_done trivial

omit [UnicodeTables] in
theorem quiet_tryConsumeRecoveryCode (userId code : Text) (key : LockoutKey)
    (attempt : Nat) :
    (tryConsumeRecoveryCode userId code key attempt).Asks (Quiet settings) :=
  asks_tryConsumeRecoveryCode userId code key attempt
    (fun _ => ⟨trivial, rfl, rfl⟩) (fun _ _ _ => ⟨trivial, rfl, rfl⟩)
    fun _ _ => ⟨trivial, rfl, rfl⟩

theorem useRecoveryCode_safe
    (harmless : Accepts settings state.tables token →
      ¬ state.tables.Marked token.sub) :
    (useRecoveryCode settings token code).Safe (sparing settings)
      (fun _ _ => True) state := by
  refine (authenticatedUser_safe harmless).bind (fun _ _ _ => trivial) ?_
  intro middle userId _
  apply unlessLocked_safe
  intro attempt last _ _
  refine (safe_read (.findMfaConfiguration userId) (fun reply => reply) trivial
    rfl ⟨_, rfl⟩).bind (fun _ _ _ => trivial) ?_
  intro third config _
  cases config with
  | none => exact Program.safe_done trivial
  | some config =>
      refine (safe_read (.countUnused config.id) (fun reply => reply) trivial
        rfl ⟨_, rfl⟩).bind (fun _ _ _ => trivial) ?_
      intro fourth unused _
      cases unused with
      | zero => exact Program.safe_done trivial
      | succ others =>
          refine (safe_discarded (safe_quiet
            (quiet_tryConsumeRecoveryCode userId code _ attempt)
            (SameAccounts.refl fourth))).bind (fun _ _ _ => trivial) ?_
          intro fifth consumed _
          cases consumed with
          | some _ =>
              exact safe_discarded (safe_quiet (quiet_clearLoginFailures _ _)
                (SameAccounts.refl fifth))
          | none =>
              refine (safe_discarded (safe_quiet
                (quiet_recordFailure (.mfaRecovery userId) attempt).attempt
                (SameAccounts.refl fifth))).bind (fun _ _ _ => trivial) ?_
              exact fun _ _ _ => Program.safe_done trivial

/-! ## Sequences -/

theorem processDeletions_safe {Result : Type} (task : Deletion.Task Result)
    (state : AuthState) :
    (onAccounts task).discard.Safe (sparing settings) (fun _ _ => True)
      state := by
  have asks : task.Asks fun statement =>
      ∀ state, spares state (Statement.lifecycle statement) := by
    induction task with
    | done result => trivial
    | ask statement next ih => exact ⟨fun _ => trivial, ih⟩
  have whole : (onAccounts task).Asks fun statement =>
      ∀ state, spares state statement :=
    (Program.Asks.attempt (Program.Asks.lift asks)).bind fun _ => trivial
  have discarded : (onAccounts task).discard.Asks fun statement =>
      ∀ state, spares state statement := by
    apply Program.Asks.bind whole
    exact fun _ => trivial
  exact discarded.safe state

theorem operation_safe {operation : Operation}
    (harmless : Harmless settings state operation) :
    (operation.program settings).Safe (sparing settings) (fun _ _ => True)
      state := by
  cases operation with
  | login request => exact login_safe harmless
  | loginMfa challenge code => exact loginMfa_safe harmless
  | exchangeToken code => exact exchangeToken_safe harmless
  | refreshToken token => exact refreshToken_safe harmless
  | authenticated token =>
      refine Program.Safe.bind (authenticatedUser_safe harmless)
        (fun _ _ _ => trivial) ?_
      exact fun _ _ _ => Program.safe_done trivial
  | deleteUser token => exact deleteUser_safe harmless
  | useRecoveryCode token code => exact useRecoveryCode_safe harmless
  | processDeletions lifecycle =>
      exact processDeletions_safe _ state

theorem lockedOut_moves {minted : List Minting}
    {accepted : List Text} {before after : AuthState}
    (moves : (machine settings).Moves (Harmless settings) before after)
    (out : LockedOut userId minted accepted before) :
    LockedOut userId minted accepted after := by
  cases moves with
  | operation permitted harmless proceeds =>
      exact (operation_safe harmless).proceeds
        (LockedOut userId minted accepted) (lockedOut_answer settings) proceeds
        out
  | elapse duration => exact ⟨out.closed, out.minted, out.accepted⟩

/-- After an account has been deactivated or marked deleted, a sequence of
harmless requests mints no session and no challenge for it and admits none of
its requests, and it stays closed. -/
theorem closed_account_locked_out {state last : AuthState} {userId : Text}
    (closed : state.tables.Closed userId)
    (sequence : (machine settings).Sequence (Harmless settings) state last) :
    last.tables.Closed userId ∧
      last.record.minted.filter (fun entry => entry.userId = userId) =
        state.record.minted.filter (fun entry => entry.userId = userId) ∧
      last.record.accepted.filter (fun entry => entry = userId) =
        state.record.accepted.filter (fun entry => entry = userId) := by
  have out : LockedOut userId
      (state.record.minted.filter fun entry => entry.userId = userId)
      (state.record.accepted.filter fun entry => entry = userId) last := by
    induction sequence with
    | refl => exact ⟨closed, rfl, rfl⟩
    | tail _ moves ih => exact lockedOut_moves moves ih
  exact ⟨out.closed, out.minted, out.accepted⟩

end Endpoints

end Requirements

section Alice

attribute [local instance] TextDigest.sha256 UnicodeTables.ascii

def aliceSettings : AuthSettings where
  sessions :=
    { redis := false
      accessTokenExpireMinutes := 30 }
  loginFailureWindowMinutes := 15
  loginFailureLimit := 5
  verifyPassword password passwordHash := .ok (password = passwordHash)
  verifyTotp _ _ _ := false
  decryptSecret := some
  lower text := text

/-- An active user whose deletion is due. -/
def aliceTables : Tables where
  stores := Sessions.opening.state
  accounts :=
    { now := 0
      requests :=
        [{ id := "request-1"
           userId := "user-1"
           deadline := 0
           status := .requested
           cancellationToken := "cancel-1"
           cancelledAt := none
           lastReminderSent := none
           reminderCount := 0 }]
      users :=
        [{ id := "user-1"
           username := "alice"
           email := some "alice@example.com"
           deletedAt := none }]
      sessions := []
      inFlight := [] }
  columns _ :=
    { passwordHash := some "correct horse"
      isActive := true
      mfaEnabled := false
      mfaSecret := none }
  subjects := []
  exchangeCodes := []
  loginFailures := []
  mfaConfigurations := []
  recoveryCodes := []

def aliceState : AuthState := ⟨aliceTables, ⟨[], [], [], [], []⟩⟩

def aliceLogin : LoginRequest where
  username := "alice"
  password := "correct horse"
  ipKey := none
  pick := 0

def aliceDeletion : Operation := .processDeletions ⟨0, 0⟩

/-- The deletion run has marked the user. -/
def aliceMarked : AuthState :=
  (Program.alone (machine aliceSettings).answer
    (aliceDeletion.program aliceSettings) aliceState).2

def aliceBack : AuthState :=
  (Program.alone (machine aliceSettings).answer
    (Operation.program aliceSettings (.login aliceLogin)) aliceMarked).2

theorem aliceMarked_closed : aliceMarked.tables.Closed "user-1" := by
  refine .inr ⟨⟨"user-1", "alice", some "alice@example.com", some 0⟩, ?_, rfl,
    by decide⟩
  have users : aliceMarked.tables.accounts.users =
      [⟨"user-1", "alice", some "alice@example.com", some 0⟩] := by
    decide
  rw [users]
  exact List.mem_singleton_self _

def aliceGuess : LoginRequest where
  username := "alice"
  password := "guess"
  ipKey := none
  pick := 0

/-- After a login with another password. -/
def aliceRefused : AuthState :=
  (Program.alone (machine aliceSettings).answer
    (Operation.program aliceSettings (.login aliceGuess)) aliceMarked).2

theorem aliceGuess_harmless :
    Harmless aliceSettings aliceMarked (.login aliceGuess) := by
  intro user logsIn
  have named : aliceMarked.tables.findLogin aliceSettings "alice" 0 =
      some ⟨⟨some "correct horse", true, false, none⟩, "user-1", "alice",
        some "alice@example.com"⟩ := by
    decide
  have found := logsIn.found
  have right := logsIn.right
  have typed : aliceGuess.username.trim.toLowercase = ("alice" : Text) := by
    decide
  rw [typed] at found
  cases found.symm.trans named
  exact absurd right (by decide)

theorem closed_account_locked_out_aliceDeletion :
    aliceRefused.tables.Closed "user-1" ∧
      aliceRefused.record.minted.filter
          (fun entry => entry.userId = ("user-1" : Text)) =
        aliceMarked.record.minted.filter
          (fun entry => entry.userId = ("user-1" : Text)) ∧
      aliceRefused.record.accepted.filter
          (fun entry => entry = ("user-1" : Text)) =
        aliceMarked.record.accepted.filter
          (fun entry => entry = ("user-1" : Text)) := by
  have guesses : (machine aliceSettings).Moves (Harmless aliceSettings)
      aliceMarked aliceRefused :=
    .operation (by trivial) aliceGuess_harmless (Machine.proceeds_alone _ _ _)
  exact closed_account_locked_out aliceMarked_closed (.single guesses)

/-- A user who has been deleted logs in. -/
theorem deleted_user_logs_in :
    ¬ ∀ (settings : AuthSettings) (start middle last : AuthState)
      (userId : Text),
      (machine settings).Sequence (fun _ _ => True) start middle →
        middle.tables.Closed userId →
          (machine settings).Sequence (fun _ _ => True) middle last →
            last.record.minted.filter (fun entry => entry.userId = userId) =
              middle.record.minted.filter
                (fun entry => entry.userId = userId) := by
  intro claim
  have mayDelete : (machine aliceSettings).permitted aliceState aliceDeletion :=
    trivial
  have mayLogIn : (machine aliceSettings).permitted aliceMarked
      (.login aliceLogin) := trivial
  have deletes : (machine aliceSettings).Moves (fun _ _ => True) aliceState
      aliceMarked :=
    .operation mayDelete trivial (Machine.proceeds_alone _ _ _)
  have returns : (machine aliceSettings).Moves (fun _ _ => True) aliceMarked
      aliceBack :=
    .operation mayLogIn trivial (Machine.proceeds_alone _ _ _)
  have same := claim aliceSettings aliceState aliceMarked aliceBack "user-1"
    (.single deletes) aliceMarked_closed (.single returns)
  exact absurd same (by decide)

end Alice

end FireCrow.Api.Auth
