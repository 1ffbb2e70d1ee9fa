import FireCrow.Api.LockoutBound
import FireCrow.Library.Holdings

/-!
# Second factors are spent once

A redemption verifies a factor, consumes a recovery code where that was the
factor, and claims the challenge afterwards.  What it has in hand between
these statements are tokens: the attempt of a request that has consumed no
code, the code and the challenge that only it can pay with.
-/

namespace FireCrow.Api.Auth

open FireCrow.Library
open FireCrow.Services

/-! ## What is spent -/

/-- The account exists and has a second factor. -/
def Tables.Enabled (tables : Tables) (userId : Text) : Prop :=
  userId ∈ tables.accounts.users.map Deletion.UserRow.id ∧
    (tables.columns userId).mfaEnabled = true

def Factor.IsCode : Factor → Prop
  | .totp => False
  | .recoveryCode .. => True

instance (factor : Factor) : Decidable factor.IsCode := by
  cases factor <;> unfold Factor.IsCode <;> infer_instance

/-- A key under which challenges are redeemed. -/
def LockoutKey.Redeems : LockoutKey → Prop
  | .mfaLogin _ => True
  | _ => False

instance (key : LockoutKey) : Decidable key.Redeems := by
  cases key <;> unfold LockoutKey.Redeems <;> infer_instance

def Minting.payment : Minting → Option Payment
  | .session _ _ payment => payment
  | .challenge _ => none

def Minting.PaidWithChallenge (jti : Nat) (minting : Minting) : Prop :=
  minting.payment.map Payment.challenge = some jti

instance (jti : Nat) (minting : Minting) :
    Decidable (minting.PaidWithChallenge jti) :=
  inferInstanceAs (Decidable (_ = _))

def Minting.PaidWith (factor : Factor) (minting : Minting) : Prop :=
  minting.payment.map Payment.factor = some factor

instance (factor : Factor) (minting : Minting) :
    Decidable (minting.PaidWith factor) :=
  inferInstanceAs (Decidable (_ = _))

/-- A session that is no successor of another is minted for an account with a
second factor only by an attempt to redeem a challenge that has verified the
factor; a challenge pays once, and so does a recovery code; and an attempt to
redeem a challenge that has ended with an error has consumed no recovery
code. -/
structure SpentOnce (state : AuthState) : Prop where
  paid : ∀ userId payment,
    Minting.session userId none payment ∈ state.record.minted →
      state.tables.Enabled userId → ∃ payment', payment = some payment' ∧
        (⟨payment'.attempt, payment'.factor⟩ : Verification) ∈
          state.record.verified ∧
        Opened state (.mfaLogin userId) payment'.attempt
  challenge : ∀ jti, state.record.minted.countP
    (fun minting => minting.PaidWithChallenge jti) ≤ 1
  recoveryCode : ∀ configId codeHash, state.record.minted.countP
    (fun minting => minting.PaidWith (.recoveryCode configId codeHash)) ≤ 1
  refused : ∀ refusal ∈ state.record.refused, refusal.key.Redeems →
    ∀ verification ∈ state.record.verified,
      verification.attempt = refusal.attempt → ¬ verification.factor.IsCode

/-! ## What statements do -/

section Effects

variable [TextDigest] (settings : AuthSettings)

def Statement.verifies (state : AuthState) : Statement → List Verification
  | .verifyTotp secret code attempt =>
      if settings.verifyTotp secret code state.tables.stores.now then
        [⟨attempt, .totp⟩]
      else []
  | .consumeRecoveryCode configId codeHash _ attempt =>
      if 0 < state.tables.recoveryCodes.countP
          (Tables.unusedCode configId codeHash) then
        [⟨attempt, .recoveryCode configId codeHash⟩]
      else []
  | _ => []

def Statement.refuses : Statement → List Refusal
  | .ended key attempt false => [⟨key, attempt⟩]
  | _ => []

def Statement.mints : Statement → List Minting
  | .mintSession userId rotates payment => [.session userId rotates payment]
  | .mintChallenge userId => [.challenge userId]
  | _ => []

omit [TextDigest] in
theorem comparedAll_verified (record : Record) (attempts : List Nat)
    (time : Timestamp) (right : Bool) :
    (attempts.foldl (fun record attempt => record.compared attempt time right)
        record).verified = record.verified ∧
      (attempts.foldl (fun record attempt =>
        record.compared attempt time right) record).refused =
        record.refused := by
  induction attempts generalizing record with
  | nil => exact ⟨rfl, rfl⟩
  | cons attempt attempts ih => exact ih (record.compared attempt time right)

theorem verified_answer (state : AuthState) (statement : Statement) :
    (statement.answer settings state).2.record.verified =
      state.record.verified ++ statement.verifies settings state := by
  cases statement with
  | verifyTotp secret code attempt =>
      simp only [Statement.answer, Record.verifies, Statement.verifies]
      split
      · rfl
      · exact (List.append_nil _).symm
  | consumeRecoveryCode configId codeHash key attempt =>
      by_cases right : 0 < state.tables.recoveryCodes.countP
          (Tables.unusedCode configId codeHash)
      · simp [Statement.answer, Record.verifies, Statement.verifies,
          Tables.consumeRecoveryCode, Record.compared, Record.change, right]
      · simp [Statement.answer, Record.verifies, Statement.verifies,
          Tables.consumeRecoveryCode, Record.compared, Record.change, right]
  | verifyPassword password passwordHash attempts =>
      simp only [Statement.answer, Statement.verifies, List.append_nil]
      split
      · rfl
      · simp only [comparedAll_verified]
  | countFailures key windowStart =>
      simp only [Statement.answer, Statement.checked, Statement.verifies,
        List.append_nil]
      split <;> rfl
  | _ => exact (List.append_nil _).symm

theorem refused_answer (state : AuthState) (statement : Statement) :
    (statement.answer settings state).2.record.refused =
      state.record.refused ++ statement.refuses := by
  cases statement with
  | ended key attempt succeeded =>
      cases succeeded with
      | true => exact (List.append_nil _).symm
      | false => rfl
  | verifyPassword password passwordHash attempts =>
      simp only [Statement.answer, Statement.refuses, List.append_nil]
      split
      · rfl
      · simp only [comparedAll_verified]
  | countFailures key windowStart =>
      simp only [Statement.answer, Statement.checked, Statement.refuses,
        List.append_nil]
      split <;> rfl
  | _ => exact (List.append_nil _).symm

theorem minted_answer (state : AuthState) (statement : Statement) :
    (statement.answer settings state).2.record.minted =
      state.record.minted ++ statement.mints := by
  cases statement with
  | mintSession | mintChallenge => rfl
  | verifyPassword password passwordHash attempts =>
      simp only [Statement.answer, Statement.mints, List.append_nil]
      split
      · rfl
      · simp only [attempts_only]
  | countFailures key windowStart =>
      simp only [Statement.answer, Statement.checked, Statement.mints,
        List.append_nil]
      split <;> rfl
  | _ => exact (List.append_nil _).symm

/-- What no statement takes back. -/
structure Onward (before after : AuthState) : Prop where
  later : Later before after
  consumed : before.tables.stores.happened <+: after.tables.stores.happened
  used : ∀ configId codeHash, before.tables.recoveryCodes.countP
      (Tables.unusedCode configId codeHash) = 0 →
    after.tables.recoveryCodes.countP
      (Tables.unusedCode configId codeHash) = 0
  enabled : ∀ userId, after.tables.Enabled userId ↔
    before.tables.Enabled userId

omit [TextDigest] in
theorem session_happened (sessions : Sessions.SessionSettings)
    (stores : Sessions.Stores) (statement : Sessions.Statement) :
    stores.happened <+: (statement.answer sessions stores).2.happened := by
  unfold Sessions.Statement.answer
  cases statement with
  | consumeInRedis claims ttlSeconds =>
      simp only [Sessions.Statement.run, Sessions.Stores.consumeInRedis]
      split
      · exact List.prefix_refl _
      · exact List.prefix_append _ _
  | consumeInDb claims ttlSeconds =>
      simp only [Sessions.Statement.run, Sessions.Stores.consumeInDb]
      split
      · exact List.prefix_refl _
      · exact List.prefix_append _ _
  | revokeTokenJti claims ttlSeconds =>
      simp only [Sessions.Statement.run, Sessions.Stores.revokeTokenJti]
      by_cases expired : ttlSeconds ≤ 0
      · rw [if_pos expired]
      · rw [if_neg expired]
  | revokeTokenInDb | issueTokens | accept | logOut =>
      exact List.prefix_append _ _
  | _ => exact List.prefix_refl _

omit [TextDigest] in
theorem lifecycle_ids (accounts : Deletion.Accounts)
    (statement : Deletion.Statement) :
    (statement.answer accounts).2.users.map Deletion.UserRow.id =
      accounts.users.map Deletion.UserRow.id := by
  cases statement with
  | markUserDeleted userId =>
      show (Table.set _ _ accounts.users).map Deletion.UserRow.id = _
      rw [Table.set, List.map_map]
      apply List.map_congr_left
      intro row _
      simp only [Function.comp_apply]
      split <;> rfl
  | insertRequest requestId userId token deadline =>
      rw [Deletion.insertRequest_users]
  | recipient userId =>
      simp only [Deletion.Statement.answer, Deletion.Statement.run]
      cases accounts.recipient userId <;> rfl
  | _ => rfl

omit [TextDigest] in
theorem used_consume {tables : Tables} {configId codeHash : Text}
    (other otherHash : Text)
    (used : tables.recoveryCodes.countP (Tables.unusedCode configId codeHash) =
      0) :
    (tables.consumeRecoveryCode other otherHash).2.recoveryCodes.countP
      (Tables.unusedCode configId codeHash) = 0 := by
  apply List.countP_eq_zero.2
  intro row member
  obtain ⟨earlier, inside, rfl⟩ := List.mem_map.1 member
  have unused := List.countP_eq_zero.1 used earlier inside
  split
  · simp [Tables.unusedCode]
  · exact unused

omit [TextDigest] in
theorem consume_uses (tables : Tables) (configId codeHash : Text) :
    (tables.consumeRecoveryCode configId codeHash).2.recoveryCodes.countP
      (Tables.unusedCode configId codeHash) = 0 := by
  apply List.countP_eq_zero.2
  intro row member
  obtain ⟨earlier, inside, rfl⟩ := List.mem_map.1 member
  split
  · simp [Tables.unusedCode]
  · rename_i other
    exact other

theorem onward_answer (state : AuthState) (statement : Statement) :
    Onward state (statement.answer settings state).2 := by
  have same : ∀ {after : AuthState},
      after.tables = state.tables → Later state after → Onward state after := by
    intro after same later
    refine ⟨later, ?_, ?_, ?_⟩
    · rw [same]
    · rw [same]
      exact fun _ _ used => used
    · rw [same]
      exact fun _ => Iff.rfl
  have later : Later state (statement.answer settings state).2 :=
    later_answer state statement
  cases statement with
  | session statement redeems =>
      exact ⟨later, session_happened _ _ _, fun _ _ used => used,
        fun _ => Iff.rfl⟩
  | lifecycle statement =>
      refine ⟨later, List.prefix_refl _, fun _ _ used => used, fun userId => ?_⟩
      simp only [Tables.Enabled, Statement.answer, lifecycle_ids]
  | deactivate userId =>
      refine ⟨later, List.prefix_refl _, fun _ _ used => used, fun other => ?_⟩
      have ids : (state.tables.deactivate userId).accounts.users.map
          Deletion.UserRow.id =
            state.tables.accounts.users.map Deletion.UserRow.id := by
        rw [Tables.deactivate, List.map_map]
        apply List.map_congr_left
        intro row _
        simp only [Function.comp_apply]
        split <;> rfl
      have columns : ((state.tables.deactivate userId).columns other).mfaEnabled
          = (state.tables.columns other).mfaEnabled := by
        show (Function.update state.tables.columns userId
          { state.tables.columns userId with isActive := false }
            other).mfaEnabled = _
        by_cases same : other = userId
        · rw [same, Function.update_self]
        · rw [Function.update_of_ne same]
      show (state.tables.deactivate userId).Enabled other ↔ _
      rw [Tables.Enabled, ids, columns]
      exact Iff.rfl
  | consumeRecoveryCode configId codeHash key attempt =>
      exact ⟨later, List.prefix_refl _,
        fun _ _ used => used_consume configId codeHash used, fun _ => Iff.rfl⟩
  | mintSession userId rotates payment =>
      exact ⟨later, List.prefix_append _ _, fun _ _ used => used,
        fun _ => Iff.rfl⟩
  | countFailures key windowStart =>
      apply same ?_ later
      simp only [Statement.answer, Statement.checked]
      split <;> rfl
  | verifyPassword password passwordHash attempts =>
      apply same ?_ later
      simp only [Statement.answer]
      split <;> rfl
  | _ => exact ⟨later, List.prefix_refl _, fun _ _ used => used,
      fun _ => Iff.rfl⟩

end Effects

/-! ## Tokens -/

/-- What a request may have in hand: an attempt that has consumed no recovery
code and has not been refused, a challenge or a code that has paid for nothing,
a factor that was verified, the key of an attempt, and an account without a
second factor. -/
inductive Token where
  | clean (attempt : Nat)
  | challenge (jti : Nat)
  | recoveryCode (configId codeHash : Text)
  | verified (verification : Verification)
  | belongs (key : LockoutKey) (attempt : Nat)
  | single (userId : Text)

namespace Token

def Exclusive : Token → Prop
  | .clean _ => True
  | .challenge _ => True
  | .recoveryCode .. => True
  | _ => False

def Good (state : AuthState) : Token → Prop
  | .clean attempt =>
      attempt < state.record.attempts.length ∧
        (∀ verification ∈ state.record.verified,
          verification.attempt = attempt → ¬ verification.factor.IsCode) ∧
        ∀ refusal ∈ state.record.refused, refusal.key.Redeems →
          refusal.attempt ≠ attempt
  | .challenge jti =>
      .consumed jti ∈ state.tables.stores.happened ∧
        ∀ minting ∈ state.record.minted, ¬ minting.PaidWithChallenge jti
  | .recoveryCode configId codeHash =>
      (∃ verification ∈ state.record.verified,
        verification.factor = .recoveryCode configId codeHash) ∧
        ∀ minting ∈ state.record.minted,
          ¬ minting.PaidWith (.recoveryCode configId codeHash)
  | .verified verification => verification ∈ state.record.verified
  | .belongs key attempt => Opened state key attempt
  | .single userId => ¬ state.tables.Enabled userId

end Token

/-- The code that a factor is. -/
def Factor.tokens : Factor → Set Token
  | .totp => ∅
  | .recoveryCode configId codeHash => {.recoveryCode configId codeHash}

/-- A session is paid with a challenge and a factor that an attempt of the user
has verified, or it is for an account without a second factor, or the successor
of another. -/
def sessionTokens (userId : Text) : Option Payment → Option Nat → Set Token
  | some payment, _ =>
      {.challenge payment.challenge,
        .verified ⟨payment.attempt, payment.factor⟩,
        .belongs (.mfaLogin userId) payment.attempt} ∪ payment.factor.tokens
  | none, none => {.single userId}
  | none, some _ => ∅

def Statement.pays : Statement → Set Token
  | .verifyTotp _ _ attempt => {.clean attempt}
  | .consumeRecoveryCode _ _ _ attempt => {.clean attempt}
  | .ended key attempt false => {token | key.Redeems ∧ token = .clean attempt}
  | .mintSession userId rotates payment => sessionTokens userId payment rotates
  | _ => ∅

/-- A claim of a `jti` that was granted. -/
def claimed (claims : Sessions.TokenClaims) :
    Except Sessions.AppError Bool → Set Token
  | .ok true => {.challenge claims.jti}
  | _ => ∅

def storesGains : (statement : Sessions.Statement) →
    statement.Reply → Set Token
  | .consumeInRedis claims _ => claimed claims
  | .consumeInDb claims _ => claimed claims
  | _ => fun _ => ∅

/-- The users among these who have no second factor. -/
def singles (userId : Text) : Except AppError (Option User) → Set Token
  | .ok found => {token | token = .single userId ∧
      (found.any fun user => user.mfaEnabled) = false}
  | .error _ => ∅

def loginGains : Except AppError (Option User) → Set Token
  | .ok (some user) => singles user.id (.ok (some user))
  | _ => ∅

def checkGains (settings : AuthSettings) (key : LockoutKey) :
    Except AppError (Nat × Nat) → Set Token
  | .ok (count, attempt) => {token | (count : Int) < settings.limit key ∧
      (token = .clean attempt ∨ token = .belongs key attempt)}
  | .error _ => ∅

def totpGains (attempt : Nat) : Except AppError Bool → Set Token
  | .ok true => {.clean attempt, .verified ⟨attempt, .totp⟩}
  | _ => {.clean attempt}

/-- A consumed code; where none was, the attempt is as it was, and in a
redemption also where the reply is an error. -/
def codeGains (configId codeHash : Text) (key : LockoutKey) (attempt : Nat) :
    Except AppError Nat → Set Token
  | .ok 0 => {.clean attempt}
  | .ok (_ + 1) => {.recoveryCode configId codeHash,
      .verified ⟨attempt, .recoveryCode configId codeHash⟩}
  | .error _ => {token | key.Redeems ∧ token = .clean attempt}

def Statement.gains (settings : AuthSettings) :
    (statement : Statement) → statement.Reply → Set Token
  | .session statement _ => storesGains statement
  | .countFailures key _ => checkGains settings key
  | .findLogin .. => loginGains
  | .findUser userId => singles userId
  | .verifyTotp _ _ attempt => totpGains attempt
  | .consumeRecoveryCode configId codeHash key attempt =>
      codeGains configId codeHash key attempt
  | _ => fun _ => ∅

/-! ## What must not go wrong -/

/-- A claim that was granted. -/
def Granted : Except Sessions.AppError Bool → Prop
  | .ok true => True
  | _ => False

instance decidableGranted :
    (reply : Except Sessions.AppError Bool) → Decidable (Granted reply)
  | .ok true => .isTrue trivial
  | .ok false => .isFalse id
  | .error _ => .isFalse id

def storesSucceed : (statement : Sessions.Statement) → statement.Reply → Prop
  | .consumeInRedis _ _ => Granted
  | .consumeInDb _ _ => Granted
  | _ => fun _ => True

instance (statement : Sessions.Statement) (reply : statement.Reply) :
    Decidable (storesSucceed statement reply) := by
  cases statement with
  | consumeInRedis | consumeInDb => exact decidableGranted reply
  | _ => exact inferInstanceAs (Decidable True)

/-- What is to succeed once an attempt to redeem a challenge has consumed a
recovery code: counting it, clearing the failures, claiming the challenge and
minting the session. -/
def Statement.Succeeds (redeemed : Nat → Prop) :
    (statement : Statement) → statement.Reply → Prop
  | .countConsumed _ key attempt => fun reply : Except AppError Unit =>
      key.Redeems → redeemed attempt → reply = .ok ()
  | .clearFailures key attempt => fun reply : Except AppError Unit =>
      key.Redeems → redeemed attempt → reply = .ok ()
  | .session statement (some attempt) => fun reply =>
      redeemed attempt → storesSucceed statement reply
  | .mintSession _ _ (some payment) => fun reply : Except AppError Unit =>
      redeemed payment.attempt → reply = .ok ()
  | _ => fun _ => True

/-- An attempt has consumed a recovery code. -/
def Redeemed (state : AuthState) (attempt : Nat) : Prop :=
  ∃ verification ∈ state.record.verified,
    verification.attempt = attempt ∧ verification.factor.IsCode

instance (state : AuthState) (attempt : Nat) :
    Decidable (Redeemed state attempt) :=
  inferInstanceAs (Decidable (∃ _ ∈ _, _))

/-- A store that has granted a claim still knows of it. -/
def Remembers (stores : Sessions.Stores) : Sessions.Statement → Prop
  | .consumeInRedis claims _ =>
      .consumed claims.jti ∈ stores.happened →
        Sessions.Stores.exists? stores.redisJtis stores.now claims.jti = true
  | .consumeInDb claims _ =>
      .consumed claims.jti ∈ stores.happened →
        (stores.revocations.any fun row => row.jti = claims.jti) = true
  | _ => True

instance (stores : Sessions.Stores) (statement : Sessions.Statement) :
    Decidable (Remembers stores statement) := by
  cases statement <;> unfold Remembers <;> infer_instance

/-- The reply to the consumption of a recovery code by a redemption is not
lost. -/
def Statement.Arrives (state next : AuthState) :
    (statement : Statement) → statement.Reply → Prop
  | .consumeRecoveryCode _ _ key _ => fun reply : Except AppError Nat =>
      key.Redeems → reply.isOk = false →
        next.record.verified = state.record.verified
  | _ => fun _ => True

def Statement.RemembersClaim (state : AuthState) : Statement → Prop
  | .session statement _ => Remembers state.tables.stores statement
  | _ => True

/-- No claim meets a store that has forgotten an earlier one, and nothing goes
wrong in a redemption that has consumed a recovery code. -/
def Undisturbed : Condition AuthState Statement Statement.Reply Operation
  | state, .executed _ statement reply, next =>
      statement.RemembersClaim state ∧ statement.Arrives state next reply ∧
        statement.Succeeds (Redeemed state) reply
  | _, _, _ => True

/-- A holder of the proof that an attempt has consumed a code. -/
def HoldsCode (held : Set Token) (attempt : Nat) : Prop :=
  ∃ configId codeHash,
    .verified ⟨attempt, .recoveryCode configId codeHash⟩ ∈ held

def factorLedger (settings : AuthSettings) :
    Ledger AuthState Statement Statement.Reply Token where
  exclusive := Token.Exclusive
  good := Token.Good
  pays := Statement.pays
  gains := Statement.gains settings
  possible held statement reply := statement.Succeeds (HoldsCode held) reply

/-! ## The invariant -/

/-- What was spent was spent once, and the record agrees with the stores. -/
structure Spending (state : AuthState) : Prop where
  spent : SpentOnce state
  challengeConsumed : ∀ minting ∈ state.record.minted, ∀ jti,
    minting.PaidWithChallenge jti →
      .consumed jti ∈ state.tables.stores.happened
  codeVerified : ∀ minting ∈ state.record.minted, ∀ factor,
    minting.PaidWith factor → ∃ verification ∈ state.record.verified,
      verification.factor = factor
  codeUsed : ∀ verification ∈ state.record.verified, ∀ configId codeHash,
    verification.factor = .recoveryCode configId codeHash →
      state.tables.recoveryCodes.countP
        (Tables.unusedCode configId codeHash) = 0
  opened : ∀ verification ∈ state.record.verified,
    verification.attempt < state.record.attempts.length
  openedRefusal : ∀ refusal ∈ state.record.refused, refusal.key.Redeems →
    refusal.attempt < state.record.attempts.length

theorem spending_fresh {state : AuthState} (minted : state.record.minted = [])
    (verified : state.record.verified = [])
    (refused : state.record.refused = []) : Spending state := by
  refine ⟨⟨?_, ?_, ?_, ?_⟩, ?_, ?_, ?_, ?_, ?_⟩
  · simp [minted]
  · simp [minted]
  · simp [minted]
  · simp [refused]
  · simp [minted]
  · simp [minted]
  · simp [verified]
  · simp [verified]
  · simp [refused]

theorem Later.length {before after : AuthState} (later : Later before after) :
    before.record.attempts.length ≤ after.record.attempts.length := by
  have keys := later.attempts.length_le
  rwa [List.length_map, List.length_map] at keys

section Lawful

variable {settings : AuthSettings}

variable {statement : Statement} {state : AuthState}

/-- What the statements of a redemption verify, they do with an attempt in
hand. -/
theorem verifies_pays {verification : Verification}
    (verified : verification ∈ statement.verifies settings state) :
    .clean verification.attempt ∈ statement.pays ∧
      ∀ configId codeHash,
        verification.factor = .recoveryCode configId codeHash →
          ∃ key, statement =
            .consumeRecoveryCode configId codeHash key verification.attempt := by
  cases statement with
  | verifyTotp secret code attempt =>
      simp only [Statement.verifies] at verified
      split at verified
      · obtain rfl := List.mem_singleton.1 verified
        exact ⟨rfl, fun _ _ other => by cases other⟩
      · cases verified
  | consumeRecoveryCode configId codeHash key attempt =>
      simp only [Statement.verifies] at verified
      split at verified
      · obtain rfl := List.mem_singleton.1 verified
        exact ⟨rfl, fun _ _ same => by cases same; exact ⟨key, rfl⟩⟩
      · cases verified
  | _ => cases verified

theorem refuses_pays {refusal : Refusal}
    (refused : refusal ∈ statement.refuses) (redeems : refusal.key.Redeems) :
    .clean refusal.attempt ∈ statement.pays := by
  cases statement with
  | ended key attempt succeeded =>
      cases succeeded with
      | true => cases refused
      | false =>
          obtain rfl := List.mem_singleton.1 refused
          exact ⟨redeems, rfl⟩
  | _ => cases refused

variable {minting : Minting}

theorem mints_pays (minted : minting ∈ statement.mints) :
    (∀ payment, minting.payment = some payment →
        .challenge payment.challenge ∈ statement.pays ∧
          .verified ⟨payment.attempt, payment.factor⟩ ∈ statement.pays ∧
          payment.factor.tokens ⊆ statement.pays) ∧
      ∀ userId payment, minting = .session userId none payment →
        (payment = none → .single userId ∈ statement.pays) ∧
          ∀ payment', payment = some payment' →
            .belongs (.mfaLogin userId) payment'.attempt ∈ statement.pays := by
  cases statement with
  | mintSession userId rotates payment =>
      obtain rfl := List.mem_singleton.1 minted
      cases payment with
      | none =>
          refine ⟨fun _ absent => (by cases absent), fun _ _ same => ?_⟩
          cases same
          exact ⟨fun _ => rfl, fun _ absent => by cases absent⟩
      | some payment =>
          refine ⟨fun _ same => ?_, fun _ _ same => ?_⟩
          · cases same
            exact ⟨Or.inl (Or.inl rfl), Or.inl (Or.inr (Or.inl rfl)),
              fun _ => Or.inr⟩
          · cases same
            refine ⟨fun absent => (by cases absent), fun _ same => ?_⟩
            cases same
            exact Or.inl (Or.inr (Or.inr rfl))
  | mintChallenge userId =>
      obtain rfl := List.mem_singleton.1 minted
      exact ⟨fun _ absent => (by cases absent), fun _ _ other => by cases other⟩
  | _ => cases minted

theorem paidWithChallenge_iff {jti : Nat} :
    minting.PaidWithChallenge jti ↔
      ∃ payment, minting.payment = some payment ∧ payment.challenge = jti :=
  Option.map_eq_some_iff

theorem paidWith_iff {factor : Factor} :
    minting.PaidWith factor ↔
      ∃ payment, minting.payment = some payment ∧ payment.factor = factor :=
  Option.map_eq_some_iff

theorem mints_length (statement : Statement) : statement.mints.length ≤ 1 := by
  cases statement with
  | mintSession | mintChallenge => exact le_refl _
  | _ => exact Nat.zero_le _

theorem countP_paid_le {counts : Minting → Bool} {minted : List Minting}
    (before : minted.countP counts ≤ 1)
    (unpaid : (∃ minting ∈ statement.mints, counts minting = true) →
      ∀ minting ∈ minted, counts minting = false) :
    (minted ++ statement.mints).countP counts ≤ 1 := by
  rw [List.countP_append]
  by_cases pays : ∃ minting ∈ statement.mints, counts minting = true
  · have none : minted.countP counts = 0 :=
      List.countP_eq_zero.2 fun minting member => by
        rw [unpaid pays minting member]
        exact Bool.false_ne_true
    rw [none, Nat.zero_add]
    exact List.countP_le_length.trans (mints_length statement)
  · have none : statement.mints.countP counts = 0 :=
      List.countP_eq_zero.2 fun minting member counted =>
        pays ⟨minting, member, counted⟩
    rw [none]
    exact before

variable [TextDigest]

theorem mem_verified {verification : Verification} :
    verification ∈ (statement.answer settings state).2.record.verified ↔
      verification ∈ state.record.verified ∨
        verification ∈ statement.verifies settings state := by
  rw [verified_answer, List.mem_append]

theorem mem_refused {refusal : Refusal} :
    refusal ∈ (statement.answer settings state).2.record.refused ↔
      refusal ∈ state.record.refused ∨ refusal ∈ statement.refuses := by
  rw [refused_answer, List.mem_append]

theorem mem_minted :
    minting ∈ (statement.answer settings state).2.record.minted ↔
      minting ∈ state.record.minted ∨ minting ∈ statement.mints := by
  rw [minted_answer, List.mem_append]

theorem spentOnce_answer (spending : Spending state)
    (paid : ∀ token ∈ statement.pays, token.Good state) :
    SpentOnce (statement.answer settings state).2 := by
  have onward := onward_answer settings state statement
  constructor
  · intro userId payment minted enabled
    rw [onward.enabled] at enabled
    rcases mem_minted.1 minted with before | now
    · obtain ⟨payment', rfl, verified, opened⟩ :=
        spending.spent.paid userId payment before enabled
      exact ⟨payment', rfl, mem_verified.2 (.inl verified),
        opened.later onward.later⟩
    · have pays := mints_pays now
      cases payment with
      | none => exact absurd enabled (paid _ ((pays.2 _ _ rfl).1 rfl))
      | some payment' =>
          have verified := paid _ (pays.1 payment' rfl).2.1
          have opened := paid _ ((pays.2 _ _ rfl).2 payment' rfl)
          exact ⟨payment', rfl, mem_verified.2 (.inl verified),
            Opened.later opened onward.later⟩
  · intro jti
    rw [minted_answer]
    refine countP_paid_le (spending.spent.challenge jti) ?_
    rintro ⟨minting, member, counted⟩ other inside
    obtain ⟨payment, pays, rfl⟩ :=
      paidWithChallenge_iff.1 (of_decide_eq_true counted)
    have unspent := (paid _ ((mints_pays member).1 payment pays).1).2
    exact decide_eq_false (unspent other inside)
  · intro configId codeHash
    rw [minted_answer]
    refine countP_paid_le (spending.spent.recoveryCode configId codeHash) ?_
    rintro ⟨minting, member, counted⟩ other inside
    obtain ⟨payment, pays, factor⟩ := paidWith_iff.1 (of_decide_eq_true counted)
    have held : Token.recoveryCode configId codeHash ∈ statement.pays := by
      apply ((mints_pays member).1 payment pays).2.2
      rw [factor]
      rfl
    exact decide_eq_false ((paid _ held).2 other inside)
  · intro refusal refused redeems verification verified same
    rcases mem_refused.1 refused with before | now
    · rcases mem_verified.1 verified with earlier | later
      · exact spending.spent.refused refusal before redeems verification earlier
          same
      · -- An attempt that has been refused is in no hand.
        have clean := paid _ (verifies_pays later).1
        exact absurd same.symm (clean.2.2 refusal before redeems)
    · have clean := paid _ (refuses_pays now redeems)
      rcases mem_verified.1 verified with earlier | later
      · exact clean.2.1 verification earlier same
      · intro code
        cases factor : verification.factor with
        | totp =>
            rw [factor] at code
            exact code
        | recoveryCode configId codeHash =>
            obtain ⟨key, rfl⟩ := (verifies_pays later).2 configId codeHash factor
            cases now

theorem spending_answer (spending : Spending state)
    (paid : ∀ token ∈ statement.pays, token.Good state) :
    Spending (statement.answer settings state).2 := by
  have onward := onward_answer settings state statement
  refine ⟨spentOnce_answer spending paid, ?_, ?_, ?_, ?_, ?_⟩
  · intro minting minted jti with_
    apply onward.consumed.subset
    rcases mem_minted.1 minted with before | now
    · exact spending.challengeConsumed minting before jti with_
    · obtain ⟨payment, pays, rfl⟩ := paidWithChallenge_iff.1 with_
      exact (paid _ ((mints_pays now).1 payment pays).1).1
  · intro minting minted factor with_
    rcases mem_minted.1 minted with before | now
    · obtain ⟨verification, member, same⟩ :=
        spending.codeVerified minting before factor with_
      exact ⟨verification, mem_verified.2 (.inl member), same⟩
    · obtain ⟨payment, pays, rfl⟩ := paidWith_iff.1 with_
      exact ⟨_, mem_verified.2
        (.inl (paid _ ((mints_pays now).1 payment pays).2.1)), rfl⟩
  · intro verification verified configId codeHash factor
    rcases mem_verified.1 verified with before | now
    · exact onward.used _ _
        (spending.codeUsed verification before configId codeHash factor)
    · obtain ⟨key, rfl⟩ := (verifies_pays now).2 configId codeHash factor
      exact consume_uses state.tables configId codeHash
  · intro verification verified
    refine lt_of_lt_of_le ?_ onward.later.length
    rcases mem_verified.1 verified with before | now
    · exact spending.opened verification before
    · exact (paid _ (verifies_pays now).1).1
  · intro refusal refused redeems
    refine lt_of_lt_of_le ?_ onward.later.length
    rcases mem_refused.1 refused with before | now
    · exact spending.openedRefusal refusal before redeems
    · exact (paid _ (refuses_pays now redeems)).1

variable {token : Token}

theorem good_answer (good : token.Good state)
    (unpaid : token.Exclusive → token ∉ statement.pays) :
    token.Good (statement.answer settings state).2 := by
  have onward := onward_answer settings state statement
  cases token with
  | clean attempt =>
      have elsewhere := unpaid trivial
      refine ⟨lt_of_lt_of_le good.1 onward.later.length, ?_, ?_⟩
      · intro verification verified same
        rcases mem_verified.1 verified with before | now
        · exact good.2.1 verification before same
        · exact absurd (same ▸ (verifies_pays now).1) elsewhere
      · intro refusal refused redeems same
        rcases mem_refused.1 refused with before | now
        · exact good.2.2 refusal before redeems same
        · exact elsewhere (same ▸ refuses_pays now redeems)
  | challenge jti =>
      refine ⟨onward.consumed.subset good.1, ?_⟩
      intro minting minted with_
      rcases mem_minted.1 minted with before | now
      · exact good.2 minting before with_
      · obtain ⟨payment, pays, rfl⟩ := paidWithChallenge_iff.1 with_
        exact unpaid trivial ((mints_pays now).1 payment pays).1
  | recoveryCode configId codeHash =>
      obtain ⟨⟨verification, member, same⟩, unspent⟩ := good
      refine ⟨⟨verification, mem_verified.2 (.inl member), same⟩, ?_⟩
      intro minting minted with_
      rcases mem_minted.1 minted with before | now
      · exact unspent minting before with_
      · obtain ⟨payment, pays, factor⟩ := paidWith_iff.1 with_
        apply unpaid trivial
        apply ((mints_pays now).1 payment pays).2.2
        rw [factor]
        rfl
  | verified verification => exact mem_verified.2 (.inl good)
  | belongs key attempt => exact Opened.later good onward.later
  | single userId => exact fun enabled => good ((onward.enabled userId).1 enabled)

/-! ## What is gained -/

variable {after : AuthState} {attempt : Nat}

omit [TextDigest] in
/-- An attempt is as it was when nothing but an authenticator's code has been
verified. -/
theorem clean_of (clean : (Token.clean attempt).Good state)
    (attempts : state.record.attempts.length ≤ after.record.attempts.length)
    (refused : after.record.refused = state.record.refused)
    (verified : ∀ verification ∈ after.record.verified,
      verification ∈ state.record.verified ∨ ¬ verification.factor.IsCode) :
    (Token.clean attempt).Good after := by
  refine ⟨lt_of_lt_of_le clean.1 attempts, ?_, ?_⟩
  · intro verification member same
    rcases verified verification member with before | other
    · exact clean.2.1 verification before same
    · exact other
  · rw [refused]
    exact clean.2.2

omit [TextDigest] in
/-- A granted claim is the first one of its `jti`. -/
theorem claim_gained {stores : Sessions.Stores} {jti : Nat}
    (spending : Spending state)
    (first : .consumed jti ∉ state.tables.stores.happened)
    (claims : .consumed jti ∈ stores.happened) :
    (Token.challenge jti).Good
        { state with tables := { state.tables with stores := stores } } ∧
      ((Token.challenge jti).Exclusive → (Token.challenge jti).Good state →
        Token.challenge jti ∈ (∅ : Set Token)) := by
  refine ⟨⟨claims, ?_⟩, fun _ good => absurd good.1 first⟩
  intro minting minted with_
  exact first (spending.challengeConsumed minting minted jti with_)

variable {tables : Tables}

omit [TextDigest] in
theorem exists_of_decoded {user : User}
    {row : Deletion.UserRow} (decoded : tables.decode row = user)
    (single : user.mfaEnabled = false) : ¬ tables.Enabled user.id := by
  rintro ⟨_, enabled⟩
  subst decoded
  rw [show (tables.columns (tables.decode row).id).mfaEnabled =
    (tables.decode row).mfaEnabled from rfl, single] at enabled
  cases enabled

omit [TextDigest] in
theorem findLogin_single {normalized : Text} {pick : Nat}
    {user : User} (found : tables.findLogin settings normalized pick = some user)
    (single : user.mfaEnabled = false) : ¬ tables.Enabled user.id := by
  obtain ⟨row, _, decoded⟩ := Option.map_eq_some_iff.1 found
  exact exists_of_decoded decoded single

omit [TextDigest] in
theorem findUser_single {userId : Text}
    (single : ((tables.findUser userId).any fun user => user.mfaEnabled) =
      false) : ¬ tables.Enabled userId := by
  rintro ⟨listed, enabled⟩
  obtain ⟨row, member, named⟩ := List.mem_map.1 listed
  cases found : tables.accounts.users.find? fun row => row.id = userId with
  | none =>
      have other := List.find?_eq_none.1 found row member
      simp [named] at other
  | some first =>
      have same : first.id = userId := by
        simpa using List.find?_some found
      rw [Tables.findUser, found, Option.map_some, Option.any_some] at single
      have decoded : (tables.decode first).mfaEnabled =
          (tables.columns first.id).mfaEnabled := rfl
      rw [decoded, same, enabled] at single
      cases single

variable [UnicodeTables]

omit [TextDigest] [UnicodeTables] in
theorem mem_claimed {claims : Sessions.TokenClaims}
    {reply : Except Sessions.AppError Bool} (gained : token ∈ claimed claims reply) :
    reply = .ok true ∧ token = .challenge claims.jti := by
  cases reply with
  | error error => cases gained
  | ok granted =>
      cases granted with
      | false => cases gained
      | true => exact ⟨rfl, gained⟩

theorem session_gained {statement : Sessions.Statement} {redeems : Option Nat}
    {reply : statement.Reply} (spending : Spending state)
    (executes : (machine settings).Executes state (.session statement redeems)
      reply after)
    (remembers : Remembers state.tables.stores statement)
    (gained : token ∈ storesGains statement reply) :
    token.Good after ∧ (token.Exclusive → token.Good state →
      token ∈ (∅ : Set Token)) := by
  cases statement with
  | consumeInRedis claims ttlSeconds =>
      obtain ⟨rfl, rfl⟩ := mem_claimed gained
      rcases executes.reply_cases with answered | failed
      · by_cases known : Sessions.Stores.exists? state.tables.stores.redisJtis
          state.tables.stores.now claims.jti = true
        · simp only [machine, Statement.answer, Sessions.Statement.answer,
            Sessions.Statement.run, Sessions.Stores.consumeInRedis,
            if_pos known] at answered
          cases answered
        · simp only [machine, Statement.answer, Sessions.Statement.answer,
            Sessions.Statement.run, Sessions.Stores.consumeInRedis,
            if_neg known] at answered
          cases answered
          exact claim_gained spending (fun before => known (remembers before))
            (List.mem_append_right _ (List.mem_singleton_self _))
      · cases failed
  | consumeInDb claims ttlSeconds =>
      obtain ⟨rfl, rfl⟩ := mem_claimed gained
      rcases executes.reply_cases with answered | failed
      · by_cases known : (state.tables.stores.revocations.any
          fun row => row.jti = claims.jti) = true
        · simp only [machine, Statement.answer, Sessions.Statement.answer,
            Sessions.Statement.run, Sessions.Stores.consumeInDb,
            if_pos known] at answered
          cases answered
        · simp only [machine, Statement.answer, Sessions.Statement.answer,
            Sessions.Statement.run, Sessions.Stores.consumeInDb,
            if_neg known] at answered
          cases answered
          exact claim_gained spending (fun before => known (remembers before))
            (List.mem_append_right _ (List.mem_singleton_self _))
      · cases failed
  | _ => cases gained

/-- A passing check opens an attempt of its own. -/
theorem check_gained {key : LockoutKey}
    {windowStart : Timestamp} {reply : Except AppError (Nat × Nat)}
    (spending : Spending state)
    (executes : (machine settings).Executes state
      (.countFailures key windowStart) reply after)
    (gained : token ∈ checkGains settings key reply) :
    token.Good after ∧ (token.Exclusive → token.Good state →
      token ∈ (∅ : Set Token)) := by
  cases reply with
  | error error => cases gained
  | ok checked =>
      obtain ⟨below, which⟩ := gained
      rcases executes.reply_cases with answered | failed
      · cases answered
        have passes : (state.tables.countFailures key windowStart : Int) <
            settings.limit key := below
        have opens : (Statement.checked settings state key windowStart).2 =
            { state with record := state.record.passed key } := if_pos passes
        have number : (Statement.checked settings state key windowStart).1.2 =
            state.record.attempts.length := rfl
        rw [opens]
        rw [number] at which
        rcases which with rfl | rfl
        · refine ⟨⟨?_, ?_, ?_⟩, fun _ good => absurd good.1 (lt_irrefl _)⟩
          · simp [Record.passed]
          · intro verification verified same
            exact absurd same (spending.opened verification verified).ne
          · intro refusal refused redeems
            exact (spending.openedRefusal refusal refused redeems).ne
        · refine ⟨?_, fun exclusive => exclusive.elim⟩
          simp [Token.Good, Opened, Record.passed]
      · cases failed

theorem totp_gained {secret code : Text} {reply : Except AppError Bool}
    (executes : (machine settings).Executes state
      (.verifyTotp secret code attempt) reply after)
    (paid : (Token.clean attempt).Good state)
    (gained : token ∈ totpGains attempt reply) :
    token.Good after ∧ (token.Exclusive → token.Good state →
      token ∈ ({.clean attempt} : Set Token)) := by
  have clean : (Token.clean attempt).Good after := by
    have answered : (Token.clean attempt).Good
        ((machine settings).answer state (.verifyTotp secret code attempt)).2 := by
      refine clean_of paid (onward_answer settings state _).later.length
        ((refused_answer settings state _).trans (List.append_nil _)) ?_
      intro verification member
      rcases mem_verified.1 member with before | now
      · exact .inl before
      · refine .inr fun code => ?_
        simp only [Statement.verifies] at now
        split at now
        · obtain rfl := List.mem_singleton.1 now
          exact code
        · cases now
    rcases executes.after_cases with rfl | rfl
    · exact paid
    · exact answered
  cases reply with
  | error error =>
      obtain rfl := gained
      exact ⟨clean, fun _ _ => rfl⟩
  | ok right =>
      cases right with
      | false =>
          obtain rfl := gained
          exact ⟨clean, fun _ _ => rfl⟩
      | true =>
          rcases gained with rfl | rfl
          · exact ⟨clean, fun _ _ => rfl⟩
          · refine ⟨?_, fun exclusive => exclusive.elim⟩
            rcases executes.reply_cases with answered | failed
            · have right : settings.verifyTotp secret code
                  state.tables.stores.now = true :=
                Except.ok.inj (congrArg Prod.fst answered)
              have same : after = ((machine settings).answer state
                  (.verifyTotp secret code attempt)).2 :=
                (congrArg Prod.snd answered).symm
              subst same
              refine mem_verified.2 (.inr ?_)
              rw [Statement.verifies, if_pos right]
              exact List.mem_singleton_self _
            · cases failed

theorem code_gained {configId codeHash : Text}
    {key : LockoutKey} {reply : Except AppError Nat} (spending : Spending state)
    (executes : (machine settings).Executes state
      (.consumeRecoveryCode configId codeHash key attempt) reply after)
    (arrives : key.Redeems → reply.isOk = false →
      after.record.verified = state.record.verified)
    (paid : (Token.clean attempt).Good state)
    (gained : token ∈ codeGains configId codeHash key attempt reply) :
    token.Good after ∧ (token.Exclusive → token.Good state →
      token ∈ ({.clean attempt} : Set Token)) := by
  have clean : after.record.verified = state.record.verified →
      (Token.clean attempt).Good after := by
    intro verified
    rcases executes.after_cases with rfl | rfl
    · exact paid
    · exact clean_of paid (onward_answer settings state _).later.length
        ((refused_answer settings state _).trans (List.append_nil _))
        fun verification member => .inl (verified ▸ member)
  cases reply with
  | error error =>
      obtain ⟨redeems, rfl⟩ := gained
      exact ⟨clean (arrives redeems rfl), fun _ _ => rfl⟩
  | ok consumed =>
      rcases executes.reply_cases with answered | failed
      · have counted : state.tables.recoveryCodes.countP
            (Tables.unusedCode configId codeHash) = consumed :=
          Except.ok.inj (congrArg Prod.fst answered)
        have same : after = ((machine settings).answer state
            (.consumeRecoveryCode configId codeHash key attempt)).2 :=
          (congrArg Prod.snd answered).symm
        have verified : after.record.verified = state.record.verified ++
            (Statement.consumeRecoveryCode configId codeHash key
              attempt).verifies settings state :=
          same ▸ verified_answer settings state _
        rw [Statement.verifies, counted] at verified
        cases consumed with
        | zero =>
            obtain rfl := gained
            exact ⟨clean (by simpa using verified), fun _ _ => rfl⟩
        | succ others =>
            rw [if_pos (Nat.succ_pos others)] at verified
            have member : (⟨attempt, .recoveryCode configId codeHash⟩ :
                Verification) ∈ after.record.verified := by
              rw [verified]
              exact List.mem_append_right _ (List.mem_singleton_self _)
            rcases gained with rfl | rfl
            · have first : ∀ verification ∈ state.record.verified,
                  verification.factor ≠ .recoveryCode configId codeHash := by
                intro verification earlier factor
                have used := spending.codeUsed verification earlier configId
                  codeHash factor
                omega
              refine ⟨⟨⟨_, member, rfl⟩, ?_⟩, ?_⟩
              · have minted : after.record.minted = state.record.minted := by
                  rw [same]
                  exact (minted_answer settings state _).trans
                    (List.append_nil _)
                rw [minted]
                intro minting inside with_
                obtain ⟨verification, earlier, factor⟩ :=
                  spending.codeVerified minting inside _ with_
                exact first verification earlier factor
              · rintro _ ⟨⟨verification, earlier, factor⟩, _⟩
                exact absurd factor (first verification earlier)
            · exact ⟨member, fun exclusive => exclusive.elim⟩
      · cases failed

end Lawful

end FireCrow.Api.Auth
