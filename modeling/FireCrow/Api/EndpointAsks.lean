import FireCrow.Api.AuthEndpoints

/-!
# What the endpoints ask

The statements that the parts of an endpoint execute, for any property of
statements: a part has the property as soon as the statements it is made of
have it.
-/

namespace FireCrow.Api.Auth

open FireCrow.Library
open FireCrow.Services

section Asks

variable {asked : Statement → Prop}

theorem asks_one {Result : Type} {statement : Statement}
    {read : statement.Reply → Except AppError Result} (holds : asked statement) :
    (Program.ask statement fun reply => .done (read reply)).Asks asked :=
  ⟨holds, fun _ => trivial⟩

/-! ## Stores and accounts -/

theorem asks_onStores {Result : Type} (task : Sessions.Task Result)
    {redeems : Option Nat}
    (stores : ∀ statement, asked (.session statement redeems)) :
    (onStores task redeems).Asks asked := by
  have asks : task.Asks fun statement =>
      asked (Statement.session statement redeems) :=
    Program.Asks.any task stores
  refine Program.Asks.bind (Program.Asks.attempt (Program.Asks.lift asks)) ?_
  exact fun _ => trivial

theorem asks_onAccounts {Result : Type} (task : Deletion.Task Result)
    (accounts : ∀ statement, asked (.lifecycle statement)) :
    (onAccounts task).discard.Asks asked := by
  have asks : task.Asks fun statement => asked (Statement.lifecycle statement) :=
    Program.Asks.any task accounts
  have lifted : (onAccounts task).Asks asked := by
    refine Program.Asks.bind (Program.Asks.attempt (Program.Asks.lift asks)) ?_
    exact fun _ => trivial
  exact Program.Asks.bind lifted fun _ => trivial

theorem asks_ignoringError (statement : Sessions.Statement)
    (stores : ∀ statement, asked (.session statement none)) :
    (ignoringError statement).Asks asked :=
  Program.Asks.bind (asks_onStores (Sessions.query statement) stores).attempt
    fun _ => trivial

/-! ## Failures -/

theorem asks_recordLoginFailure {key : LockoutKey} {attempt : Nat}
    (clock : asked .utcNow)
    (recorded : ∀ now, asked (.recordFailure key now attempt)) :
    (recordLoginFailure key attempt).Asks asked :=
  Program.Asks.bind (asks_one clock) fun now => asks_one (recorded now)

theorem asks_recordFailures (passed : Passed) (clock : asked .utcNow)
    (account : ∀ now,
      asked (.recordFailure passed.account now passed.attempt))
    (address : ∀ entry ∈ passed.address, ∀ now,
      asked (.recordFailure entry.1 now entry.2)) :
    (recordFailures passed).Asks asked := by
  refine Program.Asks.bind (asks_recordLoginFailure clock account) fun _ => ?_
  cases known : passed.address with
  | none => trivial
  | some entry =>
      exact Program.Asks.bind
        (asks_recordLoginFailure clock (address entry known)).attempt
        fun _ => trivial

theorem asks_clearFailures (passed : Passed)
    (cleared : ∀ key attempt, asked (.clearFailures key attempt)) :
    (clearFailures passed).Asks asked := by
  refine Program.Asks.bind (asks_one (cleared _ _)) fun _ => ?_
  cases passed.address with
  | none => trivial
  | some entry => exact asks_one (cleared entry.1 entry.2)

/-! ## Tokens -/

variable {settings : AuthSettings}

theorem asks_retireChallenge (claims : Sessions.TokenClaims)
    (stores : ∀ statement, asked (.session statement none)) :
    (retireChallenge settings claims).Asks asked := by
  unfold retireChallenge
  split
  · exact (asks_ignoringError _ stores).bind fun _ =>
      (asks_ignoringError _ stores).bind fun _ => asks_ignoringError _ stores
  · exact asks_ignoringError _ stores

theorem asks_refreshToken (token : Bearer)
    (stores : ∀ statement, asked (.session statement none))
    (minted : asked (.mintSession token.sub (some token.claims.tokenFamily) none)) :
    (refreshToken settings token).Asks asked := by
  refine Program.Asks.bind (asks_onStores _ stores) fun _ => ?_
  refine Program.Asks.bind (asks_onStores _ stores) fun _ => ?_
  exact Program.Asks.bind (asks_ignoringError _ stores) fun _ => asks_one minted

theorem asks_authenticatedUser (token : Bearer)
    (stores : ∀ statement, asked (.session statement none))
    (found : asked (.findUser token.sub)) (accepted : asked (.accept token.sub)) :
    (authenticatedUser settings token).Asks asked := by
  refine Program.Asks.bind (asks_onStores _ stores) fun _ => ?_
  refine Program.Asks.bind (asks_one found) fun user => ?_
  cases user with
  | none => trivial
  | some user =>
      dsimp only
      split
      · trivial
      · exact Program.Asks.bind (asks_one accepted) fun _ => trivial

/-! ## Recovery codes -/

variable [TextDigest]

theorem asks_tryConsumeRecoveryCode (userId code : Text) (key : LockoutKey)
    (attempt : Nat) (found : asked (.findMfaConfiguration userId))
    (consumed : ∀ configId codeHash,
      asked (.consumeRecoveryCode configId codeHash key attempt))
    (counted : ∀ configId, asked (.countConsumed configId key attempt)) :
    (tryConsumeRecoveryCode userId code key attempt).Asks asked := by
  refine Program.Asks.bind (asks_one found) fun config => ?_
  cases config with
  | none => trivial
  | some config =>
      refine Program.Asks.bind (asks_one (consumed _ _)) fun count => ?_
      cases count with
      | zero => trivial
      | succ others =>
          exact Program.Asks.bind (asks_one (counted _)) fun _ => trivial

end Asks

end FireCrow.Api.Auth
