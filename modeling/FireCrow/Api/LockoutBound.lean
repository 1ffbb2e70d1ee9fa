import FireCrow.Api.ClosedAccounts

/-!
# How many guesses a lockout key lets through

A check counts the failures of its key, the credential is compared later and
its failure is inserted later still.  Between the two a request is under way
that no other check counts; `Covers` is the condition on a check under which
this does not matter.
-/

namespace FireCrow.Api.Auth

open FireCrow.Library
open FireCrow.Services

/-! ## Counting attempts -/

namespace Outcome

/-- A credential was wrong in a window. -/
def wrongWithin (start finish : Timestamp) : Outcome → Bool
  | .wrong time _ => start < time && time ≤ finish
  | _ => false

/-- A credential was wrong after a time, or may still be. -/
def underWay (start : Timestamp) : Outcome → Bool
  | .pending => true
  | .wrong time _ => start < time
  | .finished => false

/-- A credential was wrong after a time, or may still be, and no row says so. -/
def unsettled (start : Timestamp) : Outcome → Bool
  | .pending => true
  | .wrong time recorded => start < time && !recorded
  | .finished => false

/-- A credential was wrong after a time, and a row says so. -/
def settled (start : Timestamp) : Outcome → Bool
  | .wrong time recorded => start < time && recorded
  | _ => false

/-- What may become of an outcome without a row for it. -/
inductive Moves (now : Timestamp) : Outcome → Outcome → Prop where
  | same {outcome} : Moves now outcome outcome
  | wrong : Moves now .pending (.wrong now false)
  | finished {outcome} : Moves now outcome .finished

theorem Moves.trans {now : Timestamp} {first second third : Outcome}
    (before : Moves now first second) (after : Moves now second third) :
    Moves now first third := by
  cases after with
  | same => exact before
  | finished => exact .finished
  | wrong =>
      cases before with
      | same => exact .wrong

variable {start : Timestamp} {before after : Outcome}

theorem Moves.underWay {now : Timestamp}
    (moves : Moves now before after) (later : after.underWay start = true) :
    before.underWay start = true := by
  cases moves with
  | same => exact later
  | wrong => rfl
  | finished => cases later

theorem Moves.settled {now : Timestamp}
    (moves : Moves now before after) (later : after.settled start = true) :
    before.settled start = true := by
  cases moves with
  | same => exact later
  | wrong => simp [Outcome.settled] at later
  | finished => cases later

theorem Moves.wrongWithin {now finish : Timestamp}
    (moves : Moves now before after)
    (past : finish < now) (later : after.wrongWithin start finish = true) :
    before.wrongWithin start finish = true := by
  cases moves with
  | same => exact later
  | wrong =>
      simp only [Outcome.wrongWithin, Bool.and_eq_true, decide_eq_true_eq]
        at later
      exact absurd later.2 (not_le.2 past)
  | finished => cases later

variable {outcome : Outcome}

theorem underWay_of_wrongWithin {finish : Timestamp}
    (wrong : outcome.wrongWithin start finish = true) :
    outcome.underWay start = true := by
  cases outcome with
  | pending => rfl
  | wrong time recorded =>
      simp only [wrongWithin, Bool.and_eq_true, decide_eq_true_eq] at wrong
      simpa [underWay] using wrong.1
  | finished => cases wrong

theorem underWay_of_later {later : Timestamp} (least : start ≤ later)
    (counted : outcome.underWay later = true) :
    outcome.underWay start = true := by
  cases outcome with
  | pending => rfl
  | wrong time recorded =>
      simp only [underWay, decide_eq_true_eq] at counted ⊢
      exact lt_of_le_of_lt least counted
  | finished => cases counted

theorem underWay_cases (counted : outcome.underWay start = true) :
    outcome.unsettled start = true ∨ outcome.settled start = true := by
  cases outcome with
  | pending => exact .inl rfl
  | wrong time recorded =>
      cases recorded with
      | false => exact .inl (by simpa [unsettled, underWay] using counted)
      | true => exact .inr (by simpa [settled, underWay] using counted)
  | finished => cases counted

end Outcome

namespace Record

/-- The attempts of a key with such an outcome. -/
def count (record : Record) (key : LockoutKey) (among : Outcome → Bool) : Nat :=
  record.attempts.countP fun entry => entry.key = key && among entry.outcome

/-- The wrong credentials that were compared under a key in a window, since
its last success. -/
def wrongGuesses (record : Record) (key : LockoutKey)
    (start finish : Timestamp) : Nat :=
  record.count key (Outcome.wrongWithin start finish)

/-- The requests that a key has let through and whose failure, if it comes to
one, is not in the table. -/
def unsettled (record : Record) (key : LockoutKey) (start : Timestamp) : Nat :=
  record.count key (Outcome.unsettled start)

end Record

/-! ## The record under statements -/

def Attempt.Moves (now : Timestamp) (before after : Attempt) : Prop :=
  after.key = before.key ∧ Outcome.Moves now before.outcome after.outcome

theorem Attempt.Moves.same {now : Timestamp} (entry : Attempt) :
    Attempt.Moves now entry entry :=
  ⟨rfl, .same⟩

theorem Attempt.Moves.trans {now : Timestamp} {first second third : Attempt}
    (before : Attempt.Moves now first second)
    (after : Attempt.Moves now second third) : Attempt.Moves now first third :=
  ⟨after.1.trans before.1, before.2.trans after.2⟩

/-- The attempts are the same ones, further on, and none has a new row. -/
def Settles (now : Timestamp) (before after : Record) : Prop :=
  Table.Pointwise (Attempt.Moves now) before.attempts after.attempts

namespace Settles

variable {now : Timestamp}

variable (record : Record)

theorem refl : Settles now record record :=
  Table.Pointwise.refl Attempt.Moves.same _

theorem trans {first second third : Record} (before : Settles now first second)
    (after : Settles now second third) : Settles now first third :=
  Table.Pointwise.trans before after Attempt.Moves.trans

theorem change (attempt : Nat) {become : Outcome → Outcome}
    (moves : ∀ outcome, Outcome.Moves now outcome (become outcome)) :
    Settles now record (record.change attempt become) :=
  Table.Pointwise.modify record.attempts attempt Attempt.Moves.same
    fun entry => ⟨rfl, moves entry.outcome⟩

theorem compared (attempt : Nat) (right : Bool) :
    Settles now record (record.compared attempt now right) := by
  apply change
  intro outcome
  cases right with
  | true => exact .finished
  | false =>
      cases outcome with
      | pending => exact .wrong
      | wrong | finished => exact .same

theorem comparedAll (attempts : List Nat) (right : Bool) :
    Settles now record (attempts.foldl
      (fun record attempt => record.compared attempt now right) record) := by
  induction attempts generalizing record with
  | nil => exact refl record
  | cons attempt attempts ih =>
      exact (compared record attempt right).trans (ih _)

theorem verifies {before after : Record} (settles : Settles now before after)
    (attempt : Nat) (factor : Factor) (right : Bool) :
    Settles now before (after.verifies attempt factor right) :=
  settles

theorem ended (key : LockoutKey) (attempt : Nat) (succeeded : Bool) :
    Settles now record (record.ended key attempt succeeded) := by
  have closed : Settles now record (record.change attempt Outcome.close) := by
    apply change
    intro outcome
    cases outcome with
    | pending => exact .finished
    | wrong | finished => exact .same
  exact closed

theorem cleared [TextDigest] (key : LockoutKey) :
    Settles now record (record.cleared key) := by
  apply Table.Pointwise.map record.attempts
  intro entry
  cases outcome : entry.outcome with
  | pending | finished => exact Attempt.Moves.same entry
  | wrong =>
      dsimp only
      split
      · exact ⟨rfl, outcome ▸ .finished⟩
      · exact Attempt.Moves.same entry

theorem count_le {before after : Record} (settles : Settles now before after)
    (key : LockoutKey) {among : Outcome → Bool}
    (earlier : ∀ {first second}, Outcome.Moves now first second →
      among second = true → among first = true) :
    after.count key among ≤ before.count key among := by
  refine Table.Pointwise.countP_le settles ?_
  intro first second moves counted
  simp only [Bool.and_eq_true, decide_eq_true_eq] at counted ⊢
  exact ⟨moves.1.symm.trans counted.1, earlier moves.2 counted.2⟩

end Settles

/-! ## The statements of a request -/

section Requests

/-- A request may check only before it has opened these attempts, and inserts
failures of these alone. -/
def Owns (opened : List (LockoutKey × Nat)) : Statement → Prop
  | .countFailures .. => False
  | .recordFailure key _ attempt => (key, attempt) ∈ opened
  | _ => True

/-- The attempts of a login. -/
def Passed.opened (passed : Passed) : List (LockoutKey × Nat) :=
  (passed.account, passed.attempt) :: passed.address.toList

theorem owns_recordFailures (passed : Passed) :
    (recordFailures passed).Asks (Owns passed.opened) :=
  asks_recordFailures passed trivial (fun _ => List.mem_cons_self)
    fun _ member _ => List.mem_cons_of_mem _ (Option.mem_toList.2 member)

theorem owns_loginUnlocked (request : LoginRequest) (normalized : Text)
    (passed : Passed) :
    (loginUnlocked request normalized passed).Asks (Owns passed.opened) := by
  refine Program.Asks.bind (asks_one trivial) ?_
  intro found
  cases found with
  | none => exact Program.Asks.bind (owns_recordFailures passed) fun _ => trivial
  | some user =>
      dsimp only
      split
      · exact Program.Asks.bind (owns_recordFailures passed) fun _ => trivial
      · refine Program.Asks.bind (asks_one trivial) ?_
        intro right
        split
        · exact Program.Asks.bind (owns_recordFailures passed) fun _ => trivial
        · apply Program.Asks.bind (asks_clearFailures passed fun _ _ => trivial)
          intro _
          split
          · exact asks_one trivial
          · exact asks_one trivial

variable {settings : AuthSettings}

theorem owns_exchangeToken (code : Text) :
    (exchangeToken settings code).Asks (Owns []) := by
  refine Program.Asks.bind (Program.Asks.bind (asks_one trivial) ?_) ?_
  · intro record
    cases record with
    | none => trivial
    | some record =>
        simp only [decryptedOwner]
        split
        · trivial
        · trivial
  · intro consumed
    cases consumed with
    | none => trivial
    | some userId =>
        refine Program.Asks.bind (asks_one trivial) ?_
        intro found
        split
        · exact asks_one trivial
        · exact asks_one trivial

variable [TextDigest]

theorem owns_secondFactor (user : User) (code : Text) (attempt : Nat)
    (opened : List (LockoutKey × Nat)) :
    (secondFactor settings user code attempt).Asks (Owns opened) := by
  have totp : (verifyTotp settings user code attempt).Asks (Owns opened) := by
    unfold verifyTotp
    split
    · trivial
    · exact asks_one trivial
  apply totp.bind
  intro totpOk
  split
  · trivial
  · exact asks_tryConsumeRecoveryCode _ _ _ _ trivial (fun _ _ => trivial)
      fun _ => trivial

theorem owns_redeemChallenge (claims : Sessions.TokenClaims) (user : User)
    (code : Text) (attempt : Nat) :
    (redeemChallenge settings claims user code attempt).Asks
      (Owns [(.mfaLogin user.id, attempt)]) := by
  apply Program.Asks.bind (owns_secondFactor user code attempt _)
  intro factor
  cases factor with
  | none =>
      have recorded : (recordLoginFailure (.mfaLogin user.id) attempt).Asks
          (Owns [(.mfaLogin user.id, attempt)]) :=
        asks_recordLoginFailure trivial fun _ => List.mem_singleton_self _
      exact recorded.attempt.bind fun _ => trivial
  | some factor =>
      refine Program.Asks.bind (asks_one trivial) fun _ => ?_
      refine Program.Asks.bind (asks_onStores _ fun _ => trivial) fun claimed => ?_
      split
      · trivial
      · exact (asks_retireChallenge claims fun _ => trivial).bind fun _ =>
          asks_one trivial

theorem owns_guessRecoveryCode (userId code : Text) (attempt : Nat) :
    (guessRecoveryCode userId code attempt).Asks
      (Owns [(.mfaRecovery userId, attempt)]) := by
  refine Program.Asks.bind (asks_one trivial) fun config => ?_
  cases config with
  | none => trivial
  | some config =>
      refine Program.Asks.bind (asks_one trivial) fun unused => ?_
      cases unused with
      | zero => trivial
      | succ others =>
          refine Program.Asks.bind (asks_tryConsumeRecoveryCode userId code _
            attempt trivial (fun _ _ => trivial) fun _ => trivial) ?_
          intro consumed
          cases consumed with
          | some _ => exact asks_one trivial
          | none =>
              have recorded :
                  (recordLoginFailure (.mfaRecovery userId) attempt).Asks
                    (Owns [(.mfaRecovery userId, attempt)]) :=
                asks_recordLoginFailure trivial fun _ =>
                  List.mem_singleton_self _
              exact Program.Asks.bind recorded.attempt fun _ => trivial

end Requests

section Bound

variable [TextDigest]

/-- The wrong credentials after a time that a row with this hash counts. -/
def Record.settledUnder (record : Record) (hash : Text) (start : Timestamp) :
    Nat :=
  record.attempts.countP fun entry =>
    entry.key.hash = hash && entry.outcome.settled start

theorem Settles.settledUnder_le {now : Timestamp} {before after : Record}
    (settles : Settles now before after) (hash : Text) (start : Timestamp) :
    after.settledUnder hash start ≤ before.settledUnder hash start := by
  refine Table.Pointwise.countP_le settles ?_
  intro first second moves counted
  simp only [Bool.and_eq_true, decide_eq_true_eq] at counted ⊢
  exact ⟨moves.1 ▸ counted.1, moves.2.settled counted.2⟩

theorem count_underWay_le (record : Record) (key : LockoutKey)
    (start : Timestamp) :
    record.count key (Outcome.underWay start) ≤
      record.unsettled key start + record.settledUnder key.hash start := by
  refine le_trans (List.countP_mono_left fun entry _ counted => ?_)
    (Table.countP_or_le _ _ _)
  simp only [Bool.and_eq_true, decide_eq_true_eq, Bool.or_eq_true]
    at counted ⊢
  rcases Outcome.underWay_cases counted.2 with unsettled | settled
  · exact .inl ⟨counted.1, unsettled⟩
  · exact .inr ⟨congrArg LockoutKey.hash counted.1, settled⟩

/-! ## The invariant -/

/-- The rows of a hash after a time. -/
def Tables.failuresUnder (tables : Tables) (hash : Text) (start : Timestamp) :
    Nat :=
  tables.loginFailures.countP fun failure =>
    failure.keyHash = hash && start < failure.attemptedAt

/-- Within the last window a key lets no more through than its limit, in no
window were more credentials wrong, and every settled one has its row. -/
structure Bounded (settings : AuthSettings) (state : AuthState) : Prop where
  underWay : ∀ key start, state.tables.stores.now ≤ start +
      settings.window key →
    state.record.count key (Outcome.underWay start) ≤ (settings.limit key).toNat
  wrong : ∀ key start,
    state.record.wrongGuesses key start (start + settings.window key) ≤
      (settings.limit key).toNat
  settled : ∀ hash start, state.record.settledUnder hash start ≤
    state.tables.failuresUnder hash start

variable {settings : AuthSettings}

variable {state : AuthState}

/-- It is enough to look at the last window and at those before it. -/
theorem Bounded.of_underWay
    (underWay : ∀ key start, state.tables.stores.now ≤ start +
        settings.window key →
      state.record.count key (Outcome.underWay start) ≤ (settings.limit key).toNat)
    (past : ∀ key start, start + settings.window key <
        state.tables.stores.now →
      state.record.wrongGuesses key start (start + settings.window key) ≤
        (settings.limit key).toNat)
    (settled : ∀ hash start, state.record.settledUnder hash start ≤
      state.tables.failuresUnder hash start) : Bounded settings state where
  underWay := underWay
  wrong key start := by
    by_cases recent : state.tables.stores.now ≤ start + settings.window key
    · refine le_trans (List.countP_mono_left fun entry _ counted => ?_)
        (underWay key start recent)
      simp only [Bool.and_eq_true, decide_eq_true_eq] at counted ⊢
      exact ⟨counted.1, Outcome.underWay_of_wrongWithin counted.2⟩
    · exact past key start (not_le.1 recent)
  settled := settled

variable {after : AuthState}

/-- A statement that gives no attempt a row and takes no row keeps the
bound. -/
theorem Bounded.settles {before : AuthState} (bounded : Bounded settings before)
    (settles : Settles before.tables.stores.now before.record after.record)
    (clock : after.tables.stores.now = before.tables.stores.now)
    (rows : ∀ hash start, before.record.settledUnder hash start ≤
        before.tables.failuresUnder hash start →
      after.record.settledUnder hash start ≤
        after.tables.failuresUnder hash start) :
    Bounded settings after := by
  apply Bounded.of_underWay
  · intro key start recent
    rw [clock] at recent
    exact le_trans (settles.count_le key Outcome.Moves.underWay)
      (bounded.underWay key start recent)
  · intro key start past
    rw [clock] at past
    exact le_trans (settles.count_le key fun moves =>
      moves.wrongWithin past) (bounded.wrong key start)
  · intro hash start
    exact rows hash start (bounded.settled hash start)

variable {key : LockoutKey}

theorem Bounded.passed
    {windowStart : Timestamp} (bounded : Bounded settings state)
    (recent : windowStart + settings.window key ≤ state.tables.stores.now)
    (covered : ((state.tables.countFailures key windowStart +
      state.record.unsettled key windowStart : Nat) : Int) <
        settings.limit key) :
    Bounded settings { state with record := state.record.passed key } := by
  have pending : ∀ (other : LockoutKey) (among : Outcome → Bool),
      (state.record.passed key).count other among =
        state.record.count other among +
          if key = other ∧ among .pending = true then 1 else 0 := by
    intro other among
    unfold Record.count Record.passed
    rw [List.countP_append, List.countP_singleton]
    simp only [Bool.and_eq_true, decide_eq_true_eq]
  constructor
  · intro other start window
    dsimp only at window ⊢
    rw [pending]
    by_cases same : key = other
    · subst same
      have wider : state.record.count key (Outcome.underWay start) ≤
          state.record.count key (Outcome.underWay windowStart) := by
        apply List.countP_mono_left
        intro entry _ counted
        simp only [Bool.and_eq_true, decide_eq_true_eq] at counted ⊢
        exact ⟨counted.1, Outcome.underWay_of_later
          (le_of_add_le_add_right (recent.trans window)) counted.2⟩
      have settledOrNot := count_underWay_le state.record key windowStart
      have rows : state.record.settledUnder key.hash windowStart ≤
          state.tables.countFailures key windowStart :=
        bounded.settled key.hash windowStart
      split <;> omega
    · rw [if_neg fun both => same both.1]
      exact bounded.underWay other start window
  · intro other start
    have same := pending other
      (Outcome.wrongWithin start (start + settings.window other))
    have counts_none : ¬ (key = other ∧ Outcome.wrongWithin start
        (start + settings.window other) .pending = true) :=
      fun both => Bool.false_ne_true both.2
    rw [if_neg counts_none, Nat.add_zero] at same
    exact same.trans_le (bounded.wrong other start)
  · intro hash start
    refine le_trans (le_of_eq ?_) (bounded.settled hash start)
    simp [Record.settledUnder, Record.passed, Outcome.settled]

variable {attempt : Nat}

theorem Bounded.failed {attemptedAt : Timestamp}
    (bounded : Bounded settings state)
    (opened : (state.record.attempts[attempt]?).map Attempt.key = some key) :
    Bounded settings ⟨state.tables.recordFailure key attemptedAt,
      state.record.failed attempt attemptedAt⟩ := by
  have counted : ∀ (other : LockoutKey) (among : Outcome → Bool),
      (among .finished = true → among .pending = true) →
      (∀ time recorded row, among (.wrong time row) = true →
        among (.wrong time recorded) = true) →
      (state.record.failed attempt attemptedAt).count other among ≤
        state.record.count other among := by
    intro other among finished wrong
    apply Table.countP_modify_le_of
    intro entry _ later
    simp only [Bool.and_eq_true, decide_eq_true_eq] at later ⊢
    refine ⟨later.1, ?_⟩
    cases outcome : entry.outcome with
    | pending => exact finished (by simpa [outcome] using later.2)
    | wrong time recorded =>
        exact wrong time recorded _ (by simpa [outcome] using later.2)
    | finished => simpa [outcome] using later.2
  constructor
  · intro other start recent
    refine le_trans (counted other _ (fun absurd => by cases absurd) ?_)
      (bounded.underWay other start recent)
    exact fun _ _ _ later => later
  · intro other start
    refine le_trans (counted other _ (fun absurd => by cases absurd) ?_)
      (bounded.wrong other start)
    exact fun _ _ _ later => later
  · intro hash start
    have before := bounded.settled hash start
    have rows : (state.tables.recordFailure key attemptedAt).failuresUnder hash
        start = state.tables.failuresUnder hash start +
          if key.hash = hash ∧ start < attemptedAt then 1 else 0 := by
      unfold Tables.failuresUnder Tables.recordFailure
      rw [List.countP_append, List.countP_singleton]
      simp only [Bool.and_eq_true, decide_eq_true_eq]
    rw [rows]
    by_cases counts : key.hash = hash ∧ start < attemptedAt
    · rw [if_pos counts]
      exact le_trans (Table.countP_modify_le _ _ _ _) (Nat.succ_le_succ before)
    · rw [if_neg counts]
      refine le_trans (Table.countP_modify_le_of _ _ ?_) before
      intro entry found later
      rw [found, Option.map_some, Option.some.injEq] at opened
      simp only [Bool.and_eq_true, decide_eq_true_eq] at later ⊢
      refine ⟨later.1, ?_⟩
      -- The row is too old to count the attempt, unless another does.
      have old : attemptedAt ≤ start := by
        apply not_lt.1
        exact fun young => counts ⟨opened ▸ later.1, young⟩
      cases outcome : entry.outcome with
      | pending | finished => simp [outcome, Outcome.settled] at later
      | wrong time recorded =>
          simp only [outcome, Outcome.settled, Bool.and_eq_true,
            decide_eq_true_eq, Bool.or_eq_true] at later ⊢
          exact ⟨later.2.1, later.2.2.resolve_right
            (not_le.2 (lt_of_le_of_lt old later.2.1))⟩

/-- A success takes the rows of a hash and closes what was wrong under it. -/
theorem Bounded.cleared (bounded : Bounded settings state) (key : LockoutKey) :
    Bounded settings ⟨state.tables.clearFailures key,
      state.record.cleared key⟩ := by
  refine bounded.settles (Settles.cleared state.record key) rfl ?_
  intro hash start before
  by_cases same : key.hash = hash
  · have none : (state.record.cleared key).settledUnder hash start = 0 := by
      apply List.countP_eq_zero.2
      intro entry member counted
      obtain ⟨earlier, _, rfl⟩ := List.mem_map.1 member
      cases outcome : earlier.outcome with
      | pending | finished => simp [outcome, Outcome.settled] at counted
      | wrong time recorded =>
          simp only [outcome] at counted
          split at counted
          · simp [Outcome.settled] at counted
          · rename_i under
            simp only [Bool.and_eq_true, decide_eq_true_eq] at counted
            exact under (counted.1.trans same.symm)
    rw [none]
    exact Nat.zero_le _
  · have settles : Settles state.tables.stores.now state.record
        (state.record.cleared key) := Settles.cleared _ _
    refine (settles.settledUnder_le hash start).trans
      (before.trans (le_of_eq ?_))
    unfold Tables.failuresUnder Tables.clearFailures
    rw [List.countP_filter]
    apply List.countP_congr
    intro failure _
    simp only [Bool.and_eq_true, decide_eq_true_eq, ne_eq, decide_not,
      Bool.not_eq_true', decide_eq_false_iff_not, iff_self_and]
    rintro ⟨rfl, _⟩
    exact fun equal => same equal.symm

/-! ## The discipline -/

/-- Time goes on, and attempts keep their numbers. -/
structure Later (before after : AuthState) : Prop where
  clock : before.tables.stores.now ≤ after.tables.stores.now
  attempts : before.record.attempts.map Attempt.key <+:
    after.record.attempts.map Attempt.key

omit [TextDigest] in
theorem Later.refl (state : AuthState) : Later state state :=
  ⟨le_refl _, List.prefix_refl _⟩

omit [TextDigest] in
theorem Later.trans {first second third : AuthState}
    (before : Later first second) (after : Later second third) :
    Later first third :=
  ⟨before.clock.trans after.clock, before.attempts.trans after.attempts⟩

/-- An attempt of a key was opened with a number. -/
def Opened (state : AuthState) (key : LockoutKey) (attempt : Nat) : Prop :=
  (state.record.attempts[attempt]?).map Attempt.key = some key

omit [TextDigest] in
theorem Opened.later {before : AuthState} (opened : Opened before key attempt)
    (later : Later before after) : Opened after key attempt := by
  unfold Opened at opened ⊢
  rw [← List.getElem?_map] at opened ⊢
  rcases later.attempts with ⟨others, same⟩
  rw [← same]
  have inside := (List.getElem?_eq_some_iff.1 opened).1
  rw [List.getElem?_append_left inside]
  exact opened

/-- A check looks at the whole window, and a failure is one of an attempt of
its key. -/
def accounts (settings : AuthSettings) (state : AuthState) : Statement → Prop
  | .countFailures key windowStart =>
      windowStart + settings.window key ≤ state.tables.stores.now
  | .recordFailure key _ attempt => Opened state key attempt
  | _ => True

/-- A statement executes, and attempts keep their numbers. -/
def ExecutesLater [UnicodeTables] (settings : AuthSettings) (state : AuthState)
    (statement : Statement) (reply : statement.Reply) (after : AuthState) :
    Prop :=
  (machine settings).Executes state statement reply after ∧ Later state after

def accounting [UnicodeTables] (settings : AuthSettings) :
    Discipline AuthState Statement Statement.Reply where
  executes := ExecutesLater settings
  rely := Later
  requires := accounts settings
  rely_refl := Later.refl
  rely_trans := Later.trans

/-- A check that passes does not meet so many requests under way that together
with the failures in its window they reach the limit. -/
def Covered (settings : AuthSettings) (state : AuthState) : Statement → Prop
  | .countFailures key windowStart =>
      (state.tables.countFailures key windowStart : Int) < settings.limit key →
        ((state.tables.countFailures key windowStart +
          state.record.unsettled key windowStart : Nat) : Int) <
            settings.limit key
  | _ => True

instance (settings : AuthSettings) (state : AuthState)
    (statement : Statement) : Decidable (Covered settings state statement) := by
  cases statement <;> unfold Covered <;> infer_instance

/-- Every check of a run is covered. -/
def Covers (settings : AuthSettings) :
    Condition AuthState Statement Statement.Reply Operation
  | state, .executed _ statement _, _ => Covered settings state statement
  | _, _, _ => True

omit [TextDigest] in
theorem session_clock (sessions : Sessions.SessionSettings)
    (stores : Sessions.Stores) (statement : Sessions.Statement) :
    (statement.answer sessions stores).2.now = stores.now := by
  unfold Sessions.Statement.answer
  cases statement with
  | consumeInRedis claims ttlSeconds =>
      simp only [Sessions.Statement.run,
        Sessions.Stores.consumeInRedis]
      split <;> rfl
  | consumeInDb claims ttlSeconds =>
      simp only [Sessions.Statement.run,
        Sessions.Stores.consumeInDb]
      split <;> rfl
  | revokeTokenJti claims ttlSeconds =>
      simp only [Sessions.Statement.run,
        Sessions.Stores.revokeTokenJti]
      by_cases expired : ttlSeconds ≤ 0
      · rw [if_pos expired]
      · rw [if_neg expired]
  | _ => rfl

theorem clock_answer (state : AuthState) (statement : Statement) :
    (statement.answer settings state).2.tables.stores.now =
      state.tables.stores.now := by
  cases statement with
  | session statement redeems => exact session_clock _ _ _
  | countFailures key windowStart =>
      simp only [Statement.answer, Statement.checked]
      split <;> rfl
  | verifyPassword password passwordHash attempts =>
      simp only [Statement.answer]
      split <;> rfl
  | _ => rfl

/-- What a statement does to the attempts: it opens one, it gives one a row, it
takes the rows of a key, or the attempts move on. -/
theorem record_answer (settings : AuthSettings) (state : AuthState) (statement : Statement) :
    (∃ key windowStart, statement = .countFailures key windowStart) ∨
    (∃ key attemptedAt attempt,
      statement = .recordFailure key attemptedAt attempt) ∨
    (∃ key attempt, statement = .clearFailures key attempt) ∨
    (Settles state.tables.stores.now state.record
        (statement.answer settings state).2.record ∧
      (statement.answer settings state).2.tables.loginFailures =
        state.tables.loginFailures) := by
  cases statement with
  | countFailures key windowStart => exact .inl ⟨key, windowStart, rfl⟩
  | recordFailure key attemptedAt attempt =>
      exact .inr (.inl ⟨key, attemptedAt, attempt, rfl⟩)
  | clearFailures key attempt => exact .inr (.inr (.inl ⟨key, attempt, rfl⟩))
  | verifyPassword password passwordHash attempts =>
      refine .inr (.inr (.inr ?_))
      simp only [Statement.answer]
      split
      · exact ⟨Settles.refl _, rfl⟩
      · exact ⟨Settles.comparedAll _ attempts _, rfl⟩
  | verifyTotp secret code attempt
  | consumeRecoveryCode configId codeHash key attempt =>
      exact .inr (.inr (.inr
        ⟨(Settles.compared _ attempt _).verifies attempt _ _, rfl⟩))
  | ended key attempt succeeded =>
      exact .inr (.inr (.inr ⟨Settles.ended _ key attempt succeeded, rfl⟩))
  | _ => exact .inr (.inr (.inr ⟨Settles.refl _, rfl⟩))

theorem later_answer (state : AuthState) (statement : Statement) :
    Later state (statement.answer settings state).2 := by
  refine ⟨le_of_eq (clock_answer state statement).symm, ?_⟩
  have kept : ∀ {record : Record},
      record.attempts.map Attempt.key = state.record.attempts.map Attempt.key →
        state.record.attempts.map Attempt.key <+:
          record.attempts.map Attempt.key :=
    fun same => same ▸ List.prefix_refl _
  rcases record_answer settings state statement with
    ⟨key, windowStart, rfl⟩ | ⟨key, attemptedAt, attempt, rfl⟩ |
      ⟨key, attempt, rfl⟩ | ⟨settles, _⟩
  · simp only [Statement.answer, Statement.checked]
    split
    · exact ⟨[key], by simp [Record.passed]⟩
    · exact List.prefix_refl _
  · apply kept
    have same : Table.Pointwise
        (fun before after : Attempt => after.key = before.key)
        state.record.attempts
        (state.record.failed attempt attemptedAt).attempts := by
      apply Table.Pointwise.modify
      · exact fun _ => rfl
      · exact fun _ => rfl
    exact same.map_eq fun same => same
  · apply kept
    have settles : Settles state.tables.stores.now state.record
        (state.record.cleared key) := Settles.cleared _ _
    exact settles.map_eq And.left
  · exact kept (settles.map_eq And.left)

theorem bounded_answer {statement : Statement}
    (bounded : Bounded settings state)
    (required : accounts settings state statement)
    (covered : Covered settings state statement) :
    Bounded settings (statement.answer settings state).2 := by
  rcases record_answer settings state statement with
    ⟨key, windowStart, rfl⟩ | ⟨key, attemptedAt, attempt, rfl⟩ |
      ⟨key, attempt, rfl⟩ | ⟨settles, rows⟩
  · simp only [Statement.answer, Statement.checked]
    split
    · rename_i below
      exact bounded.passed required (covered below)
    · exact bounded
  · exact bounded.failed required
  · exact bounded.cleared key
  · refine bounded.settles settles (clock_answer state statement) ?_
    intro hash start before
    rw [Tables.failuresUnder, rows]
    exact (settles.settledUnder_le hash start).trans before

/-! ## The programs -/

variable [UnicodeTables]

theorem executes_later {statement : Statement} {reply : statement.Reply}
    (executes : (machine settings).Executes state statement reply after) :
    Later state after := by
  cases executes with
  | answered | lost => exact later_answer state statement
  | failed => exact Later.refl state

theorem owns_safe {Result : Type} {program : Task Result}
    {opened : List (LockoutKey × Nat)} (asks : program.Asks (Owns opened))
    (holds : ∀ entry ∈ opened, Opened state entry.1 entry.2) :
    program.Safe (accounting settings) (fun _ _ => True) state := by
  have known : program.Asks fun statement => ∀ state,
      (∀ entry ∈ opened, Opened state entry.1 entry.2) →
        (accounting settings).requires state statement := by
    refine asks.mono fun statement owned state holds => ?_
    cases statement with
    | countFailures key windowStart => exact owned.elim
    | recordFailure key attemptedAt attempt => exact holds _ owned
    | _ => trivial
  refine (known.safe_known ?_ ?_ holds).mono fun _ _ _ => trivial
  · exact fun later holds entry member => (holds entry member).later later
  · exact fun executed holds entry member =>
      (holds entry member).later executed.2

theorem utcNow_reads (state : AuthState) :
    (utcNow : Task Timestamp).Safe (accounting settings)
      (fun after result => ∀ now, result = .ok now →
        now ≤ after.tables.stores.now) state := by
  refine fun first _ => ⟨trivial, fun reply after executes last later => ?_⟩
  rintro now rfl
  refine le_trans ?_ later.clock
  rcases executes.1.reply_cases with answered | failed
  · cases answered
    exact le_refl _
  · cases failed

/-- An unlocked key has opened an attempt, with whose number the request goes
on. -/
theorem checkLoginLockout_opens (key : LockoutKey) (state : AuthState) :
    (checkLoginLockout settings key).Safe (accounting settings)
      (fun after result => ∀ checked, result = .ok checked →
        checked.1 = false → Opened after key checked.2) state := by
  refine (utcNow_reads state).bind (fun _ _ _ _ absurd => by cases absurd) ?_
  intro middle now read first later
  have whole : now - settings.window key + settings.window key ≤
      first.tables.stores.now := by
    rw [sub_add_cancel]
    exact (read now rfl).trans later.clock
  refine ⟨whole, fun reply after executes => ?_⟩
  cases reply with
  | error error => exact fun _ _ _ absurd => by cases absurd
  | ok counted =>
      rintro last onward checked same passes
      obtain rfl := Except.ok.inj same
      refine Opened.later ?_ onward
      rcases executes.1.reply_cases with answered | failed
      · cases answered
        have below := not_le.1 (of_decide_eq_false passes)
        dsimp only [Statement.checked] at below ⊢
        rw [if_pos below]
        simp [Opened, Record.passed]
      · cases failed

theorem closing_safe_of {Result : Type} {body : Task Result}
    (safe : body.Safe (accounting settings) (fun _ _ => True) state) :
    (closing key attempt body).Safe (accounting settings) (fun _ _ => True)
      state := by
  have handed : (body.attempt : Task (Except AppError Result)).Safe
      (accounting settings) (fun _ _ => True) state :=
    safe.attempt fun _ _ _ => trivial
  refine handed.bind (fun _ _ _ => trivial) fun after result _ => ?_
  have ends : (Program.ask (.ended key attempt result.isOk) .done : Task Unit).Asks
      (Owns []) := ⟨trivial, fun _ => trivial⟩
  refine Program.Safe.bind (owns_safe ends.attempt
    fun _ absurd => by cases absurd) (fun _ _ _ => trivial) ?_
  exact fun _ _ _ _ _ => trivial

theorem unlessLocked_opens {Result : Type}
    {locked : AppError} {body : Nat → Task Result}
    (safe : ∀ attempt middle, Later state middle →
      Opened middle key attempt →
        (body attempt).Safe (accounting settings) (fun _ _ => True) middle) :
    (unlessLocked settings key locked body).Safe (accounting settings)
      (fun _ _ => True) state := by
  refine ((checkLoginLockout_opens key state).relied And.right).bind
    (fun _ _ _ => trivial) ?_
  rintro middle checked ⟨opened, later⟩
  split
  · exact fun _ _ => trivial
  · rename_i passes
    exact closing_safe_of (safe checked.2 middle later
      (opened checked rfl (Bool.eq_false_of_not_eq_true passes)))

/-! ## The requests -/

theorem login_accounts (request : LoginRequest) (state : AuthState) :
    (login settings request).Safe (accounting settings) (fun _ _ => True)
      state := by
  unfold login
  apply unlessLocked_opens
  intro first middle _ account
  cases request.ipKey with
  | none =>
      apply owns_safe (owns_loginUnlocked request _ _)
      intro entry member
      obtain rfl := List.mem_singleton.1 member
      exact account
  | some clientIp =>
      apply unlessLocked_opens
      intro second last later address
      apply owns_safe (owns_loginUnlocked request _ _)
      intro entry member
      rcases List.mem_cons.1 member with rfl | member
      · exact account.later later
      · obtain rfl := List.mem_singleton.1 member
        exact address

theorem redeemAs_accounts (claims : Sessions.TokenClaims) (code : Text)
    (found : Option User) (state : AuthState) :
    (redeemAs settings claims code found).Safe (accounting settings)
      (fun _ _ => True) state := by
  cases found with
  | none => exact fun _ _ => trivial
  | some user =>
      simp only [redeemAs]
      split
      · exact fun _ _ => trivial
      · split
        · exact fun _ _ => trivial
        · apply unlessLocked_opens
          intro attempt middle _ account
          apply owns_safe (owns_redeemChallenge _ user code attempt)
          intro entry member
          obtain rfl := List.mem_singleton.1 member
          exact account

theorem loginMfa_accounts (challenge : Bearer) (code : Text)
    (state : AuthState) :
    (loginMfa settings challenge code).Safe (accounting settings)
      (fun _ _ => True) state := by
  have none_owned : ∀ {state : AuthState},
      ∀ entry ∈ ([] : List (LockoutKey × Nat)),
        Opened state entry.1 entry.2 := fun _ absurd => by cases absurd
  refine (owns_safe (asks_onStores _ fun _ => trivial) none_owned).bind
    (fun _ _ _ => trivial) fun first _ _ => ?_
  cases Sessions.requireTokenType challenge.claims .mfachallenge with
  | error error => exact fun _ _ => trivial
  | ok _ =>
      refine fun second _ => ⟨trivial, fun reply third _ => ?_⟩
      cases reply with
      | error error => exact fun _ _ => trivial
      | ok found => exact redeemAs_accounts challenge.claims code found third

theorem authenticatedUser_accounts (token : Bearer) (state : AuthState) :
    (authenticatedUser settings token).Safe (accounting settings)
      (fun _ _ => True) state :=
  have asks : (authenticatedUser settings token).Asks (Owns []) :=
    asks_authenticatedUser token (fun _ => trivial) trivial trivial
  owns_safe asks fun _ absurd => by cases absurd

theorem useRecoveryCode_accounts (token : Bearer) (code : Text)
    (state : AuthState) :
    (useRecoveryCode settings token code).Safe (accounting settings)
      (fun _ _ => True) state := by
  refine (authenticatedUser_accounts token state).bind (fun _ _ _ => trivial) ?_
  intro middle userId _
  apply unlessLocked_opens
  intro attempt last _ account
  apply owns_safe (owns_guessRecoveryCode userId code attempt)
  intro entry member
  obtain rfl := List.mem_singleton.1 member
  exact account

theorem operation_accounts (operation : Operation) (state : AuthState) :
    (operation.program settings).Safe (accounting settings) (fun _ _ => True)
      state := by
  have alone : ∀ {program : Task Unit}, program.Asks (Owns []) →
      program.Safe (accounting settings) (fun _ _ => True) state :=
    fun asks => owns_safe asks fun _ absurd => by cases absurd
  have gate : ∀ token, (authenticatedUser settings token).Asks (Owns []) :=
    fun token => asks_authenticatedUser token (fun _ => trivial) trivial trivial
  cases operation with
  | login request => exact login_accounts request state
  | loginMfa challenge code => exact loginMfa_accounts challenge code state
  | exchangeToken code => exact alone (owns_exchangeToken code)
  | refreshToken token =>
      exact alone (asks_refreshToken token (fun _ => trivial) trivial)
  | authenticated token =>
      exact alone ((gate token).bind fun _ => trivial)
  | deleteUser token =>
      exact alone ((gate token).bind fun _ => asks_one trivial)
  | useRecoveryCode token code => exact useRecoveryCode_accounts token code state
  | processDeletions lifecycle =>
      exact alone (asks_onAccounts _ fun _ => trivial)

/-! ## Runs -/

theorem bounded_guarantees :
    GuaranteesUnder (machine settings) (accounting settings) (Covers settings)
      (Bounded settings) where
  executes _ _ executes := ⟨executes, executes_later executes⟩
  operation _ _ := operation_accounts _ _
  statement := by
    intro state process statement reply bounded required covered
    exact ⟨bounded_answer bounded required covered,
      later_answer state statement⟩
  time := by
    intro state duration bounded
    have onward : state.tables.stores.now ≤
        ((machine settings).elapse state duration).tables.stores.now :=
      le_add_of_nonneg_right (Int.natCast_nonneg duration)
    exact ⟨⟨fun key start recent =>
        bounded.underWay key start (onward.trans recent), bounded.wrong,
        bounded.settled⟩, onward, List.prefix_refl _⟩

omit [UnicodeTables] in
theorem bounded_fresh
    (fresh : state.record.attempts = []) : Bounded settings state := by
  have none : ∀ counts : Attempt → Bool,
      state.record.attempts.countP counts = 0 := by
    intro counts
    rw [fresh, List.countP_nil]
  constructor
  · exact fun key start _ => (none _).trans_le (Nat.zero_le _)
  · exact fun key start => (none _).trans_le (Nat.zero_le _)
  · exact fun hash start => (none _).trans_le (Nat.zero_le _)

/-- Where every check that passes meets few requests under way, no key lets
more wrong credentials through in a window, between two successes, than its
limit. -/
theorem wrong_guesses_bounded
    {before after : Config AuthState Statement Statement.Reply AppError}
    (idle : ∀ process, before.processes process = none)
    (fresh : before.state.record.attempts = [])
    (run : (machine settings).Run (Covers settings) before after)
    (key : LockoutKey) (start : Timestamp) :
    after.state.record.wrongGuesses key start (start + settings.window key) ≤
      (settings.limit key).toNat := by
  have sound : Sound (accounting settings) (Bounded settings) before :=
    ⟨bounded_fresh fresh, fun process program running => by
      rw [idle process] at running
      cases running⟩
  exact (sound.runUnder bounded_guarantees run).inv.wrong key start

end Bound

/-! ## Six guesses at once -/

section Guesses

attribute [local instance] TextDigest.sha256 UnicodeTables.ascii

/-- The user has logged out, and no request is under way. -/
def aliceAway : Config AuthState Statement Statement.Reply AppError where
  state := aliceState
  processes _ := none

/-- One guess, and another when the first has ended. -/
def aliceGuessesTwice : Config AuthState Statement Statement.Reply AppError :=
  (machine aliceSettings).schedule
    (fun state statement => decide (Covered aliceSettings state statement))
    aliceAway
    [.call 0 (.login aliceGuess), .advance 0 10,
      .call 1 (.login aliceGuess), .advance 1 10]

theorem wrong_guesses_bounded_aliceGuessesTwice :
    aliceGuessesTwice.state.record.wrongGuesses (.login "alice") (-1)
        (-1 + aliceSettings.window (.login "alice")) ≤
      (aliceSettings.limit (.login "alice")).toNat ∧
    aliceGuessesTwice.state.record.wrongGuesses (.login "alice") (-1)
        (-1 + aliceSettings.window (.login "alice")) = 2 := by
  have admits : Admits (machine aliceSettings)
      (fun state statement => decide (Covered aliceSettings state statement))
      (Covers aliceSettings) :=
    { executed := by
        intro state process statement allowed
        have covered : Covered aliceSettings state statement :=
          of_decide_eq_true allowed
        exact covered
      called := trivial
      crashed := trivial
      elapsed := fun _ => trivial }
  have run : (machine aliceSettings).Run (Covers aliceSettings) aliceAway
      aliceGuessesTwice := admits.schedule aliceAway _
  constructor
  · exact wrong_guesses_bounded (fun _ => rfl) rfl run (.login "alice") (-1)
  · decide +kernel

/-- Six requests have been checked before the first of them compares its
password. -/
def aliceGuessesAtOnce : Config AuthState Statement Statement.Reply AppError :=
  (machine aliceSettings).schedule (fun _ _ => true) aliceAway
    ((List.range 6).flatMap (fun process =>
        [.call process (.login aliceGuess), .advance process 2]) ++
      (List.range 6).map (fun process => .advance process 2))

/-- With a limit of five, six guesses are compared. -/
theorem sixth_guess_compared :
    ¬ ∀ (settings : AuthSettings)
      (before after : Config AuthState Statement Statement.Reply AppError),
      (∀ process, before.processes process = none) →
        before.state.record.attempts = [] →
          (machine settings).Run anyStep before after →
            ∀ (key : LockoutKey) (start : Timestamp),
              after.state.record.wrongGuesses key start
                (start + settings.window key) ≤
                  (settings.limit key).toNat := by
  intro claim
  have admits : Admits (machine aliceSettings) (fun _ _ => true) anyStep :=
    { executed := fun _ => trivial
      called := trivial
      crashed := trivial
      elapsed := fun _ => trivial }
  have bound := claim aliceSettings aliceAway aliceGuessesAtOnce (fun _ => rfl)
    rfl (admits.schedule aliceAway _) (.login "alice") (-1)
  have six : aliceGuessesAtOnce.state.record.wrongGuesses (.login "alice") (-1)
      (-1 + aliceSettings.window (.login "alice")) = 6 := by
    decide +kernel
  rw [six] at bound
  exact absurd bound (by decide)

end Guesses

end FireCrow.Api.Auth
