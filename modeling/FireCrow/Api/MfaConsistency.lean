import FireCrow.Api.MfaLifecycle

/-!
# The factor, its secret and its recovery codes agree

A call that makes its first write in an orderly state and is left alone until
its response passes from stage to stage, and each stage says what the rows
hold.  A call in hand either has not written or knows its stage.
-/

namespace FireCrow.Api.Mfa

open FireCrow.Library

section Consistency

variable [MfaService]

/-! ## What the rows hold -/

namespace Account

/-- An unused code has the hash. -/
def Unused (account : Account) (codeHash : Text) : Prop :=
  ∃ code ∈ account.codes, code.codeHash = codeHash ∧ code.used = false

/-- The unused codes are those of the set that were not consumed. -/
def Leaves (account : Account) (codes : List Text) : Prop :=
  ∀ codeHash, account.Unused codeHash ↔
    codeHash ∈ codes ∧ codeHash ∉ account.consumed

/-- The configuration has the identifier. -/
def Owns (account : Account) (configId : Text) : Prop :=
  ∃ present, account.configuration = some present ∧ present.id = configId

/-- What the rows hold at a stage. -/
def Reached (account : Account) : Option Stage → Prop
  | none => account.Leaves account.shown
  | some .enabled => account.configuration = none
  | some (.writing configId written) =>
      account.Owns configId ∧ account.Leaves written
  | some .disabling => True
  | some (.owning configId) => account.Owns configId
  | some (.emptied configId) => account.Owns configId
  | some .bare => account.configuration = none

/-- Whenever the factor is enabled, a code was verified for the stored
secret. -/
def Verified (account : Account) : Prop :=
  account.mfaEnabled = true →
    ∃ verification ∈ account.verified,
      account.mfaSecret = some verification.stored

/-- Every call that returned an error left the flag, the secret and the codes
as they were: none of its writes took effect. -/
def Blameless (account : Account) : Prop :=
  ∀ call ∈ account.refused, call ∉ account.writers

structure Regular (account : Account) : Prop where
  verified : account.Verified
  owned : ∀ code ∈ account.codes, account.Owns code.mfaConfigId
  reached : account.Reached (account.stage.map Prod.snd)
  blameless : account.Blameless
  numbered : ∀ call, call ∈ account.writers ∨ call ∈ account.refused →
    call < account.calls

end Account

/-! ## The condition -/

namespace Statement

/-- The first write of a call. -/
def first : Statement → Bool
  | .setSecret .. | .enable .. | .resetCodes .. | .disable _ => true
  | _ => false

/-- What follows the first write of a call. -/
def later : Statement → Bool
  | .upsertConfiguration .. | .insertCode .. | .ownConfiguration _
  | .deleteCodes .. | .deleteConfiguration .. => true
  | _ => false

/-- An enrolment finds the factor disabled; an activation, a regeneration and
a disabling find no other one of them between its first write and its response,
an activation also the secret that it has verified and no configuration, a
regeneration the configuration that it has read. -/
def Timely (account : Account) : Statement → Prop
  | .setSecret .. => account.mfaEnabled = false
  | .enable _ verification =>
      account.stage = none ∧ account.mfaSecret = some verification.stored ∧
        account.configuration = none
  | .resetCodes _ configId => account.stage = none ∧ account.Owns configId
  | .disable _ => account.stage = none
  | _ => True

end Statement

/-- A first write that succeeds is timely, one that fails has no effect, and
what follows it succeeds. -/
def Orderly : Condition Account Statement Statement.Reply Operation
  | account, .executed _ statement reply, after =>
      (statement.first = true → reply.isOk = true → statement.Timely account) ∧
        (statement.first = true → reply.isOk = false → after = account) ∧
        (statement.later = true → reply.isOk = true)
  | _, _, _ => True

theorem machine_runs : (machine).Runs fun account statement =>
    statement.run account where
  answered := by
    intro account statement answer after success
    show Statement.answer account statement = _
    rw [Statement.answer, success]
  refused := by
    intro account statement error refused
    show Statement.answer account statement = _
    rw [Statement.answer, refused]
  failed _ := ⟨_, rfl⟩

/-- A statement leaves the rows or takes effect, a first write where it is
timely. -/
theorem Orderly.effect {account after : Account} {process : Nat}
    {statement : Statement} {reply : statement.Reply}
    (orderly : Orderly account (.executed process statement reply) after)
    (executes : machine.Executes account statement reply after) :
    after = account ∨ ∃ answer, statement.run account = .ok (answer, after) ∧
      (statement.first = true → statement.Timely account) := by
  rcases machine_runs.cases account statement with
    ⟨answer, last, success, answered⟩ | ⟨error, _, answered⟩
  · rcases executes.after_cases with same | same
    · exact .inl same
    · rw [answered] at same
      have moved : after = last := same
      subst moved
      by_cases replied : reply.isOk = true
      · exact .inr ⟨answer, success, fun first =>
          orderly.1 first replied⟩
      · by_cases first : statement.first = true
        · exact .inl (orderly.2.1 first (by simpa using replied))
        · exact .inr ⟨answer, success, fun is => absurd is first⟩
  · rcases executes.after_cases with same | same
    · exact .inl same
    · rw [answered] at same
      exact .inl same

/-! ## Tokens -/

/-- What a call in hand knows: it has not written, or it has come to a
stage. -/
inductive Token where
  | clean (call : Nat)
  | reached (call : Nat) (stage : Stage)

def Token.Good (account : Account) : Token → Prop
  | .clean call =>
      call < account.calls ∧ call ∉ account.writers ∧ call ∉ account.refused
  | .reached call stage => account.stage = some (call, stage)

namespace Statement

/-- What a statement takes from the call that issues it. -/
def price : Statement → Option Token
  | .setSecret call _ => some (.clean call)
  | .enable call _ => some (.clean call)
  | .resetCodes call _ => some (.clean call)
  | .disable call => some (.clean call)
  | .upsertConfiguration call _ _ => some (.reached call .enabled)
  | .insertCode call written _ configId _ =>
      some (.reached call (.writing configId written))
  | .ownConfiguration call => some (.reached call .disabling)
  | .deleteCodes call configId => some (.reached call (.owning configId))
  | .deleteConfiguration call configId =>
      some (.reached call (.emptied configId))
  | .respond call none => some (.clean call)
  | .respond call (some (.codes configId shown)) =>
      some (.reached call (.writing configId shown))
  | .respond call (some .disabled) => some (.reached call .bare)
  | _ => none

/-- What a reply gives to it: a first write that fails gives back what it
took. -/
def yield : (statement : Statement) → statement.Reply → Option Token
  | .begin, .ok call => some (.clean call)
  | .setSecret call _, .error _ => some (.clean call)
  | .enable call _, reply =>
      some (if reply.isOk then .reached call .enabled else .clean call)
  | .resetCodes call configId, reply =>
      some (if reply.isOk then .reached call (.writing configId [])
        else .clean call)
  | .disable call, reply =>
      some (if reply.isOk then .reached call .disabling else .clean call)
  | .upsertConfiguration call configId _, .ok _ =>
      some (.reached call (.writing configId []))
  | .insertCode call written _ configId codeHash, .ok _ =>
      some (.reached call (.writing configId (written ++ [codeHash])))
  | .ownConfiguration call, .ok configuration =>
      some (.reached call
        (configuration.elim .bare fun present => .owning present.id))
  | .deleteCodes call configId, .ok _ =>
      some (.reached call (.emptied configId))
  | .deleteConfiguration call _, .ok _ => some (.reached call .bare)
  | _, _ => none

end Statement

/-- What calls know and pass on; nobody else knows it. -/
def ledger : Ledger Account Statement Statement.Reply Token where
  exclusive _ := True
  good account token := token.Good account
  pays statement := {token | statement.price = some token}
  gains statement reply := {token | statement.yield reply = some token}
  possible _ statement reply := statement.later = true → reply.isOk = true

/-! ## What a statement keeps -/

section Keeps

variable {account : Account}

theorem Account.enter_stage (free : account.stage = none) (call : Nat)
    (stage : Stage) : (account.enter call stage).stage = some (call, stage) :=
  if_pos free

variable {call : Nat}

theorem Account.move_stage {source : Stage}
    (here : account.stage = some (call, source)) (target : Option Stage) :
    (account.move call source target).stage =
      target.map fun stage => (call, stage) :=
  if_pos here

theorem Account.Owns.id_eq {first second : Text} (owns : account.Owns first)
    (owns' : account.Owns second) : first = second := by
  rcases owns with ⟨present, found, rfl⟩
  rcases owns' with ⟨present', found', rfl⟩
  rw [found] at found'
  cases found'
  rfl

variable {configId : Text}

/-- The codes of the only configuration are all codes. -/
theorem Account.Regular.otherCodes (regular : account.Regular)
    (owns : account.Owns configId) : account.otherCodes configId = [] := by
  apply List.filter_eq_nil_iff.2
  intro code member
  have same := (regular.owned code member).id_eq owns
  simp [same]

theorem Account.Regular.codes_eq_nil (regular : account.Regular)
    (bare : account.configuration = none) : account.codes = [] := by
  apply List.eq_nil_iff_forall_not_mem.2
  intro code member
  rcases regular.owned code member with ⟨present, found, _⟩
  rw [bare] at found
  cases found

theorem Account.leaves_nil (empty : account.codes = []) :
    account.Leaves [] := by
  intro codeHash
  constructor
  · rintro ⟨code, member, _⟩
    rw [empty] at member
    exact absurd member List.not_mem_nil
  · rintro ⟨member, _⟩
    exact absurd member List.not_mem_nil

theorem Account.Leaves.consume {codes : List Text}
    (owned : ∀ code ∈ account.codes, account.Owns code.mfaConfigId)
    (leaves : account.Leaves codes) (configId codeHash : Text) :
    (account.consumeCode configId codeHash).2.Leaves codes := by
  have unused : ∀ other,
      (account.consumeCode configId codeHash).2.Unused other ↔
        ∃ code ∈ account.codes, code.codeHash = other ∧ code.used = false ∧
          redeems configId codeHash code = false := by
    intro other
    constructor
    · rintro ⟨_, member, hash, free⟩
      rcases List.mem_map.1 member with ⟨code, inside, rfl⟩
      by_cases selected : redeems configId codeHash code = true
      · rw [if_pos selected] at free
        cases free
      · rw [if_neg selected] at hash free
        exact ⟨code, inside, hash, free, by simpa using selected⟩
    · rintro ⟨code, inside, hash, free, spared⟩
      refine ⟨code, List.mem_map.2 ⟨code, inside, ?_⟩, hash, free⟩
      rw [if_neg (by simp [spared])]
  by_cases none : account.codes.countP (redeems configId codeHash) = 0
  · have spared : ∀ code ∈ account.codes,
        redeems configId codeHash code = false := by
      intro code member
      simpa using List.countP_eq_zero.1 none code member
    have consumed : (account.consumeCode configId codeHash).2.consumed =
        account.consumed := if_pos none
    intro other
    rw [unused, consumed, ← leaves other]
    constructor
    · rintro ⟨code, member, hash, free, _⟩
      exact ⟨code, member, hash, free⟩
    · rintro ⟨code, member, hash, free⟩
      exact ⟨code, member, hash, free, spared code member⟩
  · have consumed : (account.consumeCode configId codeHash).2.consumed =
        codeHash :: account.consumed := if_neg none
    rcases List.countP_pos_iff.1 (Nat.pos_of_ne_zero none) with
      ⟨redeemed, inside, selected⟩
    simp only [redeems, Bool.and_eq_true, decide_eq_true_eq] at selected
    have config : ∀ code ∈ account.codes, code.mfaConfigId = configId :=
      fun code member => ((owned code member).id_eq
        (owned redeemed inside)).trans selected.1
    intro other
    rw [unused, consumed]
    constructor
    · rintro ⟨code, member, hash, free, spared⟩
      have kept := (leaves other).1 ⟨code, member, hash, free⟩
      refine ⟨kept.1, ?_⟩
      rw [List.mem_cons, not_or]
      refine ⟨?_, kept.2⟩
      rintro rfl
      simp [redeems, config code member, hash, free] at spared
    · rintro ⟨member, absent⟩
      rw [List.mem_cons, not_or] at absent
      rcases (leaves other).2 ⟨member, absent.2⟩ with
        ⟨code, inside, hash, free⟩
      refine ⟨code, inside, hash, free, ?_⟩
      have differs : code.codeHash ≠ codeHash := hash ▸ absent.1
      simp [redeems, differs]

section

variable (regular : account.Regular)
include regular

theorem Account.Regular.blameless_enter
    (clean : (Token.clean call).Good account) :
    ∀ other ∈ account.refused, other ∉ call :: account.writers := by
  intro other refused wrote
  rcases List.mem_cons.1 wrote with rfl | before
  · exact clean.2.2 refused
  · exact regular.blameless other refused before

theorem Account.Regular.numbered_enter
    (clean : (Token.clean call).Good account) :
    ∀ other, other ∈ call :: account.writers ∨ other ∈ account.refused →
      other < account.calls := by
  rintro other (wrote | refused)
  · rcases List.mem_cons.1 wrote with rfl | before
    · exact clean.1
    · exact regular.numbered other (.inl before)
  · exact regular.numbered other (.inr refused)

theorem Account.Regular.setSecret
    {secret : Text} (disabled : account.mfaEnabled = false)
    (clean : (Token.clean call).Good account) :
    (account.setSecret call secret).Regular where
  verified := by
    intro enabled
    have set : account.mfaEnabled = true := enabled
    rw [disabled] at set
    cases set
  owned := regular.owned
  reached := regular.reached
  blameless := regular.blameless_enter clean
  numbered := regular.numbered_enter clean

theorem Account.Regular.enable
    {verification : Verification} (free : account.stage = none)
    (stored : account.mfaSecret = some verification.stored)
    (bare : account.configuration = none) (clean : (Token.clean call).Good account) :
    (account.enable call verification).Regular where
  verified := fun _ => ⟨verification, List.mem_cons_self, stored⟩
  owned := regular.owned
  reached := by
    have entered : (account.enable call verification).stage =
        some (call, .enabled) := Account.enter_stage (by exact free) _ _
    rw [entered]
    exact bare
  blameless := regular.blameless_enter clean
  numbered := regular.numbered_enter clean

theorem Account.Regular.resetCodes
    (free : account.stage = none)
    (owns : account.Owns configId) (clean : (Token.clean call).Good account) :
    (account.resetCodes call configId).Regular where
  verified := regular.verified
  owned := by
    intro code member
    have kept : code ∈ account.otherCodes configId := member
    rw [regular.otherCodes owns] at kept
    exact absurd kept List.not_mem_nil
  reached := by
    have entered : (account.resetCodes call configId).stage =
        some (call, .writing configId []) :=
      Account.enter_stage (by exact free) _ _
    rw [entered]
    exact ⟨owns, Account.leaves_nil (regular.otherCodes owns)⟩
  blameless := regular.blameless_enter clean
  numbered := regular.numbered_enter clean

theorem Account.Regular.disable
    (free : account.stage = none) (clean : (Token.clean call).Good account) :
    (account.disable call).Regular where
  verified := by
    intro enabled
    have set : false = true := enabled
    cases set
  owned := regular.owned
  reached := by
    have entered : (account.disable call).stage = some (call, .disabling) :=
      Account.enter_stage (by exact free) _ _
    rw [entered]
    trivial
  blameless := regular.blameless_enter clean
  numbered := regular.numbered_enter clean

theorem Account.Regular.upsertConfiguration
    {secret : Text} (here : account.stage = some (call, .enabled)) :
    (account.upsertConfiguration call configId secret).Regular := by
  have bare : account.configuration = none := by
    have reached := regular.reached
    rw [here] at reached
    exact reached
  have empty : (account.upsertConfiguration call configId secret).codes = [] :=
    regular.codes_eq_nil bare
  have owns : (account.upsertConfiguration call configId secret).Owns
      configId := by
    refine ⟨⟨configId, true, secret, 0⟩, ?_, rfl⟩
    simp only [Account.upsertConfiguration, Account.move, bare]
  exact
    { verified := regular.verified
      owned := by
        intro code member
        rw [empty] at member
        exact absurd member List.not_mem_nil
      reached := by
        have moved : (account.upsertConfiguration call configId secret).stage =
            some (call, .writing configId []) :=
          Account.move_stage (by exact here) _
        rw [moved]
        exact ⟨owns, Account.leaves_nil empty⟩
      blameless := regular.blameless
      numbered := regular.numbered }

end

variable {after : Account}

section

variable (regular : account.Regular)
include regular

theorem Account.Regular.insertCode
    {written : List Text} {codeId codeHash : Text}
    (here : account.stage = some (call, .writing configId written))
    (success : account.insertCode call written codeId configId codeHash =
      .ok ((), after)) : after.Regular := by
  have reached := regular.reached
  rw [here] at reached
  rcases reached with ⟨owns, leaves⟩
  unfold Account.insertCode at success
  split at success
  · cases success
  split at success
  · cases success
  cases success
  exact
    { verified := regular.verified
      owned := by
        intro code member
        rcases List.mem_append.1 member with old | added
        · exact regular.owned code old
        · rw [List.mem_singleton.1 added]
          exact owns
      reached := by
        rw [Account.move_stage (by exact here)]
        refine ⟨owns, fun other => ?_⟩
        have unused : (∃ code ∈ account.codes ++
            [(⟨codeId, configId, codeHash, false⟩ : MfaRecoveryCode)],
              code.codeHash = other ∧ code.used = false) ↔
            account.Unused other ∨ codeHash = other := by
          simp only [List.mem_append, List.mem_singleton, or_and_right,
            exists_or, exists_eq_left, and_true]
          rfl
        refine unused.trans ?_
        show _ ↔ other ∈ written ++ [codeHash] ∧
          other ∉ account.consumed.filter fun other => other ≠ codeHash
        rw [leaves other]
        by_cases same : other = codeHash
        · simp [same]
        · simp [same, Ne.symm same]
      blameless := regular.blameless
      numbered := regular.numbered }

theorem Account.Regular.ownConfiguration
    (here : account.stage = some (call, .disabling)) :
    (account.ownConfiguration call).2.Regular where
  verified := regular.verified
  owned := regular.owned
  reached := by
    show Account.Reached _ (Option.map Prod.snd (account.move call .disabling
      _).stage)
    rw [Account.move_stage here]
    cases found : account.configuration with
    | none => exact found
    | some present => exact ⟨present, found, rfl⟩
  blameless := regular.blameless
  numbered := regular.numbered

theorem Account.Regular.deleteCodes
    (here : account.stage = some (call, .owning configId)) :
    (account.deleteCodes call configId).Regular := by
  have owns : account.Owns configId := by
    have reached := regular.reached
    rw [here] at reached
    exact reached
  exact
    { verified := regular.verified
      owned := by
        intro code member
        have kept : code ∈ account.otherCodes configId := member
        rw [regular.otherCodes owns] at kept
        exact absurd kept List.not_mem_nil
      reached := by
        have moved : (account.deleteCodes call configId).stage =
            some (call, .emptied configId) :=
          Account.move_stage (by exact here) _
        rw [moved]
        exact owns
      blameless := regular.blameless
      numbered := regular.numbered }

theorem Account.Regular.deleteConfiguration
    (here : account.stage = some (call, .emptied configId)) :
    (account.deleteConfiguration call configId).Regular := by
  have owns : account.Owns configId := by
    have reached := regular.reached
    rw [here] at reached
    exact reached
  exact
    { verified := regular.verified
      owned := by
        intro code member
        have kept : code ∈ account.otherCodes configId := member
        rw [regular.otherCodes owns] at kept
        exact absurd kept List.not_mem_nil
      reached := by
        have moved : (account.deleteConfiguration call configId).stage =
            some (call, .bare) :=
          Account.move_stage (by exact here) _
        rw [moved]
        rcases owns with ⟨present, found, same⟩
        show (account.configuration.filter fun present =>
          present.id ≠ configId) = none
        rw [found, Option.filter_some, if_neg (by simp [same])]
      blameless := regular.blameless
      numbered := regular.numbered }

theorem Account.Regular.consumeCode
    (configId codeHash : Text) :
    (account.consumeCode configId codeHash).2.Regular where
  verified := regular.verified
  owned := by
    intro code member
    rcases List.mem_map.1 member with ⟨old, inside, rfl⟩
    have same : (if redeems configId codeHash old
        then { old with used := true } else old).mfaConfigId =
          old.mfaConfigId := by
      split <;> rfl
    rw [same]
    exact regular.owned old inside
  reached := by
    have here := regular.reached
    have consumes : ∀ codes, account.Leaves codes →
        (account.consumeCode configId codeHash).2.Leaves codes :=
      fun codes leaves => leaves.consume regular.owned configId codeHash
    show Account.Reached _ (account.stage.map Prod.snd)
    cases stage : account.stage.map Prod.snd with
    | none =>
        rw [stage] at here
        exact consumes _ here
    | some stage' =>
        rw [stage] at here
        cases stage' with
        | writing => exact ⟨here.1, consumes _ here.2⟩
        | _ => exact here
  blameless := regular.blameless
  numbered := regular.numbered

theorem Account.Regular.countConsumed
    (configId : Text) : (account.countConsumed configId).Regular := by
  have owns : ∀ other, account.Owns other →
      (account.countConsumed configId).Owns other := by
    rintro other ⟨present, found, same⟩
    refine ⟨_, congrArg (Option.map _) found, ?_⟩
    dsimp only
    split
    · exact same
    · exact same
  exact
    { verified := regular.verified
      owned := fun code member => owns _ (regular.owned code member)
      reached := by
        have here := regular.reached
        show Account.Reached _ (account.stage.map Prod.snd)
        cases stage : account.stage.map Prod.snd with
        | none =>
            rw [stage] at here
            exact here
        | some stage' =>
            rw [stage] at here
            cases stage' with
            | enabled | bare => exact congrArg (Option.map _) here
            | writing => exact ⟨owns _ here.1, here.2⟩
            | disabling => trivial
            | owning => exact owns _ here
            | emptied => exact owns _ here
      blameless := regular.blameless
      numbered := regular.numbered }

theorem Account.Regular.showCodes
    {shown : List Text}
    (here : account.stage = some (call, .writing configId shown)) :
    (account.respond call (some (.codes configId shown))).Regular where
  verified := regular.verified
  owned := regular.owned
  reached := by
    have moved : (account.respond call (some (.codes configId shown))).stage =
        none := Account.move_stage (by exact here) none
    rw [moved]
    have reached := regular.reached
    rw [here] at reached
    exact reached.2
  blameless := regular.blameless
  numbered := regular.numbered

theorem Account.Regular.withdrawCodes
    (here : account.stage = some (call, .bare)) :
    (account.respond call (some .disabled)).Regular where
  verified := regular.verified
  owned := regular.owned
  reached := by
    have moved : (account.respond call (some .disabled)).stage = none :=
      Account.move_stage (by exact here) none
    rw [moved]
    have reached := regular.reached
    rw [here] at reached
    exact Account.leaves_nil (regular.codes_eq_nil reached)
  blameless := regular.blameless
  numbered := regular.numbered

theorem Account.Regular.refuse
    (clean : (Token.clean call).Good account) :
    (account.respond call none).Regular where
  verified := regular.verified
  owned := regular.owned
  reached := regular.reached
  blameless := by
    intro other refused
    rcases List.mem_cons.1 refused with rfl | before
    · exact clean.2.1
    · exact regular.blameless other before
  numbered := by
    rintro other (wrote | refused)
    · exact regular.numbered other (.inl wrote)
    · rcases List.mem_cons.1 refused with rfl | before
      · exact clean.1
      · exact regular.numbered other (.inr before)

theorem Account.Regular.run {statement : Statement} {answer : statement.Answer}
    (success : statement.run account = .ok (answer, after))
    (timely : statement.first = true → statement.Timely account)
    (paid : ∀ token, statement.price = some token → token.Good account) :
    after.Regular := by
  cases statement with
  | begin =>
      cases success
      exact ⟨regular.verified, regular.owned, regular.reached,
        regular.blameless,
        fun call known => (regular.numbered call known).trans
          (Nat.lt_succ_self _)⟩
  | selectUser | selectConfiguration =>
      cases success
      exact regular
  | setSecret call secret =>
      cases success
      exact regular.setSecret (timely rfl) (paid _ rfl)
  | enable call verification =>
      cases success
      have due := timely rfl
      exact regular.enable due.1 due.2.1 due.2.2 (paid _ rfl)
  | upsertConfiguration call configId secret =>
      cases success
      exact regular.upsertConfiguration (paid _ rfl)
  | insertCode call written codeId configId codeHash =>
      simp only [Statement.run] at success
      cases inserted : account.insertCode call written codeId configId
          codeHash with
      | error error =>
          rw [inserted] at success
          cases success
      | ok result =>
          rw [inserted] at success
          cases success
          exact regular.insertCode (paid _ rfl) inserted
  | resetCodes call configId =>
      cases success
      have due := timely rfl
      exact regular.resetCodes due.1 due.2 (paid _ rfl)
  | disable call =>
      cases success
      exact regular.disable (timely rfl) (paid _ rfl)
  | ownConfiguration call =>
      cases success
      exact regular.ownConfiguration (paid _ rfl)
  | deleteCodes call configId =>
      cases success
      exact regular.deleteCodes (paid _ rfl)
  | deleteConfiguration call configId =>
      cases success
      exact regular.deleteConfiguration (paid _ rfl)
  | consumeCode configId codeHash =>
      cases success
      exact regular.consumeCode configId codeHash
  | countConsumed configId =>
      cases success
      exact regular.countConsumed configId
  | respond call response =>
      cases success
      cases response with
      | none => exact regular.refuse (paid _ rfl)
      | some response =>
          cases response with
          | stored => exact regular
          | codes configId shown => exact regular.showCodes (paid _ rfl)
          | disabled => exact regular.withdrawCodes (paid _ rfl)

end

/-! ## What others leave of a token -/

variable {token : Token}

section

variable (good : token.Good account)
include good

theorem Token.Good.wrote (other : some (Token.clean call) ≠ some token)
    (calls : after.calls = account.calls) (stage : after.stage = account.stage)
    (writers : after.writers = call :: account.writers)
    (refused : after.refused = account.refused) : token.Good after := by
  cases token with
  | clean holder =>
      refine ⟨calls ▸ good.1, fun wrote => ?_, refused ▸ good.2.2⟩
      rw [writers] at wrote
      rcases List.mem_cons.1 wrote with rfl | before
      · exact other rfl
      · exact good.2.1 before
  | reached holder held => exact stage.trans good

theorem Token.Good.enter
    (other : some (Token.clean call) ≠ some token) (stage : Stage) :
    token.Good (account.enter call stage) := by
  cases token with
  | clean holder =>
      refine ⟨good.1, fun wrote => ?_, good.2.2⟩
      rcases List.mem_cons.1 wrote with rfl | before
      · exact other rfl
      · exact good.2.1 before
  | reached holder held =>
      have here : account.stage = some (holder, held) := good
      show (if account.stage = none then _ else account.stage) = _
      rw [if_neg (by simp [here])]
      exact here

theorem Token.Good.move {source : Stage}
    (other : some (Token.reached call source) ≠ some token)
    (target : Option Stage) : token.Good (account.move call source target) := by
  cases token with
  | clean holder => exact good
  | reached holder held =>
      have here : account.stage = some (holder, held) := good
      show (if account.stage = some (call, source) then _
        else account.stage) = _
      rw [if_neg]
      · exact here
      · rw [here]
        intro same
        cases same
        exact other rfl

/-- A token depends on the record of calls alone. -/
theorem Token.Good.frame (calls : account.calls ≤ after.calls)
    (stage : after.stage = account.stage)
    (writers : after.writers = account.writers)
    (refused : after.refused = account.refused) : token.Good after := by
  cases token with
  | clean holder =>
      refine ⟨good.1.trans_le calls, ?_, ?_⟩
      · rw [writers]
        exact good.2.1
      · rw [refused]
        exact good.2.2
  | reached holder held => exact stage.trans good

theorem Token.Good.run {statement : Statement} {answer : statement.Answer}
    (success : statement.run account = .ok (answer, after))
    (unpaid : statement.price ≠ some token) : token.Good after := by
  have same : ∀ after : Account, account.calls ≤ after.calls →
      after.stage = account.stage → after.writers = account.writers →
        after.refused = account.refused → token.Good after :=
    fun _ => good.frame
  cases statement with
  | begin =>
      cases success
      exact same _ (Nat.le_succ _) rfl rfl rfl
  | selectUser | selectConfiguration =>
      cases success
      exact good
  | setSecret call secret =>
      cases success
      exact good.wrote unpaid rfl rfl rfl rfl
  | enable call verification =>
      cases success
      exact (same
        { account with
          mfaEnabled := true
          verified := verification :: account.verified }
        (le_refl _) rfl rfl rfl).enter unpaid _
  | upsertConfiguration | deleteCodes | deleteConfiguration =>
      cases success
      apply Token.Good.move
      · exact same _ (le_refl _) rfl rfl rfl
      · exact unpaid
  | insertCode call written codeId configId codeHash =>
      simp only [Statement.run] at success
      unfold Account.insertCode at success
      split at success
      · cases success
      split at success
      · cases success
      cases success
      apply Token.Good.move
      · exact same _ (le_refl _) rfl rfl rfl
      · exact unpaid
  | resetCodes | disable =>
      cases success
      apply Token.Good.enter
      · exact same _ (le_refl _) rfl rfl rfl
      · exact unpaid
  | ownConfiguration call =>
      cases success
      exact good.move unpaid _
  | consumeCode | countConsumed =>
      cases success
      exact same _ (le_refl _) rfl rfl rfl
  | respond call response =>
      cases success
      cases response with
      | none =>
          cases token with
          | clean holder =>
              refine ⟨good.1, good.2.1, fun refused => ?_⟩
              rcases List.mem_cons.1 refused with rfl | before
              · exact unpaid rfl
              · exact good.2.2 before
          | reached holder held => exact good
      | some response =>
          cases response with
          | stored => exact good
          | codes | disabled =>
              apply Token.Good.move
              · exact same _ (le_refl _) rfl rfl rfl
              · exact unpaid

end

section Gained

variable {after : Account} {statement : Statement}

theorem executes_ok {answer : statement.Answer}
    (executes : machine.Executes account statement (.ok answer) after) :
    statement.run account = .ok (answer, after) :=
  machine_runs.executes executes

/-- What a first write gives: a stage, or what it took. -/
theorem gained_first {reply : statement.Reply} {process : Nat} {stage : Stage}
    (orderly : Orderly account (.executed process statement reply) after)
    (first : statement.first = true)
    (price : statement.price = some (.clean call))
    (clean : (Token.clean call).Good account)
    (free : reply.isOk = true → account.stage = none)
    (entered : reply.isOk = true → after.stage = some (call, stage))
    (gained : some (if reply.isOk = true then Token.reached call stage
      else .clean call) = some token) :
    token.Good after ∧
      (token.Good account → statement.price = some token) := by
  by_cases replied : reply.isOk = true
  · rw [if_pos replied] at gained
    cases gained
    refine ⟨entered replied, fun good => ?_⟩
    have there : account.stage = some (call, stage) := good
    rw [free replied] at there
    cases there
  · rw [if_neg replied] at gained
    cases gained
    have same := orderly.2.1 first (by simpa using replied)
    rw [same]
    exact ⟨clean, fun _ => price⟩

theorem gained_later {source target : Stage}
    (price : statement.price = some (.reached call source))
    (here : account.stage = some (call, source))
    (moved : after.stage = some (call, target)) :
    (Token.reached call target).Good after ∧
      ((Token.reached call target).Good account →
        statement.price = some (.reached call target)) := by
  refine ⟨moved, fun good => ?_⟩
  have there : account.stage = some (call, target) := good
  rw [here] at there
  cases there
  exact price

/-- What a reply gives is good, and nobody else had it. -/
theorem token_gained {reply : statement.Reply} {process : Nat}
    (orderly : Orderly account (.executed process statement reply) after)
    (executes : machine.Executes account statement reply after)
    (regular : account.Regular)
    (paid : ∀ token, statement.price = some token → token.Good account)
    (gained : statement.yield reply = some token) :
    token.Good after ∧
      (token.Good account → statement.price = some token) := by
  cases statement with
  | begin =>
      cases reply with
      | error error => cases gained
      | ok call =>
          have success := executes_ok executes
          cases success
          cases gained
          refine ⟨⟨Nat.lt_succ_self _, fun wrote => ?_, fun refused => ?_⟩,
            fun good => absurd good.1 (Nat.lt_irrefl _)⟩
          · exact Nat.lt_irrefl _ (regular.numbered _ (.inl wrote))
          · exact Nat.lt_irrefl _ (regular.numbered _ (.inr refused))
  | setSecret call secret =>
      cases reply with
      | ok answer => cases gained
      | error error =>
          cases gained
          rw [orderly.2.1 rfl rfl]
          exact ⟨paid _ rfl, fun _ => rfl⟩
  | enable | resetCodes =>
      refine gained_first orderly rfl rfl (paid _ rfl)
        (fun replied => (orderly.1 rfl replied).1) (fun replied => ?_) gained
      have free := (orderly.1 rfl replied).1
      cases reply with
      | error error => cases replied
      | ok answer =>
          cases executes_ok executes
          exact Account.enter_stage (by exact free) _ _
  | disable call =>
      refine gained_first orderly rfl rfl (paid _ rfl)
        (fun replied => orderly.1 rfl replied) (fun replied => ?_) gained
      have free : account.stage = none := orderly.1 rfl replied
      cases reply with
      | error error => cases replied
      | ok answer =>
          cases executes_ok executes
          exact Account.enter_stage (by exact free) _ _
  | upsertConfiguration | ownConfiguration | deleteCodes | deleteConfiguration =>
      cases reply with
      | error error => cases gained
      | ok answer =>
          cases executes_ok executes
          cases gained
          have here := paid _ rfl
          exact gained_later rfl here (Account.move_stage (by exact here) _)
  | insertCode call written codeId configId codeHash =>
      cases reply with
      | error error => cases gained
      | ok answer =>
          cases gained
          have here := paid _ rfl
          have success := executes_ok executes
          simp only [Statement.run] at success
          unfold Account.insertCode at success
          split at success
          · cases success
          split at success
          · cases success
          cases success
          exact gained_later rfl here (Account.move_stage (by exact here) _)
  | selectUser => cases reply <;> cases gained
  | selectConfiguration => cases reply <;> cases gained
  | consumeCode => cases reply <;> cases gained
  | countConsumed => cases reply <;> cases gained
  | respond => cases reply <;> cases gained

end Gained

end Keeps

/-! ## The programs -/

section Programs

variable {held : Set Token} {call : Nat}

/-- A call can pay for its response, and one that fails has not written. -/
def Settled (call : Nat) (held : Set Token) :
    Except AppError Response → Prop
  | .ok response =>
      ledger.pays (.respond call (some response)) ⊆ held
  | .error _ => .clean call ∈ held

variable {statement : Statement}

theorem pays_subset {token : Token}
    (price : statement.price = some token) (had : token ∈ held) :
    ledger.pays statement ⊆ held := by
  intro other paid
  have same : statement.price = some other := paid
  rw [price] at same
  cases same
  exact had

theorem pays_nothing (price : statement.price = none) :
    ledger.pays statement ⊆ held := by
  intro other paid
  have same : statement.price = some other := paid
  rw [price] at same
  cases same

theorem mem_gained {reply : statement.Reply}
    {token : Token} (gained : statement.yield reply = some token) :
    token ∈ ledger.holds held statement reply :=
  .inr gained

theorem mem_kept {reply : statement.Reply}
    {token : Token} (had : token ∈ held) (price : statement.price = none) :
    token ∈ ledger.holds held statement reply := by
  refine .inl ⟨had, fun paid => ?_⟩
  have same : statement.price = some token := paid
  rw [price] at same
  cases same

theorem persistRecoveryCodes_affords {configId : Text}
    (codes : List (Text × Text)) (written : List Text)
    (had : .reached call (.writing configId written) ∈ held) :
    (persistRecoveryCodes call configId codes written).Affords ledger
      (Settled call) held := by
  induction codes generalizing written held with
  | nil => exact pays_subset rfl had
  | cons entry rest ih =>
      rcases entry with ⟨codeId, codeHash⟩
      refine ⟨pays_subset rfl had, fun reply possible => ?_⟩
      cases reply with
      | error error => cases possible rfl
      | ok answer => exact ih _ (mem_gained rfl)

theorem enrollMfa_affords (encrypted : Option Text) (had : .clean call ∈ held) :
    (enrollMfa encrypted call).Affords ledger (Settled call) held := by
  cases encrypted with
  | none => exact had
  | some encrypted =>
      refine ⟨pays_subset rfl had, fun reply _ => ?_⟩
      cases reply with
      | error error =>
          show Token.clean call ∈ _
          exact mem_gained rfl
      | ok answer => exact pays_nothing rfl

theorem writeActivation_affords (verification : Verification)
    (configId : Text) (codes : List (Text × Text)) (had : .clean call ∈ held) :
    (writeActivation verification configId codes call).Affords ledger
      (Settled call) held := by
  refine ⟨pays_subset rfl had, fun reply _ => ?_⟩
  cases reply with
  | error error =>
      show Token.clean call ∈ _
      exact mem_gained rfl
  | ok answer =>
      refine ⟨pays_subset rfl (mem_gained rfl), fun reply possible => ?_⟩
      cases reply with
      | error error => cases possible rfl
      | ok answer => exact persistRecoveryCodes_affords codes [] (mem_gained rfl)

theorem activateMfa_affords (token : Option Text) (configId : Text)
    (codes : List (Text × Text)) (had : .clean call ∈ held) :
    (activateMfa token configId codes call).Affords ledger (Settled call)
      held := by
  cases token with
  | none => exact had
  | some token =>
      refine ⟨pays_nothing rfl, fun reply _ => ?_⟩
      have kept : Token.clean call ∈ ledger.holds held .selectUser reply :=
        mem_kept had rfl
      cases reply with
      | error error => exact kept
      | ok stored =>
          cases stored with
          | none => exact kept
          | some encrypted =>
              have verified : (Program.done (verifyToken encrypted token) :
                  Task Verification).Affords ledger
                    (fun held _ => Token.clean call ∈ held)
                    (ledger.holds held .selectUser
                      (.ok (some encrypted) : Except AppError _)) := kept
              exact verified.bind (fun _ _ clean => clean)
                fun _ verification clean =>
                  writeActivation_affords verification configId codes clean

theorem regenerateCodes_affords (codes : List (Text × Text))
    (had : .clean call ∈ held) :
    (regenerateCodes codes call).Affords ledger (Settled call) held := by
  refine ⟨pays_nothing rfl, fun reply _ => ?_⟩
  have kept : Token.clean call ∈ ledger.holds held .selectConfiguration reply :=
    mem_kept had rfl
  cases reply with
  | error error => exact kept
  | ok configuration =>
      cases configuration with
      | none => exact kept
      | some present =>
          refine ⟨pays_subset rfl kept, fun reply _ => ?_⟩
          cases reply with
          | error error =>
              show Token.clean call ∈ _
              exact mem_gained rfl
          | ok answer =>
              exact persistRecoveryCodes_affords codes [] (mem_gained rfl)

theorem disableMfa_affords (had : .clean call ∈ held) :
    (disableMfa call).Affords ledger (Settled call) held := by
  refine ⟨pays_subset rfl had, fun reply _ => ?_⟩
  cases reply with
  | error error =>
      show Token.clean call ∈ _
      exact mem_gained rfl
  | ok answer =>
      refine ⟨pays_subset rfl (mem_gained rfl), fun reply possible => ?_⟩
      cases reply with
      | error error => cases possible rfl
      | ok configuration =>
          cases configuration with
          | none =>
              exact pays_subset rfl (mem_gained rfl)
          | some present =>
              refine ⟨pays_subset rfl (mem_gained rfl),
                fun reply possible => ?_⟩
              cases reply with
              | error error => cases possible rfl
              | ok answer =>
                  refine ⟨pays_subset rfl (mem_gained rfl),
                    fun reply possible => ?_⟩
                  cases reply with
                  | error error => cases possible rfl
                  | ok answer =>
                      exact pays_subset rfl (mem_gained rfl)

theorem answering_affords {body : Nat → Task Response}
    (affords : ∀ {held : Set Token} {call : Nat}, .clean call ∈ held →
      (body call).Affords ledger (Settled call) held) :
    (answering body).Affords ledger (fun _ _ => True) held := by
  refine ⟨pays_nothing rfl, fun reply _ => ?_⟩
  cases reply with
  | error error => trivial
  | ok call =>
      have had : Token.clean call ∈
          ledger.holds held .begin (.ok call : Except AppError Nat) :=
        mem_gained rfl
      have handed : ((body call).attempt : Task (Except AppError Response)
          ).Affords ledger
            (fun held result => ∀ outcome, result = .ok outcome →
              Settled call held outcome)
            (ledger.holds held .begin (.ok call : Except AppError Nat)) := by
        apply (affords had).attempt
        intro held result settled outcome same
        cases same
        exact settled
      apply Program.Affords.bind handed
      · exact fun _ _ _ => trivial
      intro after result settled
      have reached := settled result rfl
      cases result with
      | ok response =>
          refine ⟨reached, fun reply _ => ?_⟩
          cases reply <;> trivial
      | error error =>
          refine ⟨pays_subset rfl reached, fun reply _ => ?_⟩
          cases reply <;> trivial

theorem tryConsumeRecoveryCode_affords (codeHash : Text) :
    (tryConsumeRecoveryCode codeHash).Affords ledger (fun _ _ => True) held := by
  refine ⟨pays_nothing rfl, fun reply _ => ?_⟩
  cases reply with
  | error error => trivial
  | ok configuration =>
      cases configuration with
      | none => trivial
      | some present =>
          refine ⟨pays_nothing rfl, fun reply => ?_⟩
          cases reply with
          | error error => exact fun _ => trivial
          | ok consumed =>
              revert consumed
              show ∀ consumed : Nat, _
              intro consumed _
              cases consumed with
              | zero => trivial
              | succ others =>
                  refine ⟨pays_nothing rfl, fun reply _ => ?_⟩
                  cases reply <;> trivial

end Programs

/-! ## Runs -/

theorem lawful : ledger.Lawful machine Orderly Account.Regular where
  operation := by
    intro operation
    cases operation with
    | enroll encrypted =>
        exact answering_affords fun had => enrollMfa_affords encrypted had
    | activate token configId codes =>
        exact answering_affords fun had =>
          activateMfa_affords token configId codes had
    | regenerate codes =>
        exact answering_affords fun had => regenerateCodes_affords codes had
    | disable => exact answering_affords disableMfa_affords
    | redeem codeHash =>
        exact (tryConsumeRecoveryCode_affords codeHash).bind
          (fun _ _ _ => trivial) fun _ _ _ => trivial
  possible := fun _ orderly _ _ => orderly.2.2
  kept := by
    intro account process statement reply after regular orderly executes paid
    rcases orderly.effect executes with rfl | ⟨answer, success, timely⟩
    · exact regular
    · exact regular.run success timely fun token price => paid token price
  stays := by
    intro account process statement reply after token regular orderly executes
      good unpaid
    rcases orderly.effect executes with rfl | ⟨answer, success, _⟩
    · exact good
    · exact Token.Good.run good success fun price => unpaid trivial price
  gained := by
    intro account process statement reply after token regular orderly executes
      paid gained
    have new := token_gained orderly executes regular
      (fun token price => paid token price) gained
    exact ⟨new.1, fun _ => new.2⟩
  time := fun _ regular => ⟨regular, fun _ good => good⟩

theorem fresh_regular : fresh.state.Regular where
  verified := fun enabled => by cases enabled
  owned := fun _ member => absurd member List.not_mem_nil
  reached := Account.leaves_nil rfl
  blameless := fun _ member => absurd member List.not_mem_nil
  numbered := by
    rintro call (member | member)
    · exact absurd member List.not_mem_nil
    · exact absurd member List.not_mem_nil

theorem fresh_sound : ∃ held, ledger.Sound Account.Regular fresh held :=
  ⟨fun _ => ∅, fresh_regular,
    fun _ token member => absurd member (Set.notMem_empty token),
    fun {_ _ token} _ member => absurd member (Set.notMem_empty token),
    fun _ _ running => by cases running⟩

/-- Whatever enrolls, activates, regenerates, disables and redeems in an
orderly run: an enabled factor has a verified secret; while no call is about to
show or withdraw codes, the unused ones are those last shown without the
consumed ones; and no call that was refused has written. -/
theorem mfa_lifecycle_consistent {config : Configuration}
    (run : machine.Run Orderly fresh config) :
    config.state.Verified ∧
      (config.state.stage = none →
        config.state.Leaves config.state.shown) ∧
      config.state.Blameless := by
  rcases lawful.run fresh_sound run with ⟨held, sound⟩
  refine ⟨sound.inv.verified, fun idle => ?_, sound.inv.blameless⟩
  have reached := sound.inv.reached
  rw [idle] at reached
  exact reached

end Consistency

/-! ## An enrolment of an enabled account -/

/-- Secrets stored as they are, with the token "000000" for each. -/
@[reducible]
def plainSecrets : MfaService where
  decryptSecret stored := some stored
  verifyTotp _ token := token = "000000"

section Schedules

attribute [local instance] plainSecrets

instance (account : Account) (configId : Text) :
    Decidable (account.Owns configId) :=
  decidable_of_iff (account.configuration.any fun present =>
    present.id = configId) (by
      rw [Option.any_eq_true]
      simp only [decide_eq_true_eq]
      rfl)

/-- Statements that succeed where they are timely. -/
def allows (account : Account) (statement : Statement) : Bool :=
  match statement with
  | .setSecret .. => !account.mfaEnabled
  | .enable _ verification =>
      account.stage = none &&
        (account.mfaSecret = some verification.stored &&
          account.configuration = none)
  | .resetCodes _ configId =>
      account.stage = none && decide (account.Owns configId)
  | .disable _ => account.stage = none
  | .insertCode call written codeId configId codeHash =>
      (account.insertCode call written codeId configId codeHash).isOk
  | _ => true

theorem timely_of_allows {account : Account} {statement : Statement}
    (allowed : allows account statement = true)
    (first : statement.first = true) : statement.Timely account := by
  cases statement with
  | setSecret | enable | resetCodes | disable =>
      simpa [allows, Statement.Timely] using allowed
  | _ => trivial

theorem ok_of_allows {account : Account} {statement : Statement}
    (allowed : allows account statement = true) :
    (statement.answer account).1.isOk = true := by
  cases statement with
  | insertCode call written codeId configId codeHash =>
      simp only [allows] at allowed
      unfold Statement.answer
      dsimp only [Statement.run]
      cases inserted : account.insertCode call written codeId configId
          codeHash with
      | error error =>
          rw [inserted] at allowed
          cases allowed
      | ok result => rfl
  | _ => rfl

theorem allows_admits : Admits machine allows Orderly where
  executed := by
    intro account process statement allowed
    have ok := ok_of_allows allowed
    refine ⟨fun first _ => timely_of_allows allowed first,
      fun _ failed => ?_, fun _ => ok⟩
    have answered : (statement.answer account).1.isOk = false := failed
    rw [ok] at answered
    cases answered
  called := trivial
  crashed := trivial
  elapsed := fun _ => trivial

/-- A factor is enrolled and activated, one code is redeemed, and the codes are
regenerated. -/
def regenerated : Configuration :=
  machine.schedule allows fresh
    [.call 0 (.enroll (some ("secret-1" : Text))), .advance 0 3,
      .call 1 (.activate (some ("000000" : Text)) "config-1"
        [("code-1", "hash-1"), ("code-2", "hash-2")]), .advance 1 7,
      .call 2 (.redeem "hash-1"), .advance 2 3,
      .call 3 (.regenerate [("code-3", "hash-3")]), .advance 3 5,
      .call 4 (.redeem "hash-3"), .advance 4 3]

theorem mfa_lifecycle_consistent_regenerated :
    regenerated.state.mfaEnabled = true ∧ regenerated.state.stage = none ∧
      regenerated.state.shown = [("hash-3" : Text)] ∧
      regenerated.state.consumed = [("hash-3" : Text)] ∧
      regenerated.state.Verified ∧ regenerated.state.Blameless := by
  have kept := mfa_lifecycle_consistent (allows_admits.schedule fresh
    [.call 0 (.enroll (some ("secret-1" : Text))), .advance 0 3,
      .call 1 (.activate (some ("000000" : Text)) "config-1"
        [("code-1", "hash-1"), ("code-2", "hash-2")]), .advance 1 7,
      .call 2 (.redeem "hash-1"), .advance 2 3,
      .call 3 (.regenerate [("code-3", "hash-3")]), .advance 3 5,
      .call 4 (.redeem "hash-3"), .advance 4 3])
  exact ⟨by decide, by decide, by decide,
    by decide, kept.1, kept.2.2⟩

/-- An enabled account is enrolled again. -/
def reenrolled : Configuration :=
  machine.schedule (fun _ _ => true) fresh
    [.call 0 (.enroll (some ("secret-1" : Text))), .advance 0 3,
      .call 1 (.activate (some ("000000" : Text)) "config-1" []), .advance 1 5,
      .call 2 (.enroll (some ("secret-2" : Text))), .advance 2 3]

/-- The factor stays enabled, with a secret that nobody has verified. -/
theorem reenrolled_unverified :
    ¬ ∀ config : Configuration, machine.Run anyStep fresh config →
      config.state.Verified ∧
        (config.state.stage = none →
          config.state.Leaves config.state.shown) ∧
        config.state.Blameless := by
  intro consistent
  have admits : Admits machine (fun _ _ => true) anyStep :=
    ⟨fun _ => trivial, trivial, trivial, fun _ => trivial⟩
  have enabled : reenrolled.state.mfaEnabled = true := by decide
  rcases (consistent reenrolled (admits.schedule fresh _)).1 enabled with
    ⟨verification, member, stored⟩
  have unverified : ∀ verification ∈ reenrolled.state.verified,
      reenrolled.state.mfaSecret ≠ some verification.stored := by
    decide
  exact unverified verification member stored

end Schedules

end FireCrow.Api.Mfa
