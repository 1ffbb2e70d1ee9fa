import FireCrow.Api.SecondFactors

/-!
# Redemptions

Every request pays for its sessions with what it has in hand, so in an
undisturbed run second factors are spent once.
-/

namespace FireCrow.Api.Auth

open FireCrow.Library
open FireCrow.Services

/-! ## The programs -/

section Programs

variable {settings : AuthSettings}

/-- The statement takes no token. -/
def Free (statement : Statement) : Prop := statement.pays = ∅

variable {held : Set Token} {statement : Statement} {reply : statement.Reply}

variable {token : Token}

theorem mem_free (free : statement.pays = ∅) (had : token ∈ held) :
    token ∈ (factorLedger settings).holds held statement reply := by
  refine .inl ⟨had, ?_⟩
  show token ∉ statement.pays
  rw [free]
  exact Set.notMem_empty token

theorem mem_gained (gained : token ∈ statement.gains settings reply) :
    token ∈ (factorLedger settings).holds held statement reply :=
  .inr gained

theorem free_subset (free : Free statement) : statement.pays ⊆ held := by
  rw [free]
  exact Set.empty_subset held

variable {Result : Type}

variable {program : Task Result}

theorem affords_free
    (asks : program.Asks Free) (tokens : Set Token) (had : tokens ⊆ held) :
    program.Affords (factorLedger settings) (fun held _ => tokens ⊆ held)
      held :=
  Program.Asks.affords asks tokens had

theorem affords_any (asks : program.Asks Free) (held : Set Token) :
    program.Affords (factorLedger settings) (fun _ _ => True) held :=
  (affords_free asks ∅ (Set.empty_subset held)).mono fun _ _ _ => trivial

/-- A statement of a program, with its reply and what is in hand after it. -/
theorem ask_affords (statement : Statement)
    (read : statement.Reply → Except AppError Result)
    (paid : statement.pays ⊆ held) :
    (Program.ask statement fun reply => .done (read reply)).Affords
      (factorLedger settings) (fun after result => ∃ reply,
        statement.Succeeds (HoldsCode held) reply ∧ result = read reply ∧
          after = (factorLedger settings).holds held statement reply) held :=
  ⟨paid, fun reply succeeds => ⟨reply, succeeds, rfl, rfl⟩⟩

theorem ignoringError_affords (statement : Sessions.Statement)
    {tokens : Set Token} (had : tokens ⊆ held) :
    (ignoringError statement).Affords (factorLedger settings)
      (fun held result => tokens ⊆ held ∧ result = .ok ()) held := by
  have handed : ((onStores (Sessions.query statement) none).attempt :
      Task (Except AppError _)).Affords (factorLedger settings)
        (fun held result => tokens ⊆ held ∧ result.isOk = true) held :=
    (affords_free (asks_onStores _ fun _ => rfl) tokens had).attempt
      fun _ _ kept => ⟨kept, rfl⟩
  refine handed.bind ?_ ?_
  · rintro _ _ ⟨_, absurd⟩
    cases absurd
  · exact fun _ _ kept => ⟨kept.1, rfl⟩

theorem retireChallenge_affords (claims : Sessions.TokenClaims)
    (held : Set Token) :
    (retireChallenge settings claims).Affords (factorLedger settings)
      (fun after result => held ⊆ after ∧ result = .ok ()) held := by
  have fails : ∀ {first : Set Token} {error : AppError},
      held ⊆ first ∧ (.error error : Except AppError Unit) = .ok () →
        held ⊆ first ∧ (.error error : Except AppError Unit) = .ok () := id
  unfold retireChallenge
  split
  · refine (ignoringError_affords _ (Set.Subset.refl held)).bind
      (fun _ _ => fails) fun first _ kept => ?_
    refine (ignoringError_affords _ kept.1).bind (fun _ _ => fails)
      fun second _ kept => ?_
    exact ignoringError_affords _ kept.1
  · exact ignoringError_affords _ (Set.Subset.refl held)

theorem free_recordLoginFailure (key : LockoutKey) (attempt : Nat) :
    (recordLoginFailure key attempt).Asks Free :=
  asks_recordLoginFailure rfl fun _ => rfl

/-- A redemption that ends with an error has its attempt in hand. -/
def Cleanly {Result : Type} (key : LockoutKey) (attempt : Nat)
    (held : Set Token) (result : Except AppError Result) : Prop :=
  key.Redeems → result.isOk = false → .clean attempt ∈ held

variable {attempt : Nat} {key : LockoutKey}

theorem closing_affords {body : Task Result}
    (affords : body.Affords (factorLedger settings) (Cleanly key attempt)
      held) :
    (closing key attempt body).Affords (factorLedger settings)
      (fun _ _ => True) held := by
  have handed : (body.attempt : Task (Except AppError Result)).Affords
      (factorLedger settings) (fun held handed => ∃ result,
        handed = .ok result ∧ Cleanly key attempt held result) held :=
    affords.attempt fun _ result cleanly => ⟨result, rfl, cleanly⟩
  refine handed.bind (fun _ _ _ => trivial) ?_
  rintro held result ⟨_, ⟨⟩, cleanly⟩
  refine ⟨?_, fun reply _ => ?_⟩
  · show (Statement.ended key attempt result.isOk).pays ⊆ held
    cases outcome : result.isOk with
    | true => exact free_subset rfl
    | false =>
        rintro token ⟨redeems, rfl⟩
        exact cleanly redeems outcome
  · exact trivial

theorem checkLoginLockout_affords (key : LockoutKey) (held : Set Token) :
    (checkLoginLockout settings key).Affords (factorLedger settings)
      (fun held result => ∀ checked, result = .ok checked →
        checked.1 = false → .clean checked.2 ∈ held ∧
          .belongs key checked.2 ∈ held) held := by
  refine ⟨Set.empty_subset _, fun reply _ => ?_⟩
  cases reply with
  | error error => exact fun _ absurd => by cases absurd
  | ok now =>
      refine ⟨Set.empty_subset _, fun reply _ => ?_⟩
      cases reply with
      | error error => exact fun _ absurd => by cases absurd
      | ok counted =>
          rintro checked same passes
          obtain rfl := Except.ok.inj same
          have below := not_le.1 (of_decide_eq_false passes)
          exact ⟨mem_gained ⟨below, .inl rfl⟩, mem_gained ⟨below, .inr rfl⟩⟩

theorem unlessLocked_affords {locked : AppError} {body : Nat → Task Result}
    (affords : ∀ attempt held, .clean attempt ∈ held →
      .belongs key attempt ∈ held →
        (body attempt).Affords (factorLedger settings) (Cleanly key attempt)
          held) :
    (unlessLocked settings key locked body).Affords (factorLedger settings)
      (fun _ _ => True) held := by
  refine (checkLoginLockout_affords key held).bind (fun _ _ _ => trivial) ?_
  intro held checked opened
  split
  · exact trivial
  · rename_i passes
    have both := opened checked rfl (Bool.eq_false_of_not_eq_true passes)
    exact closing_affords (affords checked.2 held both.1 both.2)

theorem refusal_affords (passed : Passed) (error : AppError)
    (held : Set Token) :
    (do recordFailures passed; .fail error : Task Unit).Affords
      (factorLedger settings) (fun _ _ => True) held := by
  apply affords_any
  exact Program.Asks.bind (asks_recordFailures passed rfl (fun _ => rfl)
    fun _ _ _ => rfl) fun _ => trivial

/-- A login mints a session only where there is no second factor. -/
theorem loginUnlocked_affords (request : LoginRequest) (normalized : Text)
    (passed : Passed) (held : Set Token) :
    (loginUnlocked request normalized passed).Affords (factorLedger settings)
      (fun _ _ => True) held := by
  refine (ask_affords (.findLogin normalized request.pick) (fun reply => reply)
    (free_subset rfl)).bind (fun _ _ _ => trivial) ?_
  rintro _ found ⟨_, _, rfl, rfl⟩
  cases found with
  | none => exact refusal_affords passed _ _
  | some user =>
      dsimp only
      split
      · exact refusal_affords passed _ _
      · refine (ask_affords (.verifyPassword request.password
          (user.passwordHash.getD []) passed.attempts) (fun reply => reply)
            (free_subset rfl)).bind (fun _ _ _ => trivial) ?_
        rintro _ right ⟨_, _, rfl, rfl⟩
        split
        · exact refusal_affords passed _ _
        · refine (affords_free (asks_clearFailures passed fun _ _ => rfl)
            {token | token = .single user.id ∧ user.mfaEnabled = false}
            fun token single => mem_free (by rfl) (.inr single)).bind
              (fun _ _ _ => trivial) ?_
          intro last _ single
          split
          · exact ⟨Set.empty_subset _, fun _ _ => trivial⟩
          · rename_i without
            refine ⟨?_, fun _ _ => trivial⟩
            rintro token rfl
            exact single ⟨rfl, Bool.eq_false_of_not_eq_true without⟩

theorem affords_of_cleanly (without : ¬ key.Redeems)
    (affords : program.Affords (factorLedger settings) (fun _ _ => True) held) :
    program.Affords (factorLedger settings) (Cleanly key attempt) held :=
  affords.mono fun _ _ _ redeems => absurd redeems without

theorem login_affords [UnicodeTables] (request : LoginRequest)
    (held : Set Token) :
    (login settings request).Affords (factorLedger settings) (fun _ _ => True)
      held := by
  unfold login
  apply unlessLocked_affords
  intro first held _ _
  apply affords_of_cleanly id
  cases request.ipKey with
  | none => exact loginUnlocked_affords request _ _ held
  | some clientIp =>
      apply unlessLocked_affords
      intro second held _ _
      exact affords_of_cleanly id (loginUnlocked_affords request _ _ held)

/-- An exchange code mints a session only where there is no second factor. -/
theorem exchangeToken_affords (code : Text) (held : Set Token) :
    (exchangeToken settings code).Affords (factorLedger settings)
      (fun _ _ => True) held := by
  have consumes : (verifyAndConsumeExchangeCode settings code).Asks Free := by
    refine Program.Asks.bind (asks_one rfl) fun record => ?_
    cases record with
    | none => trivial
    | some record =>
        simp only [decryptedOwner]
        split
        · trivial
        · trivial
  refine (affords_any consumes held).bind (fun _ _ _ => trivial) ?_
  intro held consumed _
  cases consumed with
  | none => exact trivial
  | some userId =>
      refine (ask_affords (.findUser userId) (fun reply => reply)
        (free_subset rfl)).bind (fun _ _ _ => trivial) ?_
      rintro _ found ⟨_, _, rfl, rfl⟩
      split
      · exact ⟨Set.empty_subset _, fun _ _ => trivial⟩
      · rename_i without
        refine ⟨?_, fun _ _ => trivial⟩
        rintro token rfl
        exact mem_gained ⟨rfl, Bool.eq_false_of_not_eq_true without⟩

variable [TextDigest]

/-- A code that is consumed is in hand; otherwise the attempt still is. -/
theorem tryConsumeRecoveryCode_affords {userId code : Text}
    (clean : .clean attempt ∈ held) (belongs : .belongs key attempt ∈ held) :
    (tryConsumeRecoveryCode userId code key attempt).Affords
      (factorLedger settings) (fun held result =>
        Cleanly key attempt held result ∧ .belongs key attempt ∈ held ∧
        (result = .ok none → .clean attempt ∈ held) ∧
        ∀ factor, result = .ok (some factor) →
          .verified ⟨attempt, factor⟩ ∈ held ∧ factor.tokens ⊆ held ∧
            factor.IsCode) held := by
  refine (ask_affords (.findMfaConfiguration userId) (fun reply => reply)
    (free_subset rfl)).bind ?_ ?_
  · rintro _ error ⟨reply, _, _, rfl⟩
    exact ⟨fun _ _ => mem_free (by rfl) clean, mem_free (by rfl) belongs,
      fun _ => mem_free (by rfl) clean, fun _ absurd => by cases absurd⟩
  rintro _ config ⟨_, _, rfl, rfl⟩
  cases config with
  | none =>
      exact ⟨fun _ absurd => (by cases absurd), mem_free (by rfl) belongs,
        fun _ => mem_free (by rfl) clean, fun _ absurd => by cases absurd⟩
  | some config =>
      have paid : (Statement.consumeRecoveryCode config.id
          (hashRecoveryCode code) key attempt).pays ⊆
            (factorLedger settings).holds held (.findMfaConfiguration userId)
              (.ok (some config)) := by
        rintro token rfl
        exact mem_free (by rfl) clean
      have kept : ∀ reply, .belongs key attempt ∈
          (factorLedger settings).holds ((factorLedger settings).holds held
            (.findMfaConfiguration userId) (.ok (some config)))
            (.consumeRecoveryCode config.id (hashRecoveryCode code) key
              attempt) reply :=
        fun reply => .inl ⟨mem_free (by rfl) belongs, fun other => by cases other⟩
      refine (ask_affords (.consumeRecoveryCode config.id
        (hashRecoveryCode code) key attempt) (fun reply => reply) paid).bind
          ?_ ?_
      · rintro _ error ⟨_, _, rfl, rfl⟩
        exact ⟨fun redeems _ => mem_gained ⟨redeems, rfl⟩, kept _,
          fun absurd => (by cases absurd), fun _ absurd => by cases absurd⟩
      rintro _ consumed ⟨_, _, rfl, rfl⟩
      cases consumed with
      | zero =>
          exact ⟨fun _ absurd => (by cases absurd), kept _,
            fun _ => mem_gained rfl, fun _ absurd => by cases absurd⟩
      | succ others =>
          refine (ask_affords (.countConsumed config.id key attempt)
            (fun reply => reply) (free_subset rfl)).bind ?_ ?_
          · rintro _ error ⟨_, succeeds, rfl, rfl⟩
            refine ⟨fun redeems _ => ?_, mem_free (by rfl) (kept _),
              fun absurd => (by cases absurd), fun _ absurd => by cases absurd⟩
            have counted := succeeds redeems
              ⟨config.id, hashRecoveryCode code, mem_gained (.inr rfl)⟩
            cases counted
          · rintro _ _ ⟨_, _, _, rfl⟩
            refine ⟨fun _ absurd => (by cases absurd), mem_free (by rfl) (kept _),
              fun absurd => (by cases absurd), ?_⟩
            rintro factor same
            obtain rfl := Option.some.inj (Except.ok.inj same)
            refine ⟨mem_free (by rfl) (mem_gained (.inr rfl)), ?_, trivial⟩
            rintro token rfl
            exact mem_free (by rfl) (mem_gained (.inl rfl))

/-- The factor that an attempt has verified, with what it has in hand. -/
structure InHand (key : LockoutKey) (attempt : Nat) (factor : Factor)
    (held : Set Token) : Prop where
  verified : .verified ⟨attempt, factor⟩ ∈ held
  belongs : .belongs key attempt ∈ held
  tokens : factor.tokens ⊆ held
  clean : ¬ factor.IsCode → .clean attempt ∈ held

variable {factor : Factor}

omit [TextDigest] in
theorem InHand.free
    (inHand : InHand key attempt factor held)
    (free : statement.pays = ∅) :
    InHand key attempt factor
      ((factorLedger settings).holds held statement reply) where
  verified := mem_free free inHand.verified
  belongs := mem_free free inHand.belongs
  tokens _ member := mem_free free (inHand.tokens member)
  clean totp := mem_free free (inHand.clean totp)

omit [TextDigest] in
theorem InHand.subset
    {after : Set Token} (inHand : InHand key attempt factor held)
    (kept : held ⊆ after) : InHand key attempt factor after where
  verified := kept inHand.verified
  belongs := kept inHand.belongs
  tokens _ member := kept (inHand.tokens member)
  clean totp := kept (inHand.clean totp)

omit [TextDigest] in
theorem InHand.code (inHand : InHand key attempt factor held)
    (code : factor.IsCode) : HoldsCode held attempt := by
  cases factor with
  | totp => exact code.elim
  | recoveryCode configId codeHash =>
      exact ⟨configId, codeHash, inHand.verified⟩

variable {user : User}

omit [TextDigest] in
theorem verifyTotp_affords {code : Text}
    (clean : .clean attempt ∈ held) (belongs : .belongs key attempt ∈ held) :
    (verifyTotp settings user code attempt).Affords (factorLedger settings)
      (fun held result => .clean attempt ∈ held ∧
        .belongs key attempt ∈ held ∧
        (result = .ok true → .verified ⟨attempt, .totp⟩ ∈ held)) held := by
  unfold verifyTotp
  split
  · exact ⟨clean, belongs, fun absurd => by cases absurd⟩
  · rename_i secret _
    refine (ask_affords (.verifyTotp secret code attempt) (fun reply => reply)
      ?_).mono ?_
    · rintro token rfl
      exact clean
    · rintro _ result ⟨_, _, rfl, rfl⟩
      have kept : .belongs key attempt ∈ (factorLedger settings).holds held
          (.verifyTotp secret code attempt) result :=
        .inl ⟨belongs, fun other => by cases other⟩
      cases result with
      | error error =>
          exact ⟨mem_gained rfl, kept, fun absurd => by cases absurd⟩
      | ok right =>
          cases right with
          | false => exact ⟨mem_gained rfl, kept, fun absurd => by cases absurd⟩
          | true =>
              exact ⟨mem_gained (.inl rfl), kept,
                fun _ => mem_gained (.inr rfl)⟩

/-- A verified factor is in hand; otherwise the attempt still is. -/
theorem secondFactor_affords {code : Text} (clean : .clean attempt ∈ held)
    (belongs : .belongs (.mfaLogin user.id) attempt ∈ held) :
    (secondFactor settings user code attempt).Affords (factorLedger settings)
      (fun held result => Cleanly (.mfaLogin user.id) attempt held result ∧
        (result = .ok none → .clean attempt ∈ held) ∧
        ∀ factor, result = .ok (some factor) →
          InHand (.mfaLogin user.id) attempt factor held) held := by
  refine (verifyTotp_affords clean belongs).bind ?_ ?_
  · rintro held error ⟨clean, belongs, _⟩
    exact ⟨fun _ _ => clean, fun absurd => (by cases absurd),
      fun _ absurd => by cases absurd⟩
  · rintro held totpOk ⟨clean, belongs, verified⟩
    cases totpOk with
    | true =>
        refine ⟨fun _ absurd => (by cases absurd), fun absurd => (by cases absurd),
          ?_⟩
        rintro factor same
        obtain rfl := Option.some.inj (Except.ok.inj same)
        exact ⟨verified rfl, belongs, Set.empty_subset _, fun _ => clean⟩
    | false =>
        refine (tryConsumeRecoveryCode_affords clean belongs).mono ?_
        rintro held result ⟨cleanly, belongs, none, some⟩
        refine ⟨cleanly, none, fun factor same => ?_⟩
        have inHand := some factor same
        exact ⟨inHand.1, belongs, inHand.2.1, fun totp =>
          absurd inHand.2.2 totp⟩

variable {claims : Sessions.TokenClaims}

omit [TextDigest] in
theorem claimed_inHand {reply : Except Sessions.AppError Bool}
    (inHand : InHand key attempt factor held)
    (succeeds : factor.IsCode → Granted reply)
    (gained : .challenge claims.jti ∈ claimed claims reply →
      .challenge claims.jti ∈ held) :
    InHand key attempt factor held ∧
      (factor.IsCode → reply.mapError AppError.token = .ok true) ∧
      (reply.mapError AppError.token = .ok true →
        .challenge claims.jti ∈ held) := by
  cases reply with
  | error error =>
      exact ⟨inHand, fun code => (succeeds code).elim,
        fun absurd => by cases absurd⟩
  | ok granted =>
      cases granted with
      | false =>
          exact ⟨inHand, fun code => (succeeds code).elim,
            fun absurd => by cases absurd⟩
      | true => exact ⟨inHand, fun _ => rfl, fun _ => gained rfl⟩

omit [TextDigest] in
theorem consumeJtiOnce_cases (sessions : Sessions.SessionSettings)
    (claims : Sessions.TokenClaims) (ttlSeconds : Int) :
    (Sessions.consumeJtiOnce sessions claims ttlSeconds =
      .ask (.consumeInRedis claims ttlSeconds) .done) ∨
    Sessions.consumeJtiOnce sessions claims ttlSeconds =
      .ask (.consumeInDb claims ttlSeconds) .done := by
  by_cases redis : sessions.redis = true
  · exact .inl (if_pos redis)
  · exact .inr (if_neg redis)

omit [TextDigest] in
theorem claim_affords {ttlSeconds : Int}
    (inHand : InHand key attempt factor held) :
    (onStores (Sessions.consumeJtiOnce settings.sessions claims ttlSeconds)
      (some attempt)).Affords (factorLedger settings)
        (fun held result => InHand key attempt factor held ∧
          (factor.IsCode → result = .ok true) ∧
          (result = .ok true → .challenge claims.jti ∈ held)) held := by
  rcases consumeJtiOnce_cases settings.sessions claims ttlSeconds with
    same | same
  · rw [same]
    refine ⟨Set.empty_subset _, fun reply succeeds => ?_⟩
    exact claimed_inHand (inHand.free rfl)
      (fun code => succeeds (inHand.code code)) fun granted => mem_gained granted
  · rw [same]
    refine ⟨Set.empty_subset _, fun reply succeeds => ?_⟩
    exact claimed_inHand (inHand.free rfl)
      (fun code => succeeds (inHand.code code)) fun granted => mem_gained granted

theorem redeemChallenge_affords {code : Text} (clean : .clean attempt ∈ held)
    (belongs : .belongs (.mfaLogin user.id) attempt ∈ held) :
    (redeemChallenge settings claims user code attempt).Affords
      (factorLedger settings) (Cleanly (.mfaLogin user.id) attempt) held := by
  refine (secondFactor_affords clean belongs).bind
    (fun _ _ ensured => fun redeems _ => ensured.1 redeems rfl) ?_
  rintro held factor ⟨_, none, some⟩
  cases factor with
  | none =>
      have recorded : ((recordLoginFailure (.mfaLogin user.id)
          attempt).attempt : Task (Except AppError Unit)).Asks Free :=
        (free_recordLoginFailure _ _).attempt
      refine (affords_free recorded {.clean attempt} ?_).bind ?_ ?_
      · rintro token rfl
        exact none rfl
      · exact fun _ _ kept _ _ => kept rfl
      · exact fun _ _ kept _ _ => kept rfl
  | some factor =>
      have inHand := some factor rfl
      refine (ask_affords (.clearFailures (.mfaLogin user.id) attempt)
        (fun reply => reply) (free_subset rfl)).bind ?_ ?_
      · rintro _ error ⟨_, succeeds, rfl, rfl⟩ _ _
        apply mem_free (by rfl)
        apply inHand.clean
        intro code
        cases succeeds trivial (inHand.code code)
      rintro _ _ ⟨_, _, _, rfl⟩
      refine (claim_affords (inHand.free rfl)).bind ?_ ?_
      · rintro held error ⟨inHand, granted, _⟩ _ _
        apply inHand.clean
        intro code
        cases granted code
      rintro held claimed ⟨inHand, granted, challenge⟩
      cases claimed with
      | false =>
          intro _ _
          apply inHand.clean
          intro code
          cases granted code
      | true =>
          refine (retireChallenge_affords claims held).bind ?_ ?_
          · rintro _ _ ⟨_, absurd⟩
            cases absurd
          rintro last _ ⟨kept, _⟩
          have ready := inHand.subset kept
          refine (ask_affords (.mintSession user.id Option.none
            (Option.some ⟨attempt, claims.jti, factor⟩)) (fun reply => reply)
              ?_).mono ?_
          · rintro token ((rfl | rfl | rfl) | member)
            · exact kept (challenge rfl)
            · exact ready.verified
            · exact ready.belongs
            · exact ready.tokens member
          · rintro _ result ⟨_, succeeds, rfl, rfl⟩ _ failed
            have totp : ¬ factor.IsCode := by
              intro code
              rw [succeeds (ready.code code)] at failed
              cases failed
            refine .inl ⟨ready.clean totp, ?_⟩
            rintro ((other | other | other) | member)
            · cases other
            · cases other
            · cases other
            · cases factor with
              | totp => exact member
              | recoveryCode configId codeHash => exact totp trivial

theorem redeemAs_affords (claims : Sessions.TokenClaims) (code : Text)
    (found : Option User) (held : Set Token) :
    (redeemAs settings claims code found).Affords (factorLedger settings)
      (fun _ _ => True) held := by
  cases found with
  | none => exact trivial
  | some user =>
      simp only [redeemAs]
      split
      · exact trivial
      · split
        · exact trivial
        · apply unlessLocked_affords
          exact fun attempt held clean belongs =>
            redeemChallenge_affords clean belongs

theorem loginMfa_affords (challenge : Bearer) (code : Text) (held : Set Token) :
    (loginMfa settings challenge code).Affords (factorLedger settings)
      (fun _ _ => True) held := by
  refine (affords_any (asks_onStores _ fun _ => rfl) held).bind (fun _ _ _ => trivial) ?_
  intro first _ _
  cases Sessions.requireTokenType challenge.claims .mfachallenge with
  | error error => exact trivial
  | ok _ =>
      refine ⟨Set.empty_subset _, fun reply _ => ?_⟩
      cases reply with
      | error error => exact trivial
      | ok found => exact redeemAs_affords challenge.claims code found _

theorem guessRecoveryCode_affords {userId code : Text}
    (clean : .clean attempt ∈ held)
    (belongs : .belongs (.mfaRecovery userId) attempt ∈ held) :
    (guessRecoveryCode userId code attempt).Affords (factorLedger settings)
      (fun _ _ => True) held := by
  refine (ask_affords (.findMfaConfiguration userId) (fun reply => reply)
    (free_subset rfl)).bind (fun _ _ _ => trivial) ?_
  rintro _ config ⟨_, _, rfl, rfl⟩
  cases config with
  | none => exact trivial
  | some config =>
      refine (ask_affords (.countUnused config.id) (fun reply => reply)
        (free_subset rfl)).bind (fun _ _ _ => trivial) ?_
      rintro _ unused ⟨_, _, rfl, rfl⟩
      cases unused with
      | zero => exact trivial
      | succ others =>
          refine (tryConsumeRecoveryCode_affords
            (mem_free (by rfl) (mem_free (by rfl) clean))
            (mem_free (by rfl) (mem_free (by rfl) belongs))).bind
              (fun _ _ _ => trivial) ?_
          intro last consumed _
          cases consumed with
          | some _ => exact ⟨Set.empty_subset _, fun _ _ => trivial⟩
          | none =>
              have recorded : ((recordLoginFailure (.mfaRecovery userId)
                  attempt).attempt : Task (Except AppError Unit)).Asks Free :=
                (free_recordLoginFailure _ _).attempt
              exact (affords_any recorded last).bind (fun _ _ _ => trivial)
                fun _ _ _ => trivial

theorem useRecoveryCode_affords (token : Bearer) (code : Text)
    (held : Set Token) :
    (useRecoveryCode settings token code).Affords (factorLedger settings)
      (fun _ _ => True) held := by
  refine (affords_any (asks_authenticatedUser token (fun _ => rfl) rfl rfl) held).bind
    (fun _ _ _ => trivial) ?_
  intro held userId _
  apply unlessLocked_affords
  intro attempt held clean belongs
  exact affords_of_cleanly id (guessRecoveryCode_affords clean belongs)

theorem operation_affords [UnicodeTables] (operation : Operation)
    (held : Set Token) :
    (operation.program settings).Affords (factorLedger settings)
      (fun _ _ => True) held := by
  cases operation with
  | login request => exact login_affords request held
  | loginMfa challenge code => exact loginMfa_affords challenge code held
  | exchangeToken code => exact exchangeToken_affords code held
  | refreshToken token => exact affords_any (asks_refreshToken token (fun _ => rfl) rfl) held
  | authenticated token =>
      apply affords_any
      exact Program.Asks.bind (asks_authenticatedUser token (fun _ => rfl) rfl rfl) fun _ => trivial
  | deleteUser token =>
      apply affords_any
      refine Program.Asks.bind (asks_authenticatedUser token (fun _ => rfl) rfl rfl) fun _ => ?_
      exact ⟨rfl, fun _ => trivial⟩
  | useRecoveryCode token code => exact useRecoveryCode_affords token code held
  | processDeletions lifecycle =>
      exact affords_any (asks_onAccounts _ fun _ => rfl) held

/-! ## Runs -/

omit [TextDigest] in
theorem Statement.Succeeds.mono {redeemed holds : Nat → Prop}
    (implies : ∀ attempt, holds attempt → redeemed attempt)
    (succeeds : statement.Succeeds redeemed reply) :
    statement.Succeeds holds reply := by
  cases statement with
  | countConsumed configId key attempt | clearFailures key attempt =>
      exact fun redeems held => succeeds redeems (implies attempt held)
  | session statement redeems =>
      cases redeems with
      | none => exact trivial
      | some attempt => exact fun held => succeeds (implies attempt held)
  | mintSession userId rotates payment =>
      cases payment with
      | none => exact trivial
      | some payment => exact fun held => succeeds (implies payment.attempt held)
  | _ => exact trivial

variable {state : AuthState}

omit [TextDigest] in
theorem redeemed_of_holds
    (good : ∀ token ∈ held, token.Good state) (attempt : Nat)
    (holds : HoldsCode held attempt) : Redeemed state attempt := by
  obtain ⟨configId, codeHash, member⟩ := holds
  exact ⟨_, good _ member, rfl, trivial⟩

variable [UnicodeTables]

theorem gained_good {after : AuthState} {process : Nat}
    (spending : Spending state)
    (undisturbed : Undisturbed state (.executed process statement reply) after)
    (executes : (machine settings).Executes state statement reply after)
    (paid : ∀ token ∈ statement.pays, token.Good state)
    (gained : token ∈ statement.gains settings reply) :
    token.Good after ∧ (token.Exclusive → token.Good state →
      token ∈ statement.pays) := by
  obtain ⟨remembers, arrives, _⟩ := undisturbed
  cases statement with
  | session statement redeems =>
      exact session_gained spending executes remembers gained
  | countFailures key windowStart => exact check_gained spending executes gained
  | findLogin normalized pick =>
      cases reply with
      | error error => cases gained
      | ok found =>
          cases found with
          | none => cases gained
          | some user =>
              obtain ⟨rfl, single⟩ := gained
              refine ⟨?_, fun exclusive => exclusive.elim⟩
              rcases executes.reply_cases with answered | failed
              · have found : state.tables.findLogin settings normalized pick =
                    some user := Except.ok.inj (congrArg Prod.fst answered)
                have same : state = after := congrArg Prod.snd answered
                subst same
                exact findLogin_single found single
              · cases failed
  | findUser userId =>
      cases reply with
      | error error => cases gained
      | ok found =>
          obtain ⟨rfl, single⟩ := gained
          refine ⟨?_, fun exclusive => exclusive.elim⟩
          rcases executes.reply_cases with answered | failed
          · have found : state.tables.findUser userId = found :=
              Except.ok.inj (congrArg Prod.fst answered)
            have same : state = after := congrArg Prod.snd answered
            subst same
            subst found
            exact findUser_single single
          · cases failed
  | verifyTotp secret code attempt =>
      exact totp_gained executes (paid _ rfl) gained
  | consumeRecoveryCode configId codeHash key attempt =>
      exact code_gained spending executes arrives (paid _ rfl) gained
  | _ => cases gained

theorem factorLedger_lawful :
    (factorLedger settings).Lawful (machine settings) Undisturbed Spending where
  operation operation := operation_affords operation ∅
  possible := by
    intro state process statement reply after held _ undisturbed _ good
    exact undisturbed.2.2.mono (redeemed_of_holds good)
  kept := by
    intro state process statement reply after spending _ executes paid
    rcases executes.after_cases with rfl | rfl
    · exact spending
    · exact spending_answer spending paid
  stays := by
    intro state process statement reply after token _ _ executes good unpaid
    rcases executes.after_cases with rfl | rfl
    · exact good
    · exact good_answer good unpaid
  gained := by
    intro state process statement reply after token spending undisturbed
      executes paid gained
    exact gained_good spending undisturbed executes paid gained
  time := by
    intro state duration spending
    exact ⟨⟨⟨spending.spent.paid, spending.spent.challenge,
      spending.spent.recoveryCode, spending.spent.refused⟩,
      spending.challengeConsumed, spending.codeVerified, spending.codeUsed,
      spending.opened, spending.openedRefusal⟩, fun token good => by
        cases token <;> exact good⟩

/-- In an undisturbed run, sessions of accounts with a second factor are paid
with one, no challenge and no recovery code pays twice, and no redemption that
fails has consumed a recovery code. -/
theorem second_factors_spent_once
    {before after : Config AuthState Statement Statement.Reply AppError}
    (idle : ∀ process, before.processes process = none)
    (minted : before.state.record.minted = [])
    (verified : before.state.record.verified = [])
    (refused : before.state.record.refused = [])
    (run : (machine settings).Run Undisturbed before after) :
    SpentOnce after.state := by
  have sound : (factorLedger settings).Sound Spending before fun _ => ∅ :=
    ⟨spending_fresh minted verified refused,
      fun _ _ absurd => absurd.elim, fun _ absurd => absurd.elim,
      fun process program running => by
        rw [idle process] at running
        cases running⟩
  obtain ⟨held, last⟩ := factorLedger_lawful.run ⟨_, sound⟩ run
  exact last.inv.spent

/-- An answered statement is undisturbed, unless it is a claim that the store
has forgotten, or one that a redemption with a consumed code has lost. -/
def answersClaim (settings : AuthSettings) (state : AuthState) :
    Statement → Bool
  | .session statement redeems =>
      decide (Remembers state.tables.stores statement) &&
        redeems.all fun attempt => !decide (Redeemed state attempt) ||
          decide (storesSucceed statement
            (statement.answer settings.sessions state.tables.stores).1)
  | _ => true

theorem undisturbed_of_answers {process : Nat}
    (answers : answersClaim settings state statement) :
    Undisturbed state
      (.executed process statement ((machine settings).answer state statement).1)
      ((machine settings).answer state statement).2 := by
  cases statement with
  | session statement redeems =>
      simp only [answersClaim, Bool.and_eq_true, decide_eq_true_eq] at answers
      refine ⟨answers.1, trivial, ?_⟩
      cases redeems with
      | none => exact trivial
      | some attempt =>
          intro redeemed
          have granted : storesSucceed statement (statement.answer
              settings.sessions state.tables.stores).1 := by
            simpa [redeemed] using answers.2
          exact granted
  | consumeRecoveryCode configId codeHash key attempt =>
      exact ⟨trivial, fun _ absurd => (by cases absurd), trivial⟩
  | countConsumed configId key attempt =>
      exact ⟨trivial, trivial, fun _ _ => rfl⟩
  | clearFailures key attempt => exact ⟨trivial, trivial, fun _ _ => rfl⟩
  | mintSession userId rotates payment =>
      cases payment with
      | none => exact ⟨trivial, trivial, trivial⟩
      | some payment => exact ⟨trivial, trivial, fun _ => rfl⟩
  | _ => exact ⟨trivial, trivial, trivial⟩

theorem answers_admits : Admits (machine settings) (answersClaim settings)
    Undisturbed where
  executed allowed := undisturbed_of_answers allowed
  called := trivial
  crashed := trivial
  elapsed _ := trivial

end Programs

section Bob

attribute [local instance] TextDigest.sha256 UnicodeTables.ascii

/-- A user with a second factor and two recovery codes. -/
def bobAway : Config AuthState Statement Statement.Reply AppError where
  state :=
    { tables := { aliceTables with
        columns := fun _ =>
          { passwordHash := some "correct horse"
            isActive := true
            mfaEnabled := true
            mfaSecret := none }
        mfaConfigurations := [⟨"mfa-1", "user-1", 0⟩]
        recoveryCodes :=
          [⟨"mfa-1", hashRecoveryCode "code-a", none⟩,
            ⟨"mfa-1", hashRecoveryCode "code-b", none⟩] }
      record := ⟨[], [], [], [], []⟩ }
  processes _ := none

def bobChallenge : Bearer where
  claims :=
    { jti := 1
      tokenFamily := 0
      tokenType := .mfachallenge
      exp := 300
      nbf := -5 }
  sub := "user-1"

/-- A login and the redemption of its challenge. -/
def bobLoggedIn : Config AuthState Statement Statement.Reply AppError :=
  (machine aliceSettings).schedule (answersClaim aliceSettings) bobAway
    [.call 0 (.login aliceLogin), .advance 0 20,
      .call 1 (.loginMfa bobChallenge "code-a"), .advance 1 30]

theorem second_factors_spent_once_bobLoggedIn :
    SpentOnce bobLoggedIn.state ∧
      bobLoggedIn.state.record.minted =
        [.challenge "user-1", .session "user-1" none (some ⟨1, 1,
          .recoveryCode "mfa-1" (hashRecoveryCode "code-a")⟩)] := by
  have run : (machine aliceSettings).Run Undisturbed bobAway bobLoggedIn :=
    answers_admits.schedule bobAway _
  constructor
  · exact second_factors_spent_once (fun _ => rfl) rfl rfl rfl run
  · decide +kernel

/-- Two redemptions of one challenge with different codes, both of which have
found it unclaimed. -/
def bobTwice : Config AuthState Statement Statement.Reply AppError :=
  (machine aliceSettings).schedule (fun _ _ => true) bobAway
    [.call 0 (.login aliceLogin), .advance 0 20,
      .call 1 (.loginMfa bobChallenge "code-a"),
      .call 2 (.loginMfa bobChallenge "code-b"),
      .advance 2 5, .advance 1 30, .advance 2 30]

/-- The redemption that comes too late has consumed its recovery code. -/
theorem late_redemption_wastes_code :
    ¬ ∀ (settings : AuthSettings)
      (before after : Config AuthState Statement Statement.Reply AppError),
      (∀ process, before.processes process = none) →
        before.state.record.minted = [] →
        before.state.record.verified = [] →
        before.state.record.refused = [] →
          (machine settings).Run anyStep before after →
            SpentOnce after.state := by
  intro claim
  have admits : Admits (machine aliceSettings) (fun _ _ => true) anyStep :=
    { executed := fun _ => trivial
      called := trivial
      crashed := trivial
      elapsed := fun _ => trivial }
  have spent := claim aliceSettings bobAway bobTwice (fun _ => rfl) rfl rfl rfl
    (admits.schedule bobAway _)
  have refused : (⟨.mfaLogin "user-1", 1⟩ : Refusal) ∈
      bobTwice.state.record.refused := by
    decide +kernel
  have verified : (⟨1, .recoveryCode "mfa-1" (hashRecoveryCode "code-b")⟩ :
      Verification) ∈ bobTwice.state.record.verified := by
    decide +kernel
  exact spent.refused _ refused trivial _ verified rfl trivial

end Bob

end FireCrow.Api.Auth
