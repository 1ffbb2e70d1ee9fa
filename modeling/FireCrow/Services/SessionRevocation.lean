import FireCrow.Services.SessionInvariants

/-!
# Revocation

A validation reads the stores after it has begun, so that it finds what was
revoked before; a refresh that passes its liveness check after a logout has
written finds the row of the logout.  What remains are the races of a logout
with a refresh, and stores that do not keep what they are told.
-/

namespace FireCrow.Services.Sessions

open FireCrow.Library

/-! ## The discipline -/

/-- What a request must know before a statement. -/
def Statement.Required (settings : SessionSettings) (stores : Stores) :
    Statement → Prop
  | .consumeInRedis claims ttlSeconds => settings.redis = true ∧
      claims ∈ stores.tokens ∧ claims.tokenType = .refresh ∧
      claims.exp ≤ stores.now + ttlSeconds
  | .consumeInDb claims ttlSeconds => settings.redis = false ∧
      claims ∈ stores.tokens ∧ claims.tokenType = .refresh ∧
      claims.exp ≤ stores.now + ttlSeconds
  | .revokeTokenJti claims _ =>
      claims ∈ stores.tokens ∧ claims.tokenType = .access
  | .revokeTokenFamily _ ttlSeconds => ttlSeconds = familyTtl
  | .revokeTokenInDb claims ttlSeconds leaving => ttlSeconds = familyTtl ∧
      claims ∈ stores.tokens ∧ ∀ since ∈ leaving,
        claims.tokenType = .access ∧ since ≤ stores.happened.length
  | .issueTokens rotates => ∀ rotation ∈ rotates,
      rotation.1 ∈ stores.tokens ∧ stores.Revoked rotation.1.jti ∧
        (settings.redis = true →
          stores.RedisHolds rotation.1.tokenFamily) ∧
        ∀ since, .left rotation.1.tokenFamily since ∉
          stores.happened.take rotation.2
  | .accept claims since => since ≤ stores.happened.length ∧
      (stores.now ≤ claims.exp + leeway →
        stores.Alive claims.tokenFamily since)
  | .logOut claims since =>
      .left claims.tokenFamily since ∈ stores.happened ∧
        (settings.redis = true → stores.RedisHolds claims.tokenFamily)
  | _ => True

/-- What a request sees of a statement. -/
structure Executed (settings : SessionSettings) (stores : Stores)
    (statement : Statement) (reply : statement.Reply) (after : Stores) :
    Prop where
  regular : stores.Regular settings
  executes : (machine settings).Executes stores statement reply after
  stored : statement.Stored stores after
  timely : after ≠ stores → statement.Timely stores

def discipline (settings : SessionSettings) :
    Discipline Stores Statement Statement.Reply where
  executes := Executed settings
  rely := Stores.Precedes
  requires := fun stores statement => statement.Required settings stores
  rely_refl := Stores.Precedes.refl
  rely_trans := Stores.Precedes.trans

theorem machine_runs (settings : SessionSettings) :
    (machine settings).Runs fun stores statement =>
      statement.run settings stores where
  answered := by
    intro stores statement answer after success
    show Statement.answer settings stores statement = _
    rw [Statement.answer, success]
  refused := by
    intro stores statement error failure
    show Statement.answer settings stores statement = _
    rw [Statement.answer, failure]
  failed := fun statement => ⟨_, rfl⟩

section Steps

variable {settings : SessionSettings} {stores after : Stores}

theorem exists?_eq_true {keys : List RedisKey} {now : Timestamp} {name : Nat} :
    Stores.exists? keys now name = true ↔
      ∃ key ∈ keys, key.name = name ∧ now < key.expiresAt := by
  simp [Stores.exists?]

theorem mem_setEx {keys : List RedisKey} {name : Nat} {expiresAt : Timestamp}
    {key : RedisKey} (member : key ∈ keys) (other : key.name ≠ name) :
    key ∈ Stores.setEx keys name expiresAt :=
  List.mem_cons_of_mem _ (List.mem_filter.2 ⟨member, by simpa using other⟩)

theorem margin : leeway + refreshTokenTtlSeconds < familyTtl := by decide

variable {claims : TokenClaims}

section

variable (regular : stores.Regular settings)
include regular

theorem Stores.Regular.outlived (member : claims ∈ stores.tokens) :
    claims.exp + leeway < stores.now + familyTtl := by
  have lifetime := regular.lifetime claims member
  calc claims.exp + leeway
      ≤ stores.now + refreshTokenTtlSeconds + leeway :=
        Int.add_le_add_right lifetime _
    _ = stores.now + (leeway + refreshTokenTtlSeconds) := by
        rw [Int.add_assoc, Int.add_comm leeway]
    _ < stores.now + familyTtl := Int.add_lt_add_left margin _

theorem Stores.Regular.held
    {family : Nat} (key : ⟨family, stores.now + familyTtl⟩ ∈
      after.redisFamilies) (tokens : after.tokens = stores.tokens) :
    after.RedisHolds family := by
  intro claims member _ _
  exact ⟨_, key, rfl, regular.outlived (tokens ▸ member)⟩

theorem Stores.Regular.familyRevoked (family : Nat) :
    (stores.revokeTokenFamily family familyTtl).Regular settings ∧
      stores.Precedes (stores.revokeTokenFamily family familyTtl) := by
  refine regular.update _ _ ?_ ?_ (List.Subset.refl _) fun row member new =>
    absurd member new
  · exact fun configured jti spent => spent.inRedis configured
  · intro other holds
    by_cases same : other = family
    · subst same
      exact regular.held List.mem_cons_self rfl
    · intro claims member mine valid
      rcases holds claims member mine valid with ⟨key, inside, name, outlives⟩
      exact ⟨key, mem_setEx inside (name.trans_ne same), name, outlives⟩

theorem Stores.Regular.insert
    (ttlSeconds : Int) (member : claims ∈ stores.tokens)
    (outlives : ∀ other ∈ stores.tokens,
      other.tokenFamily = claims.tokenFamily →
        claims.tokenType = .access ∨ other.tokenType = .access →
          other.exp + leeway < stores.now + ttlSeconds) :
    let next := { stores with
      revocations := stores.insertRevocation claims ttlSeconds }
    next.Regular settings ∧ stores.Precedes next ∧ next.Revoked claims.jti := by
  intro next
  have kept : stores.revocations ⊆
      stores.insertRevocation claims ttlSeconds := by
    unfold Stores.insertRevocation
    split
    · exact List.Subset.refl _
    · exact List.subset_append_left _ _
  have updated := regular.update stores.redisJtis stores.redisFamilies
    (fun configured jti spent => spent.inRedis configured)
    (fun family holds => holds) kept ?_
  · refine ⟨updated.1, updated.2, ?_⟩
    show ∃ row ∈ stores.insertRevocation claims ttlSeconds, _
    unfold Stores.insertRevocation
    split
    · rename_i present
      rcases List.any_eq_true.1 present with ⟨row, inside, same⟩
      exact ⟨row, inside, of_decide_eq_true same⟩
    · exact ⟨_, List.mem_append_right _ (List.mem_singleton.2 rfl), rfl⟩
  · intro row inside new
    unfold Stores.insertRevocation at inside
    split at inside
    · exact absurd inside new
    · rcases List.mem_append.1 inside with old | last
      · exact absurd old new
      · rcases List.mem_singleton.1 last with rfl
        exact ⟨claims, member, rfl, rfl, outlives⟩

theorem Stores.Regular.step {statement : Statement} {answer : statement.Answer}
    (short : settings.accessTtl + leeway < refreshTokenTtlSeconds)
    (required : statement.Required settings stores)
    (timely : statement.Timely stores)
    (success : statement.run settings stores = .ok (answer, after)) :
    after.Regular settings ∧ stores.Precedes after := by
  have unchanged : stores.Regular settings ∧ stores.Precedes stores :=
    ⟨regular, .refl stores⟩
  cases statement with
  | start | utcNow | jtiExists | familyExists | isRevokedInDb
  | isFamilyRevokedInDb => cases success; exact unchanged
  | consumeInRedis claims ttlSeconds =>
      rcases required with ⟨configured, member, refresh, covers⟩
      simp only [Statement.run, Stores.consumeInRedis] at success
      split at success
      · cases success; exact unchanged
      rename_i free
      cases success
      -- The key is set first, then the consumption is recorded.
      have updated := regular.update (Stores.setEx stores.redisJtis claims.jti
          (stores.now + ttlSeconds)) stores.redisFamilies ?_ (fun family holds => holds)
        (List.Subset.refl _) fun row member new => absurd member new
      · have recorded := updated.1.record (.consumed claims.jti)
          ?_ ?_ ?_
        · exact ⟨recorded.1, updated.2.trans recorded.2⟩
        · refine ⟨⟨claims, member, rfl, refresh⟩, ?_, fun absent => ?_⟩
          · intro _ other inside same _
            have equal := regular.same inside member same
            subst equal
            exact ⟨_, List.mem_cons_self, rfl, covers⟩
          · rw [configured] at absent
            cases absent
        · rintro jti same before
          cases same
          have spent := regular.happened _ before
          rcases spent.inRedis configured claims member rfl timely with
            ⟨key, inside, name, expires⟩
          exact free (exists?_eq_true.2
            ⟨key, inside, name, lt_of_lt_of_le timely expires⟩)
        · intro family successor same
          cases same
      · intro _ jti spent other inside same valid
        by_cases mine : jti = claims.jti
        · have equal := regular.same inside member (same.trans mine)
          subst equal
          exact ⟨_, List.mem_cons_self, mine.symm, covers⟩
        · rcases spent.inRedis configured other inside same valid with
            ⟨key, found, name, expires⟩
          exact ⟨key, mem_setEx found (name.trans_ne mine), name, expires⟩
  | consumeInDb claims ttlSeconds =>
      rcases required with ⟨absent, member, refresh, covers⟩
      simp only [Statement.run, Stores.consumeInDb] at success
      split at success
      · cases success; exact unchanged
      rename_i free
      cases success
      have inserted := regular.insert ttlSeconds member ?_
      · have recorded := inserted.1.record (.consumed claims.jti)
          ?_ ?_ ?_
        · exact ⟨recorded.1, inserted.2.1.trans recorded.2⟩
        · refine ⟨⟨claims, member, rfl, refresh⟩, fun configured => ?_,
            fun _ => inserted.2.2⟩
          rw [absent] at configured
          cases configured
        · rintro jti same before
          cases same
          have spent := regular.happened _ before
          rcases spent.inDb absent with ⟨row, inside, named⟩
          exact free (List.any_eq_true.2 ⟨row, inside, decide_eq_true named⟩)
        · intro family successor same
          cases same
      · intro other inside family either
        rcases either with own | access
        · rw [refresh] at own
          cases own
        · exact lt_of_lt_of_le
            (regular.paired other inside claims member family access refresh)
            covers
  | revokeTokenJti claims ttlSeconds =>
      rcases required with ⟨member, access⟩
      simp only [Statement.run, Stores.revokeTokenJti] at success
      split at success
      · cases success
      cases success
      refine regular.update _ _ ?_ (fun family holds => holds)
        (List.Subset.refl _) fun row member new => absurd member new
      intro configured jti spent other inside same valid
      rcases spent.refresh with ⟨consumed, found, named, refresh⟩
      have apart : jti ≠ claims.jti := by
        intro equal
        have one := regular.same found member (named.trans equal)
        rw [one, access] at refresh
        cases refresh
      rcases spent.inRedis configured other inside same valid with
        ⟨key, present, name, expires⟩
      exact ⟨key, mem_setEx present (name.trans_ne apart), name, expires⟩
  | revokeTokenFamily claims ttlSeconds =>
      cases success
      cases required
      exact regular.familyRevoked claims.tokenFamily
  | revokeTokenInDb claims ttlSeconds leaving =>
      cases success
      rcases required with ⟨rfl, member, began⟩
      have inserted := regular.insert familyTtl member fun other inside _ _ =>
          regular.outlived inside
      cases leaving with
      | none =>
          have same : stores.revokeTokenInDb claims familyTtl none =
              { stores with
                revocations := stores.insertRevocation claims familyTtl } := by
            simp [Stores.revokeTokenInDb]
          rw [same]
          exact ⟨inserted.1, inserted.2.1⟩
      | some since =>
          rcases began since rfl with ⟨access, past⟩
          have recorded := inserted.1.record
            (Happening.left claims.tokenFamily since)
            ⟨past, ⟨claims, member, rfl, access, inserted.2.2⟩, timely since rfl⟩
            (by intro jti same; cases same)
            (by intro family successor same; cases same)
          exact ⟨recorded.1, inserted.2.1.trans recorded.2⟩
  | issueTokens rotates =>
      cases success
      cases rotates with
      | none => exact regular.sign short
      | some rotation =>
          rcases required rotation rfl with ⟨member, revoked, held, unleft⟩
          have recorded := regular.record
            (.rotated rotation.1.tokenFamily stores.drawn)
            ⟨⟨rotation.1, member, rfl, revoked⟩, held⟩
            (by intro jti same; cases same) ?_
          · have signed := recorded.1.sign short
            have same : ((stores.record (.rotated rotation.1.tokenFamily
                stores.drawn)).issueTokens settings none) =
                stores.issueTokens settings
                  (some rotation.1.tokenFamily) := by
              simp [Stores.issueTokens, Stores.record]
            rw [same] at signed
            exact ⟨signed.1, recorded.2.trans signed.2⟩
          · intro family successor same since inside
            cases same
            rw [← List.take_append_drop rotation.2 stores.happened] at inside
            rcases List.mem_append.1 inside with before | later
            · exact unleft since before
            · exact timely rotation rfl since later
  | accept claims since =>
      cases success
      exact regular.record (.accepted claims since stores.now)
        required (by intro jti same; cases same)
        (by intro family successor same; cases same)
  | logOut claims since =>
      cases success
      exact regular.record (.loggedOut claims.tokenFamily since)
        required (by intro jti same; cases same)
        (by intro family successor same; cases same)
  | restartRedis =>
      cases success
      refine regular.update _ _ ?_ ?_ (List.Subset.refl _) fun row member new =>
        absurd member new
      · intro configured jti spent claims member same valid
        rcases spent.inRedis configured claims member same valid with
          ⟨key, inside, _, expires⟩
        have dead := timely key (List.mem_append_left _ inside)
        exact absurd (lt_of_lt_of_le valid expires) (not_lt.2 dead)
      · intro family holds claims member same valid
        rcases holds claims member same valid with ⟨key, inside, _, outlives⟩
        have dead := timely key (List.mem_append_right _ inside)
        exact absurd (lt_of_le_of_lt valid outlives) (not_lt.2 dead)

end

theorem Executed.effect {statement : Statement} {reply : statement.Reply}
    (executed : Executed settings stores statement reply after)
    (short : settings.accessTtl + leeway < refreshTokenTtlSeconds)
    (required : statement.Required settings stores) :
    after.Regular settings ∧ stores.Precedes after := by
  by_cases same : after = stores
  · subst same
    exact ⟨executed.regular, .refl _⟩
  have timely := executed.timely same
  have answered : ((machine settings).answer stores statement).2 ≠ stores →
      ((machine settings).answer stores statement).2.Regular settings ∧
        stores.Precedes ((machine settings).answer stores statement).2 := by
    intro changed
    rcases (machine_runs settings).cases stores statement with
      ⟨answer, next, success, equal⟩ | ⟨error, _, equal⟩
    · rw [equal]
      exact executed.regular.step short required timely success
    · rw [equal] at changed
      exact absurd rfl changed
  cases executed.executes with
  | answered => exact answered same
  | failed => exact absurd rfl same
  | lost => exact answered same

/-! ## What a lookup tells -/

/-- A live family of an access token: nothing has ended it before the moment,
while the token is accepted. -/
def Lives (claims : TokenClaims) (since : Nat) (stores : Stores) : Prop :=
  claims.tokenType = .access → stores.now ≤ claims.exp + leeway →
    stores.Alive claims.tokenFamily since

section

variable (regular : stores.Regular settings)
include regular

/-- Redis answers for every family that has ended. -/
theorem Stores.Regular.redisHolds
    (configured : settings.redis = true) {happening : Happening}
    (member : happening ∈ stores.happened) {family : Nat}
    (ends : happening.Ends family) : stores.RedisHolds family := by
  have holds := regular.happened happening member
  cases happening with
  | accepted | left | consumed => exact ends.elim
  | loggedOut | rotated =>
      cases ends
      exact holds.2 configured

/-- The database holds a row for every family that has ended. -/
theorem Stores.Regular.rowHeld
    {happening : Happening} (member : happening ∈ stores.happened)
    {family : Nat} (ends : happening.Ends family) :
    ∃ row ∈ stores.revocations, row.tokenFamily = family ∧
      ∀ other ∈ stores.tokens, other.tokenFamily = family →
        other.tokenType = .access → other.exp + leeway < row.expiresAt := by
  have found : ∀ {claims : TokenClaims}, claims ∈ stores.tokens →
      claims.tokenFamily = family → stores.Revoked claims.jti →
        ∃ row ∈ stores.revocations, row.tokenFamily = family ∧
          ∀ other ∈ stores.tokens, other.tokenFamily = family →
            other.tokenType = .access →
              other.exp + leeway < row.expiresAt := by
    rintro claims inside same ⟨row, held, named⟩
    rcases regular.rows row held with ⟨owner, owned, jti, shared, outlives⟩
    have equal := regular.same owned inside (jti.trans named)
    subst equal
    have mine := shared.symm.trans same
    exact ⟨row, held, mine, fun other present kin access =>
      outlives other present (kin.trans mine.symm) (.inr access)⟩
  have holds := regular.happened happening member
  cases happening with
  | accepted | left | consumed => exact ends.elim
  | loggedOut other since =>
      cases ends
      rcases regular.happened _ holds.1 with
        ⟨_, ⟨claims, inside, same, _, revoked⟩, _⟩
      exact found inside same revoked
  | rotated other successor =>
      cases ends
      rcases holds.1 with ⟨claims, inside, same, revoked⟩
      exact found inside same revoked

theorem lives_of_redis (configured : settings.redis = true)
    (member : claims ∈ stores.tokens) (since : Nat)
    (absent : Stores.exists? stores.redisFamilies stores.now
      claims.tokenFamily = false) : Lives claims since stores := by
  intro _ valid happening before ends
  have happened := List.mem_of_mem_take before
  rcases regular.redisHolds configured happened ends claims member rfl valid
    with ⟨key, inside, name, outlives⟩
  have found := exists?_eq_true.2
    ⟨key, inside, name, lt_of_le_of_lt valid outlives⟩
  rw [found] at absent
  cases absent

theorem lives_of_db (member : claims ∈ stores.tokens) (since : Nat)
    (absent : stores.isRevokedInDb claims.jti claims.tokenFamily = false) :
    Lives claims since stores := by
  intro access valid happening before ends
  have happened := List.mem_of_mem_take before
  rcases regular.rowHeld happened ends with ⟨row, inside, same, outlives⟩
  have live := lt_of_le_of_lt valid (outlives claims member rfl access)
  have found : stores.isRevokedInDb claims.jti claims.tokenFamily = true :=
    List.any_eq_true.2 ⟨row, inside, by simp [same, live]⟩
  rw [found] at absent
  cases absent

theorem unleft_of_db (member : claims ∈ stores.tokens)
    (absent : stores.isFamilyRevokedInDb claims.tokenFamily = false)
    (valid : stores.now ≤ claims.exp + leeway) (since : Nat) :
    .left claims.tokenFamily since ∉ stores.happened := by
  intro left
  rcases (regular.happened _ left).2.1 with
    ⟨leaver, inside, same, access, row, held, named⟩
  rcases regular.rows row held with ⟨owner, owned, jti, shared, outlives⟩
  have equal := regular.same owned inside (jti.trans named)
  subst equal
  have family := shared.symm.trans same
  have live := lt_of_le_of_lt valid
    (outlives claims member family.symm (.inl access))
  have found : stores.isFamilyRevokedInDb claims.tokenFamily = true :=
    List.any_eq_true.2 ⟨row, held, by simp [family, live]⟩
  rw [found] at absent
  cases absent

end

end Steps

/-! ## Requests keep to the discipline -/

section Requests

variable {settings : SessionSettings} {stores : Stores}
  {claims : TokenClaims} {Result Next : Type}

/-- A fact about what an operation returns, if it returns. -/
def Returns (fact : Stores → Result → Prop) (stores : Stores)
    (result : Except AppError Result) : Prop :=
  ∀ value, result = .ok value → fact stores value

theorem returns_error {fact : Stores → Result → Prop} (stores : Stores)
    (error : AppError) : Returns fact stores (.error error) := by
  intro value same
  cases same

theorem bind_safe (fact : Stores → Result → Prop) {goal : Stores → Next → Prop}
    {first : Task Result} {next : Result → Task Next}
    (safe : first.Safe (discipline settings) (Returns fact) stores)
    (continued : ∀ state value, fact state value →
      (next value).Safe (discipline settings) (Returns goal) state) :
    (first >>= next).Safe (discipline settings) (Returns goal) stores :=
  Program.Safe.bind safe (fun state error _ => returns_error state error)
    fun state value returned => continued state value (returned value rfl)

theorem done_safe {fact : Stores → Result → Prop}
    {outcome : Except AppError Result}
    (returned : ∀ value, outcome = .ok value → ∀ last, stores.Precedes last →
      fact last value) :
    (Program.done outcome : Task Result).Safe (discipline settings)
      (Returns fact) stores :=
  fun last passed value same => returned value same last passed

theorem fail_safe {fact : Stores → Result → Prop} (error : AppError) :
    (Program.fail error : Task Result).Safe (discipline settings)
      (Returns fact) stores :=
  fun last _ => returns_error last error

theorem query_safe
    (short : settings.accessTtl + leeway < refreshTokenTtlSeconds)
    {statement : Statement} {fact : Stores → statement.Answer → Prop}
    (required : ∀ later, stores.Precedes later →
      statement.Required settings later)
    (answered : ∀ later answer after, stores.Precedes later →
      Executed settings later statement (.ok answer) after →
        statement.run settings later = .ok (answer, after) →
          ∀ last, later.Precedes last → after.Precedes last →
            fact last answer) :
    (query statement).Safe (discipline settings) (Returns fact) stores := by
  intro later relied
  refine ⟨required later relied, fun reply after executed => ?_⟩
  have moved := (executed.effect short (required later relied)).2
  rintro last passed answer rfl
  exact answered later answer after relied executed
    ((machine_runs settings).executes executed.executes) last
    (moved.trans passed) passed

theorem attempt_safe
    (short : settings.accessTtl + leeway < refreshTokenTtlSeconds)
    {statement : Statement} {fact : Stores → Prop}
    (required : ∀ later, stores.Precedes later →
      statement.Required settings later)
    (done : ∀ later reply after, stores.Precedes later →
      Executed settings later statement reply after →
        ∀ last, later.Precedes last → after.Precedes last → fact last) :
    ((query statement).attempt.discard : Task Unit).Safe (discipline settings)
      (Returns fun last _ => fact last) stores := by
  intro later relied
  refine ⟨required later relied, fun reply after executed => ?_⟩
  have moved := (executed.effect short (required later relied)).2
  intro last passed value _
  exact done later reply after relied executed last (moved.trans passed) passed

/-- A signed token, and a moment of the past. -/
structure Presented (claims : TokenClaims) (since : Nat) (stores : Stores) :
    Prop where
  signed : claims ∈ stores.tokens
  past : since ≤ stores.happened.length

variable {since : Nat}

theorem Presented.later {later : Stores}
    (presented : Presented claims since stores)
    (precedes : stores.Precedes later) : Presented claims since later :=
  ⟨precedes.tokens presented.signed, presented.past.trans precedes.length⟩

theorem Lives.later {later : Stores} (lives : Lives claims since stores)
    (past : since ≤ stores.happened.length)
    (precedes : stores.Precedes later) : Lives claims since later := by
  intro access valid happening member
  rw [precedes.take past] at member
  exact lives access (precedes.now.trans valid) happening member

/-- What the lookup of a validation tells. -/
def Looked (claims : TokenClaims) (since : Nat) (stores : Stores)
    (result : Except AppError Bool) : Prop :=
  Presented claims since stores ∧ (result = .ok false →
    Lives claims since stores)

section

variable (short : settings.accessTtl + leeway < refreshTokenTtlSeconds)
include short

theorem dbLookup_safe (presented : Presented claims since stores) :
    (isRevokedInDb claims).Safe (discipline settings)
      (Returns fun last revoked => Looked claims since last (.ok revoked))
      stores := by
  apply query_safe short
  · exact fun _ _ => trivial
  intro later revoked after relied executed success last passed _
  have here := presented.later relied
  refine ⟨here.later passed, fun absent => ?_⟩
  cases absent
  have read : later.isRevokedInDb claims.jti claims.tokenFamily = false :=
    congrArg Prod.fst (Except.ok.inj success)
  exact (lives_of_db executed.regular here.signed since read).later here.past
    passed

theorem isRevokedInRedis_safe (configured : settings.redis = true)
    (presented : Presented claims since stores) :
    (isRevokedInRedis claims).Safe (discipline settings) (Looked claims since)
      stores := by
  intro later relied
  refine ⟨trivial, fun reply after executed => ?_⟩
  have moved := relied.trans (executed.effect short trivial).2
  cases reply with
  | error error =>
      intro last passed
      exact ⟨presented.later (moved.trans passed), by simp⟩
  | ok isRevoked =>
      cases isRevoked with
      | true =>
          intro last passed
          exact ⟨presented.later (moved.trans passed), by simp⟩
      | false =>
          intro next passed
          refine ⟨trivial, fun reply final executed => ?_⟩
          have here := presented.later (moved.trans passed)
          have kept := (executed.effect short trivial).2
          intro last arrived
          refine ⟨here.later (kept.trans arrived), fun found => ?_⟩
          have found : reply = .ok false := found
          subst found
          have success := (machine_runs settings).executes executed.executes
          have read : Stores.exists? next.redisFamilies next.now
              claims.tokenFamily = false :=
            congrArg Prod.fst (Except.ok.inj success)
          exact (lives_of_redis executed.regular configured here.signed since
            read).later here.past (kept.trans arrived)

theorem isRevoked_safe (presented : Presented claims since stores) :
    (isRevoked settings claims).Safe (discipline settings)
      (Returns fun last revoked => Looked claims since last (.ok revoked))
      stores := by
  unfold isRevoked
  by_cases configured : settings.redis = true
  · rw [if_pos configured]
    have attempted : Program.Safe (discipline settings)
        (Returns fun last result => Looked claims since last result)
        ((isRevokedInRedis claims).attempt : Task _) stores :=
      (isRevokedInRedis_safe short configured presented).attempt
        fun state result looked value same => by cases same; exact looked
    apply Program.Safe.bind attempted
    · exact fun state error _ => returns_error state error
    intro state result returned
    have looked := returned result rfl
    cases result with
    | error error => exact dbLookup_safe short looked.1
    | ok isRevoked =>
        intro last passed value same
        cases same
        refine ⟨looked.1.later passed, fun absent => ?_⟩
        exact (looked.2 absent).later looked.1.past passed
  · rw [if_neg configured]
    exact dbLookup_safe short presented

theorem validateAccessToken_safe (signed : claims ∈ stores.tokens) :
    (validateAccessToken settings claims).Safe (discipline settings)
      (Returns fun last since => Presented claims since last ∧
        claims.tokenType = .access) stores := by
  have validated : (validateTokenWithAntiReplay settings claims).Safe
      (discipline settings) (Returns fun last since =>
        Presented claims since last ∧ Lives claims since last) stores := by
    apply bind_safe (fun last started =>
      Presented claims started.2 last)
    · apply query_safe short
      · exact fun _ _ => trivial
      intro later started after relied _ success last passed _
      cases success
      exact ⟨passed.tokens (relied.tokens signed), passed.length⟩
    intro state started presented
    apply bind_safe (fun last _ => Presented claims started.2 last)
    · exact done_safe fun _ _ last passed => presented.later passed
    intro state _ presented
    apply bind_safe _ (isRevoked_safe short presented)
    intro state revoked looked
    cases revoked with
    | true => exact fail_safe _
    | false =>
        intro last passed since same
        cases same
        exact ⟨looked.1.later passed,
          (looked.2 rfl).later looked.1.past passed⟩
  apply bind_safe _ validated
  intro state since cleared
  apply bind_safe (fun last _ => (Presented claims since last ∧
    Lives claims since last) ∧ claims.tokenType = .access)
  · apply done_safe
    intro _ accepted last passed
    refine ⟨⟨cleared.1.later passed,
      cleared.2.later cleared.1.past passed⟩, ?_⟩
    unfold requireTokenType at accepted
    split at accepted
    · cases accepted
    · rename_i access
      exact not_not.1 access
  rintro state _ ⟨⟨presented, lives⟩, access⟩
  apply bind_safe (fun last _ => Presented claims since last ∧
    claims.tokenType = .access)
  · apply query_safe short
    · intro later relied
      exact ⟨(presented.later relied).past,
        lives.later presented.past relied access⟩
    · intro later _ after relied _ _ last passed _
      exact ⟨presented.later (relied.trans passed), access⟩
  · intro state _ returned last passed value same
    cases same
    exact ⟨returned.1.later passed, access⟩

end

/-- Redis holds the family, where Redis is configured. -/
def HeldInRedis (settings : SessionSettings) (claims : TokenClaims)
    (stores : Stores) : Prop :=
  settings.redis = true → claims.tokenFamily < stores.drawn ∧
    stores.RedisHolds claims.tokenFamily

theorem HeldInRedis.later {later : Stores}
    (held : HeldInRedis settings claims stores)
    (precedes : stores.Precedes later) : HeldInRedis settings claims later := by
  intro configured
  rcases held configured with ⟨below, holds⟩
  exact ⟨lt_of_lt_of_le below precedes.drawn, precedes.redis _ below holds⟩

section

variable (short : settings.accessTtl + leeway < refreshTokenTtlSeconds)
include short

theorem revokeFamilyInRedis_safe {fact : Stores → Prop} (holds : fact stores)
    (stable : ∀ state later, state.Precedes later → fact state → fact later)
    (signed : ∀ state, fact state → claims ∈ state.tokens) :
    (revokeFamilyInRedis settings claims).Safe (discipline settings)
      (Returns fun last _ => fact last ∧ HeldInRedis settings claims last)
      stores := by
  unfold revokeFamilyInRedis
  by_cases configured : settings.redis = true
  · rw [if_pos configured]
    apply attempt_safe short
    · exact fun _ _ => rfl
    intro later reply after relied executed last passed arrived
    refine ⟨stable _ _ (relied.trans passed) holds, ?_⟩
    have effect := executed.effect short rfl
    have inside := effect.2.tokens (signed _ (stable _ _ relied holds))
    have tokens : after.tokens = later.tokens := by
      cases executed.executes <;> rfl
    have held : HeldInRedis settings claims after := fun _ =>
      ⟨(effect.1.drawn claims inside).2,
        executed.regular.held executed.stored tokens⟩
    exact held.later arrived
  · rw [if_neg configured]
    intro last passed value _
    exact ⟨stable _ _ passed holds, fun enabled => absurd enabled configured⟩

theorem logout_safe (signed : claims ∈ stores.tokens) :
    (logout settings claims).Safe (discipline settings)
      (Returns fun _ _ => True) stores := by
  apply bind_safe _ (validateAccessToken_safe short signed)
  rintro state since ⟨presented, access⟩
  apply bind_safe (fun last _ => Presented claims since last)
  · unfold revokeJtiInRedis
    by_cases configured : settings.redis = true
    · rw [if_pos configured]
      apply attempt_safe short
      · exact fun next relied => ⟨(presented.later relied).signed, access⟩
      · intro next reply after relied _ last passed _
        exact presented.later (relied.trans passed)
    · rw [if_neg configured]
      exact done_safe fun _ _ last passed => presented.later passed
  intro state _ presented
  apply bind_safe _ (revokeFamilyInRedis_safe short presented
    (fun _ _ passed presented => presented.later passed)
    fun _ presented => presented.signed)
  rintro state _ ⟨presented, held⟩
  apply bind_safe (fun last _ =>
    .left claims.tokenFamily since ∈ last.happened ∧
      HeldInRedis settings claims last)
  · apply attempt_safe short
    · intro next relied
      have here := presented.later relied
      refine ⟨rfl, here.signed, fun moment same => ?_⟩
      cases same
      exact ⟨access, here.past⟩
    intro next reply after relied executed last passed arrived
    exact ⟨arrived.happened.subset (executed.stored.2 since rfl),
      held.later (relied.trans passed)⟩
  rintro state _ ⟨left, held⟩
  apply query_safe short
  · intro next relied
    exact ⟨relied.happened.subset left,
      fun configured => (held.later relied configured).2⟩
  · exact fun _ _ _ _ _ _ _ _ _ => trivial

/-- A refresh that passes the liveness check before its token expires finds
that no logout has written. -/
theorem isFamilyRevoked_safe (signed : claims ∈ stores.tokens) :
    (isFamilyRevoked settings claims).Safe (discipline settings)
      (Returns fun last liveness => claims ∈ last.tokens ∧
        liveness.2 ≤ last.happened.length ∧
        (liveness.1 = false → last.now < claims.exp → ∀ since,
          .left claims.tokenFamily since ∉ last.happened.take liveness.2))
      stores := by
  have positive : (0 : Int) ≤ leeway := by decide
  have inDb : ∀ {state : Stores}, claims ∈ state.tokens →
      (isFamilyRevokedInDb claims).Safe (discipline settings)
        (Returns fun last liveness =>
          claims ∈ last.tokens ∧ liveness.2 ≤ last.happened.length ∧
          (liveness.1 = false → last.now < claims.exp → ∀ since,
            .left claims.tokenFamily since ∉ last.happened.take liveness.2))
        state := by
    intro state signed
    apply query_safe short
    · exact fun _ _ => trivial
    intro later liveness after relied executed success last passed _
    have inside := relied.tokens signed
    cases success
    refine ⟨passed.tokens inside, passed.length,
      fun absent valid since left => ?_⟩
    have early : later.now ≤ claims.exp + leeway :=
      (passed.now.trans valid.le).trans (Int.le_add_of_nonneg_right positive)
    rw [passed.take (le_refl _), List.take_length] at left
    exact unleft_of_db executed.regular inside absent early since left
  unfold isFamilyRevoked
  by_cases configured : settings.redis = true
  · rw [if_pos configured]
    refine Program.Safe.bind (show Program.Safe (discipline settings)
      (fun last _ => claims ∈ last.tokens) _ stores from ?_) ?_ ?_
    · intro later relied
      refine ⟨trivial, fun reply after executed => ?_⟩
      have moved := relied.trans (executed.effect short trivial).2
      exact fun last passed => (moved.trans passed).tokens signed
    · exact fun state error _ => returns_error state error
    intro state found inside
    rcases found with error | revoked
    · exact inDb inside
    · cases revoked with
      | true =>
          apply done_safe
          intro value same last passed
          cases same
          exact ⟨passed.tokens inside, Nat.zero_le _, by simp⟩
      | false => exact inDb inside
  · rw [if_neg configured]
    exact inDb signed

end

/-- What a refresh knows when it has consumed its token: no logout had written
at its liveness check. -/
def Checked (claims : TokenClaims) (moment : Nat) (stores : Stores) : Prop :=
  claims ∈ stores.tokens ∧ moment ≤ stores.happened.length ∧
    ∀ since, .left claims.tokenFamily since ∉ stores.happened.take moment

theorem consumeJtiOnce_safe
    (short : settings.accessTtl + leeway < refreshTokenTtlSeconds)
    {ttlSeconds : Int} {moment : Nat} (signed : claims ∈ stores.tokens)
    (refresh : claims.tokenType = .refresh)
    (covers : claims.exp ≤ stores.now + ttlSeconds)
    (unleft : stores.now < claims.exp → ∀ since,
      .left claims.tokenFamily since ∉ stores.happened.take moment)
    (past : moment ≤ stores.happened.length) :
    (consumeJtiOnce settings claims ttlSeconds).Safe (discipline settings)
      (Returns fun last first => first = true → Checked claims moment last)
      stores := by
  have later : ∀ {next last : Stores}, stores.Precedes next →
      next.now < claims.exp → next.Precedes last →
        Checked claims moment last := by
    intro next last relied valid passed
    have moved := relied.trans passed
    refine ⟨moved.tokens signed, past.trans moved.length, fun since left => ?_⟩
    rw [moved.take past] at left
    exact unleft (lt_of_le_of_lt relied.now valid) since left
  have covered : ∀ next, stores.Precedes next →
      claims.exp ≤ next.now + ttlSeconds := fun next relied =>
    covers.trans (Int.add_le_add_right relied.now _)
  have consumed : ∀ {next after : Stores}, after.happened =
      next.happened ++ [.consumed claims.jti] → after ≠ next := by
    intro next after grown same
    rw [same] at grown
    simpa using congrArg List.length grown
  by_cases configured : settings.redis = true
  · have chosen : consumeJtiOnce settings claims ttlSeconds =
        query (.consumeInRedis claims ttlSeconds) := if_pos configured
    rw [chosen]
    apply query_safe short
    · exact fun next relied =>
        ⟨configured, relied.tokens signed, refresh, covered next relied⟩
    intro next first after relied executed success last passed _ won
    simp only [Statement.run, Stores.consumeInRedis] at success
    split at success
    · cases success
      cases won
    · cases success
      exact later relied (executed.timely (consumed rfl)) passed
  · have chosen : consumeJtiOnce settings claims ttlSeconds =
        query (.consumeInDb claims ttlSeconds) := if_neg configured
    rw [chosen]
    apply query_safe short
    · exact fun next relied => ⟨Bool.eq_false_iff.2 configured,
        relied.tokens signed, refresh, covered next relied⟩
    intro next first after relied executed success last passed _ won
    simp only [Statement.run, Stores.consumeInDb] at success
    split at success
    · cases success
      cases won
    · cases success
      exact later relied (executed.timely (consumed rfl)) passed

/-- The TTL of a consumed token reaches its expiry. -/
theorem covers_expiry {now : Timestamp}
    (lifetime : claims.exp ≤ now + refreshTokenTtlSeconds) :
    claims.exp ≤ now + min (max (claims.exp - now) 60)
      (refreshTokenTtlSeconds + revocationTtlMarginSeconds) := by
  have margin : (0 : Int) ≤ revocationTtlMarginSeconds := by decide
  have long : claims.exp - now ≤ refreshTokenTtlSeconds :=
    Int.sub_left_le_of_le_add lifetime
  have within : claims.exp - now ≤ min (max (claims.exp - now) 60)
      (refreshTokenTtlSeconds + revocationTtlMarginSeconds) :=
    le_min (le_max_left _ _) (long.trans (Int.le_add_of_nonneg_right margin))
  exact Int.le_add_of_sub_left_le within

theorem consumeRefreshToken_safe
    (short : settings.accessTtl + leeway < refreshTokenTtlSeconds)
    (signed : claims ∈ stores.tokens) :
    (consumeRefreshToken settings claims).Safe (discipline settings)
      (Returns fun last moment => Checked claims moment last) stores := by
  apply bind_safe (fun last _ => claims ∈ last.tokens)
  · apply query_safe short
    · exact fun _ _ => trivial
    · exact fun _ _ _ relied _ _ _ passed _ =>
        passed.tokens (relied.tokens signed)
  intro state now signed
  apply bind_safe (fun last _ => claims ∈ last.tokens)
  · exact done_safe fun _ _ last passed => passed.tokens signed
  intro state _ signed
  apply bind_safe (fun last _ =>
    claims ∈ last.tokens ∧ claims.tokenType = .refresh)
  · apply done_safe
    intro _ accepted last passed
    refine ⟨passed.tokens signed, ?_⟩
    unfold requireTokenType at accepted
    split at accepted
    · cases accepted
    · rename_i refresh
      exact not_not.1 refresh
  rintro state _ ⟨signed, refresh⟩
  apply bind_safe _ (isFamilyRevoked_safe short signed)
  rintro state ⟨revoked, moment⟩ ⟨signed, past, unleft⟩
  cases revoked with
  | true => exact fail_safe _
  | false =>
      apply bind_safe (fun last (now : Timestamp) =>
        claims ∈ last.tokens ∧ claims.exp ≤ now + refreshTokenTtlSeconds ∧
          now ≤ last.now ∧ moment ≤ last.happened.length ∧
          (last.now < claims.exp → ∀ since,
            .left claims.tokenFamily since ∉ last.happened.take moment))
      · apply query_safe short
        · exact fun _ _ => trivial
        intro later now after relied executed success last passed _
        cases success
        have moved := relied.trans passed
        refine ⟨moved.tokens signed,
          executed.regular.lifetime claims (relied.tokens signed), passed.now,
          past.trans moved.length, fun valid since left => ?_⟩
        rw [moved.take past] at left
        exact unleft rfl (lt_of_le_of_lt moved.now valid) since left
      rintro state now ⟨signed, lifetime, reached, past, unleft⟩
      have covers := (covers_expiry lifetime).trans
        (Int.add_le_add_right reached _)
      apply bind_safe _ (consumeJtiOnce_safe short signed refresh covers unleft
        past)
      intro state first checked
      cases first with
      | false => exact fail_safe _
      | true =>
          intro last passed value same
          cases same
          have known := checked rfl
          refine ⟨passed.tokens known.1, known.2.1.trans passed.length, ?_⟩
          rw [passed.take known.2.1]
          exact known.2.2

theorem Checked.later {moment : Nat} {later : Stores}
    (checked : Checked claims moment stores)
    (precedes : stores.Precedes later) : Checked claims moment later := by
  refine ⟨precedes.tokens checked.1, checked.2.1.trans precedes.length, ?_⟩
  rw [precedes.take checked.2.1]
  exact checked.2.2

theorem refreshToken_safe
    (short : settings.accessTtl + leeway < refreshTokenTtlSeconds)
    (signed : claims ∈ stores.tokens) :
    (refreshToken settings claims).Safe (discipline settings)
      (Returns fun _ _ => True) stores := by
  apply bind_safe _ (consumeRefreshToken_safe short signed)
  intro state moment checked
  apply bind_safe _ (revokeFamilyInRedis_safe short checked
    (fun _ _ passed checked => checked.later passed)
    fun _ checked => checked.1)
  rintro state _ ⟨checked, held⟩
  apply bind_safe (fun last _ => Checked claims moment last ∧
    HeldInRedis settings claims last ∧ last.Revoked claims.jti)
  · apply attempt_safe short
    · intro next relied
      refine ⟨rfl, relied.tokens checked.1, fun since none => ?_⟩
      cases none
    intro next reply after relied executed last passed arrived
    have moved := relied.trans passed
    exact ⟨checked.later moved, held.later moved,
      arrived.revoked executed.stored.1⟩
  rintro state _ ⟨checked, held, revoked⟩
  apply query_safe short
  · intro next relied rotation same
    cases same
    have known := checked.later relied
    exact ⟨known.1, relied.revoked revoked,
      fun configured => (held.later relied configured).2, known.2.2⟩
  · exact fun _ _ _ _ _ _ _ _ _ => trivial

theorem operation_safe
    (short : settings.accessTtl + leeway < refreshTokenTtlSeconds)
    {operation : Operation} (signed : operation.Signed stores) :
    (operation.program settings).Safe (discipline settings)
      (fun _ _ => True) stores := by
  have any : ∀ {task : Task Unit}, task.Safe (discipline settings)
      (Returns fun _ _ => True) stores →
        task.Safe (discipline settings) (fun _ _ => True) stores :=
    fun safe => safe.mono fun _ _ _ => trivial
  cases operation with
  | sessionResponse =>
      intro later _
      refine ⟨fun rotation none => ?_, fun _ _ _ _ _ => trivial⟩
      cases none
  | validate claims =>
      exact Program.Safe.bind (validateAccessToken_safe short signed)
        (fun _ _ _ => trivial) fun _ _ _ _ _ => trivial
  | refresh claims => exact any (refreshToken_safe short signed)
  | logout claims => exact any (logout_safe short signed)
  | restartRedis => exact fun _ _ => ⟨trivial, fun _ _ _ _ _ => trivial⟩

end Requests

theorem guarantees {settings : SessionSettings}
    (short : settings.accessTtl + leeway < refreshTokenTtlSeconds) :
    GuaranteesUnder (machine settings) (discipline settings) Orderly
      (Stores.Regular settings) where
  executes := fun regular orderly executes =>
    ⟨regular, executes, orderly.1, orderly.2⟩
  operation := fun _ signed => operation_safe short signed
  statement := by
    intro stores process statement reply regular required orderly
    have executed : Executed settings stores statement _ _ :=
      ⟨regular, .answered, orderly.1, orderly.2⟩
    exact executed.effect short required
  time := fun duration regular => regular.elapse duration

theorem opening_sound (settings : SessionSettings) :
    Sound (discipline settings) (Stores.Regular settings) opening where
  inv := by
    constructor <;> simp [opening]
  safe := fun process program running => by cases running

/-- In every orderly run no validation, from the moment when it begins, accepts
a token before its expiry whose family a logout has left or a refresh has
retired, nor a token of a family that a refresh has rotated out of a logged out
one after the logout began; and every refresh token is consumed at most
once. -/
theorem revocation_permanent {settings : SessionSettings}
    {config : Configuration}
    (short : settings.accessTtl + leeway < refreshTokenTtlSeconds)
    (reachable : (machine settings).Run Orderly opening config) :
    (∀ claims since time,
      .accepted claims since time ∈ config.state.happened → time < claims.exp →
        (∀ start, .loggedOut claims.tokenFamily start ∉
          config.state.happened.take since) ∧
        (∀ successor, .rotated claims.tokenFamily successor ∉
          config.state.happened.take since) ∧
        ∀ family start,
          .loggedOut family start ∈ config.state.happened.take since →
            .rotated family claims.tokenFamily ∉
              config.state.happened.drop start) ∧
      ∀ jti, config.state.happened.count (.consumed jti) ≤ 1 := by
  have regular := ((opening_sound settings).runUnder (guarantees short)
    reachable).inv
  refine ⟨fun claims since time accepted valid => ?_, regular.once⟩
  have positive : (0 : Int) ≤ leeway := by decide
  have alive := (regular.happened _ accepted).2
    (valid.le.trans (Int.le_add_of_nonneg_right positive))
  refine ⟨fun start left => alive _ left rfl,
    fun successor rotated => alive _ rotated rfl, ?_⟩
  intro family start loggedOut
  have left := (regular.happened _ (List.mem_of_mem_take loggedOut)).1
  exact (regular.happened _ left).2.2 _

/-! ## Schedules -/

instance (family : Nat) (happened : List Happening) :
    Decidable (∀ successor, .rotated family successor ∉ happened) :=
  decidable_of_iff
    (happened.all fun
      | .rotated other _ => other ≠ family
      | _ => true) (by
    rw [List.all_eq_true]
    constructor
    · intro none successor member
      simpa using none _ member
    · intro none happening member
      cases happening with
      | rotated other successor =>
          apply decide_eq_true
          rintro rfl
          exact none successor member
      | _ => rfl)

instance (family : Nat) (happened : List Happening) :
    Decidable (∀ since, .left family since ∉ happened) :=
  decidable_of_iff
    (happened.all fun
      | .left other _ => other ≠ family
      | _ => true) (by
    rw [List.all_eq_true]
    constructor
    · intro none since member
      simpa using none _ member
    · intro none happening member
      cases happening with
      | left other since =>
          apply decide_eq_true
          rintro rfl
          exact none since member
      | _ => rfl)

instance (stores : Stores) (statement : Statement) :
    Decidable (statement.Timely stores) :=
  match statement with
  | .revokeTokenInDb claims _ leaving =>
      inferInstanceAs (Decidable (∀ since ∈ leaving, ∀ successor,
        .rotated claims.tokenFamily successor ∉ stores.happened.drop since))
  | .issueTokens rotates =>
      inferInstanceAs (Decidable (∀ rotation ∈ rotates, ∀ since,
        .left rotation.1.tokenFamily since ∉ stores.happened.drop rotation.2))
  | .consumeInRedis claims _ =>
      inferInstanceAs (Decidable (stores.now < claims.exp))
  | .consumeInDb claims _ =>
      inferInstanceAs (Decidable (stores.now < claims.exp))
  | .restartRedis =>
      inferInstanceAs (Decidable
        (∀ key ∈ stores.redisJtis ++ stores.redisFamilies,
          key.expiresAt ≤ stores.now))
  | .start | .utcNow | .jtiExists _ | .familyExists _ | .isRevokedInDb ..
  | .isFamilyRevokedInDb _ | .revokeTokenJti .. | .revokeTokenFamily ..
  | .accept .. | .logOut .. => isTrue trivial

theorem stored_of_answered (settings : SessionSettings) (stores : Stores)
    (statement : Statement) :
    statement.Stored stores (statement.answer settings stores).2 := by
  cases statement with
  | revokeTokenFamily claims ttlSeconds => exact List.mem_cons_self
  | revokeTokenInDb claims ttlSeconds leaving =>
      refine ⟨?_, fun since same => ?_⟩
      · show ∃ row ∈ stores.insertRevocation claims ttlSeconds, _
        unfold Stores.insertRevocation
        split
        · rename_i present
          rcases List.any_eq_true.1 present with ⟨row, inside, named⟩
          exact ⟨row, inside, of_decide_eq_true named⟩
        · exact ⟨_, List.mem_append_right _ (List.mem_singleton.2 rfl), rfl⟩
      · cases same
        exact List.mem_append_right _ (List.mem_singleton.2 rfl)
  | _ => trivial

theorem timely_admits (settings : SessionSettings) :
    Admits (machine settings)
      (fun stores statement => statement.Timely stores) Orderly where
  executed := by
    intro stores process statement allowed
    exact ⟨stored_of_answered settings stores statement,
      fun _ => of_decide_eq_true allowed⟩
  called := trivial
  crashed := trivial
  elapsed := fun _ => trivial

/-- Redis is configured, and access tokens live for a quarter of an hour. -/
def quarterHour : SessionSettings := ⟨true, 15⟩

def accessClaims (family : Nat) : TokenClaims :=
  ⟨family + 1, family, .access, 900, -5⟩

def refreshClaims (family : Nat) : TokenClaims :=
  ⟨family + 2, family, .refresh, 604800, -5⟩

/-- One session is logged out; another is refreshed, twice at once. -/
def endedSessions : Configuration :=
  (machine quarterHour).schedule
    (fun stores statement => statement.Timely stores) opening
    [.call 0 .sessionResponse, .advance 0 1,
      .call 1 .sessionResponse, .advance 1 1,
      .call 2 (.logout (accessClaims 0)), .advance 2 8,
      .call 3 (.refresh (refreshClaims 3)), .advance 3 3,
      .call 4 (.refresh (refreshClaims 3)), .advance 4 8, .advance 3 5]

/-- The session ends after its validation, and the second refresh wins
alone. -/
theorem revocation_permanent_endedSessions :
    .loggedOut 0 0 ∈ endedSessions.state.happened ∧
      .rotated 3 6 ∈ endedSessions.state.happened ∧
      endedSessions.state.happened.count (.consumed 5) ≤ 1 :=
  ⟨by decide +kernel, by decide +kernel,
    (revocation_permanent (by decide)
      ((timely_admits quarterHour).schedule opening _)).2 5⟩

/-- Redis restarts after a logout, and the token is presented again. -/
def restartedRedis : Configuration :=
  (machine quarterHour).schedule (fun _ _ => true) opening
    [.call 0 .sessionResponse, .advance 0 1,
      .call 1 (.logout (accessClaims 0)), .advance 1 8,
      .call 2 .restartRedis, .advance 2 1,
      .call 3 (.validate (accessClaims 0)), .advance 3 4]

theorem restartedRedis_accepted :
    ¬ ∀ settings config, (machine settings).Run anyStep opening config →
      ∀ claims since time,
        .accepted claims since time ∈ config.state.happened →
          time < claims.exp →
            ∀ start, .loggedOut claims.tokenFamily start ∉
              config.state.happened.take since := by
  intro permanent
  have admits : Admits (machine quarterHour) (fun _ _ => true) anyStep :=
    ⟨fun _ => trivial, trivial, trivial, fun _ => trivial⟩
  exact permanent quarterHour restartedRedis (admits.schedule opening _)
    (accessClaims 0) 3 0 (by decide +kernel) (by decide) 0 (by decide +kernel)

end FireCrow.Services.Sessions
