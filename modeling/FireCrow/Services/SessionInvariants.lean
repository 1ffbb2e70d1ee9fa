import FireCrow.Services.Sessions

/-!
# Invariants of sessions

Once a family is revoked in both stores, the revocation outlives every token of
the family, because no token is signed for a family again.  Here this is proved
for the runs in which the stores keep what they are told: what a rotation and a
logout write takes effect, and Redis does not lose a live key.
-/

namespace FireCrow.Services.Sessions

open FireCrow.Library

/-! ## The steps that break nothing -/

/-- The revocation that a statement writes is stored. -/
def Statement.Stored (stores next : Stores) : Statement → Prop
  | .revokeTokenFamily claims ttlSeconds =>
      ⟨claims.tokenFamily, stores.now + ttlSeconds⟩ ∈ next.redisFamilies
  | .revokeTokenInDb claims _ leaving =>
      (∃ row ∈ next.revocations, row.jti = claims.jti) ∧
        ∀ since ∈ leaving, .left claims.tokenFamily since ∈ next.happened
  | _ => True

/-- A logout writes before a refresh of the family mints a successor, a refresh
mints before a logout of the family writes, a refresh token is consumed before
it expires, and Redis restarts with no live key. -/
def Statement.Timely (stores : Stores) : Statement → Prop
  | .revokeTokenInDb claims _ leaving => ∀ since ∈ leaving, ∀ successor,
      .rotated claims.tokenFamily successor ∉ stores.happened.drop since
  | .issueTokens rotates => ∀ rotation ∈ rotates, ∀ since,
      .left rotation.1.tokenFamily since ∉ stores.happened.drop rotation.2
  | .consumeInRedis claims _ => stores.now < claims.exp
  | .consumeInDb claims _ => stores.now < claims.exp
  | .restartRedis => ∀ key ∈ stores.redisJtis ++ stores.redisFamilies,
      key.expiresAt ≤ stores.now
  | _ => True

/-- The revocations are stored, and a statement that changes anything is
timely. -/
def Orderly : Condition Stores Statement Statement.Reply Operation
  | stores, .executed _ statement _, next =>
      statement.Stored stores next ∧ (next ≠ stores → statement.Timely stores)
  | _, _, _ => True

/-! ## Revocations that outlive their tokens -/

/-- The happening ends a family. -/
def Happening.Ends (family : Nat) : Happening → Prop
  | .loggedOut other _ => other = family
  | .rotated other _ => other = family
  | _ => False

namespace Stores

/-- Redis holds the family for as long as a token of it is accepted. -/
def RedisHolds (stores : Stores) (family : Nat) : Prop :=
  ∀ claims ∈ stores.tokens, claims.tokenFamily = family →
    stores.now ≤ claims.exp + leeway →
      ∃ key ∈ stores.redisFamilies, key.name = family ∧
        claims.exp + leeway < key.expiresAt

/-- The database holds a row for the token. -/
def Revoked (stores : Stores) (jti : Nat) : Prop :=
  ∃ row ∈ stores.revocations, row.jti = jti

/-- Nothing has ended the family before the moment. -/
def Alive (stores : Stores) (family since : Nat) : Prop :=
  ∀ happening ∈ stores.happened.take since, ¬ happening.Ends family

/-- The row outlives what it revokes: the row of an access token every token of
its family, the row of a refresh token the access tokens. -/
def Outlives (stores : Stores) (row : TokenRevocation) : Prop :=
  ∃ claims ∈ stores.tokens, claims.jti = row.jti ∧
    claims.tokenFamily = row.tokenFamily ∧
    ∀ other ∈ stores.tokens, other.tokenFamily = row.tokenFamily →
      claims.tokenType = .access ∨ other.tokenType = .access →
        other.exp + leeway < row.expiresAt

/-- The token was consumed, and its store still knows. -/
structure Spent (settings : SessionSettings) (stores : Stores) (jti : Nat) :
    Prop where
  refresh : ∃ claims ∈ stores.tokens, claims.jti = jti ∧
    claims.tokenType = .refresh
  inRedis : settings.redis = true → ∀ claims ∈ stores.tokens,
    claims.jti = jti → stores.now < claims.exp →
      ∃ key ∈ stores.redisJtis, key.name = jti ∧ claims.exp ≤ key.expiresAt
  inDb : settings.redis = false → stores.Revoked jti

end Stores

/-- What a happening says of the stores. -/
def Happening.Holds (settings : SessionSettings) (stores : Stores) :
    Happening → Prop
  | .accepted claims since time => since ≤ stores.happened.length ∧
      (time ≤ claims.exp + leeway → stores.Alive claims.tokenFamily since)
  | .left family since => since ≤ stores.happened.length ∧
      (∃ claims ∈ stores.tokens, claims.tokenFamily = family ∧
        claims.tokenType = .access ∧ stores.Revoked claims.jti) ∧
      ∀ successor, .rotated family successor ∉ stores.happened.drop since
  | .loggedOut family since => .left family since ∈ stores.happened ∧
      (settings.redis = true → stores.RedisHolds family)
  | .rotated family _ => (∃ claims ∈ stores.tokens,
      claims.tokenFamily = family ∧ stores.Revoked claims.jti) ∧
      (settings.redis = true → stores.RedisHolds family)
  | .consumed jti => stores.Spent settings jti

/-- What holds between any two statements. -/
structure Stores.Regular (settings : SessionSettings) (stores : Stores) :
    Prop where
  drawn : ∀ claims ∈ stores.tokens,
    claims.jti < stores.drawn ∧ claims.tokenFamily < stores.drawn
  jtis : (stores.tokens.map TokenClaims.jti).Nodup
  lifetime : ∀ claims ∈ stores.tokens,
    claims.exp ≤ stores.now + refreshTokenTtlSeconds
  paired : ∀ access ∈ stores.tokens, ∀ refresh ∈ stores.tokens,
    access.tokenFamily = refresh.tokenFamily → access.tokenType = .access →
      refresh.tokenType = .refresh → access.exp + leeway < refresh.exp
  rows : ∀ row ∈ stores.revocations, stores.Outlives row
  happened : ∀ happening ∈ stores.happened, happening.Holds settings stores
  once : ∀ jti, stores.happened.count (.consumed jti) ≤ 1

/-- What the others leave alone. -/
structure Stores.Precedes (stores later : Stores) : Prop where
  now : stores.now ≤ later.now
  drawn : stores.drawn ≤ later.drawn
  tokens : stores.tokens ⊆ later.tokens
  revocations : stores.revocations ⊆ later.revocations
  happened : stores.happened <+: later.happened
  redis : ∀ family < stores.drawn, stores.RedisHolds family →
    later.RedisHolds family

namespace Stores.Precedes

theorem refl (stores : Stores) : stores.Precedes stores :=
  ⟨le_refl _, le_refl _, List.Subset.refl _, List.Subset.refl _,
    List.prefix_refl _, fun _ _ holds => holds⟩

theorem trans {first second third : Stores}
    (before : first.Precedes second) (after : second.Precedes third) :
    first.Precedes third where
  now := before.now.trans after.now
  drawn := before.drawn.trans after.drawn
  tokens := List.Subset.trans before.tokens after.tokens
  revocations := List.Subset.trans before.revocations after.revocations
  happened := before.happened.trans after.happened
  redis := fun family below holds => after.redis family
    (lt_of_lt_of_le below before.drawn) (before.redis family below holds)

variable {stores later : Stores}

section

variable (precedes : stores.Precedes later)
include precedes

theorem revoked {jti : Nat}
    (revoked : stores.Revoked jti) : later.Revoked jti := by
  rcases revoked with ⟨row, member, same⟩
  exact ⟨row, precedes.revocations member, same⟩

theorem take {since : Nat} (past : since ≤ stores.happened.length) :
    later.happened.take since = stores.happened.take since := by
  rcases precedes.happened with ⟨rest, equal⟩
  rw [← equal, List.take_append_of_le_length past]

theorem length : stores.happened.length ≤ later.happened.length :=
  precedes.happened.length_le

end

end Stores.Precedes

/-! ## Changes of the stores -/

section Changes

variable {settings : SessionSettings} {stores : Stores}

section

variable (regular : stores.Regular settings)
include regular

theorem Stores.Regular.same
    {left right : TokenClaims} (inLeft : left ∈ stores.tokens)
    (inRight : right ∈ stores.tokens) (equal : left.jti = right.jti) :
    left = right :=
  List.inj_on_of_nodup_map regular.jtis inLeft inRight equal

theorem Stores.Regular.below (family : Nat) {happening : Happening}
    (member : happening ∈ stores.happened) (ends : happening.Ends family) :
    family < stores.drawn := by
  have holds := regular.happened happening member
  cases happening with
  | accepted | left | consumed => exact ends.elim
  | loggedOut other since =>
      cases ends
      rcases regular.happened _ holds.1 with ⟨_, ⟨claims, inside, same, _⟩, _⟩
      exact same ▸ (regular.drawn claims inside).2
  | rotated other successor =>
      cases ends
      rcases holds.1 with ⟨claims, inside, same, _⟩
      exact same ▸ (regular.drawn claims inside).2

/-- The stores may forget nothing that is still needed, and learn rows that
outlive their tokens. -/
theorem Stores.Regular.update
    (jtis families : List RedisKey) {rows : List TokenRevocation}
    (known : settings.redis = true → ∀ jti, stores.Spent settings jti →
      ∀ claims ∈ stores.tokens, claims.jti = jti → stores.now < claims.exp →
        ∃ key ∈ jtis, key.name = jti ∧ claims.exp ≤ key.expiresAt)
    (held : ∀ family, stores.RedisHolds family →
      ({ stores with redisFamilies := families } : Stores).RedisHolds family)
    (kept : stores.revocations ⊆ rows)
    (outlive : ∀ row ∈ rows, row ∉ stores.revocations → stores.Outlives row) :
    ({ stores with
      redisJtis := jtis
      redisFamilies := families
      revocations := rows } : Stores).Regular settings ∧
    stores.Precedes { stores with
      redisJtis := jtis
      redisFamilies := families
      revocations := rows } := by
  have revoked : ∀ {jti : Nat}, stores.Revoked jti →
      ∃ row ∈ rows, row.jti = jti := by
    rintro jti ⟨row, member, same⟩
    exact ⟨row, kept member, same⟩
  refine ⟨⟨regular.drawn, regular.jtis, regular.lifetime, regular.paired, ?_, ?_,
    regular.once⟩, ⟨le_refl _, le_refl _, List.Subset.refl _, kept,
    List.prefix_refl _, fun family _ holds => held family holds⟩⟩
  · intro row member
    by_cases old : row ∈ stores.revocations
    · exact regular.rows row old
    · exact outlive row member old
  · intro happening member
    have holds := regular.happened happening member
    cases happening with
    | accepted claims since time => exact holds
    | left family since =>
        rcases holds with ⟨past, ⟨claims, inside, same, access, row⟩, unrotated⟩
        exact ⟨past, ⟨claims, inside, same, access, revoked row⟩, unrotated⟩
    | loggedOut family since =>
        exact ⟨holds.1, fun configured => held family (holds.2 configured)⟩
    | rotated family successor =>
        rcases holds with ⟨⟨claims, inside, same, row⟩, redis⟩
        exact ⟨⟨claims, inside, same, revoked row⟩,
          fun configured => held family (redis configured)⟩
    | consumed jti =>
        exact ⟨holds.refresh, fun configured => known configured jti holds,
          fun absent => revoked (holds.inDb absent)⟩

theorem Stores.Regular.record
    (happening : Happening) (holds : happening.Holds settings stores)
    (fresh : ∀ jti, happening = .consumed jti →
      .consumed jti ∉ stores.happened)
    (unrotated : ∀ family successor, happening = .rotated family successor →
      ∀ since, .left family since ∉ stores.happened) :
    (stores.record happening).Regular settings ∧
      stores.Precedes (stores.record happening) := by
  have grows : ∀ {since : Nat}, since ≤ stores.happened.length →
      since ≤ (stores.happened ++ [happening]).length := fun past =>
    past.trans (List.length_append ▸ Nat.le_add_right _ _)
  have alive : ∀ {family since : Nat}, since ≤ stores.happened.length →
      stores.Alive family since →
        (stores.record happening).Alive family since := by
    intro family since past alive other member
    have inside : other ∈ stores.happened.take since := by
      rw [← List.take_append_of_le_length past]
      exact member
    exact alive other inside
  refine ⟨⟨regular.drawn, regular.jtis, regular.lifetime, regular.paired,
    regular.rows, ?_, ?_⟩, ⟨le_refl _, le_refl _, List.Subset.refl _,
    List.Subset.refl _, List.prefix_append _ _, fun _ _ held => held⟩⟩
  · intro other member
    rcases List.mem_append.1 member with old | new
    · have held := regular.happened other old
      cases other with
      | accepted claims since time =>
          exact ⟨grows held.1, fun valid => alive held.1 (held.2 valid)⟩
      | left family since =>
          refine ⟨grows held.1, held.2.1, fun successor rotated => ?_⟩
          have dropped : (stores.happened ++ [happening]).drop since =
              stores.happened.drop since ++ [happening] :=
            List.drop_append_of_le_length held.1
          rw [show (stores.record happening).happened.drop since = _ from
            dropped] at rotated
          rcases List.mem_append.1 rotated with before | last
          · exact held.2.2 successor before
          · exact unrotated family successor (List.mem_singleton.1 last).symm
              since old
      | loggedOut family since =>
          exact ⟨List.mem_append_left _ held.1, held.2⟩
      | rotated family successor => exact held
      | consumed jti => exact ⟨held.refresh, held.inRedis, held.inDb⟩
    · rcases List.mem_singleton.1 new with rfl
      cases other with
      | accepted claims since time =>
          exact ⟨grows holds.1, fun valid => alive holds.1 (holds.2 valid)⟩
      | left family since =>
          refine ⟨grows holds.1, holds.2.1, fun successor rotated => ?_⟩
          have dropped :
              (stores.happened ++ [Happening.left family since]).drop since =
                stores.happened.drop since ++ [.left family since] :=
            List.drop_append_of_le_length holds.1
          rw [show (stores.record (.left family since)).happened.drop since = _
            from dropped] at rotated
          rcases List.mem_append.1 rotated with before | last
          · exact holds.2.2 successor before
          · cases List.mem_singleton.1 last
      | loggedOut family since =>
          exact ⟨List.mem_append_left _ holds.1, holds.2⟩
      | rotated family successor => exact holds
      | consumed jti => exact ⟨holds.refresh, holds.inRedis, holds.inDb⟩
  · intro jti
    show (stores.happened ++ [happening]).count (.consumed jti) ≤ 1
    rw [List.count_append, List.count_singleton]
    by_cases same : happening = .consumed jti
    · have none := List.count_eq_zero.2 (fresh jti same)
      simp [same, none]
    · simpa [same] using regular.once jti

theorem Stores.Regular.sign
    (short : settings.accessTtl + leeway < refreshTokenTtlSeconds) :
    (stores.issueTokens settings none).Regular settings ∧
      stores.Precedes (stores.issueTokens settings none) := by
  have tokens : ∀ {claims : TokenClaims},
      claims ∈ (stores.issueTokens settings none).tokens →
        claims ∈ stores.tokens ∨ claims.tokenFamily = stores.drawn ∧
          stores.drawn < claims.jti ∧ claims.jti < stores.drawn + 3 ∧
          (claims.tokenType = .access →
            claims.exp = stores.now + settings.accessTtl) ∧
          (claims.tokenType = .refresh →
            claims.exp = stores.now + refreshTokenTtlSeconds) ∧
          claims.exp ≤ stores.now + refreshTokenTtlSeconds := by
    intro claims member
    rcases List.mem_append.1 member with old | new
    · exact .inl old
    · right
      have positive : (0 : Int) ≤ leeway := by decide
      have within : settings.accessTtl ≤ refreshTokenTtlSeconds := by omega
      rcases List.mem_cons.1 new with rfl | new
      · exact ⟨rfl, by simp, by simp, fun _ => rfl, by simp, 
          Int.add_le_add_left within _⟩
      · rcases List.mem_singleton.1 new with rfl
        exact ⟨rfl, by simp, by simp, by simp, fun _ => rfl, le_refl _⟩
  have old : ∀ {claims : TokenClaims} {family : Nat},
      claims ∈ (stores.issueTokens settings none).tokens →
        claims.tokenFamily = family → family < stores.drawn →
          claims ∈ stores.tokens := by
    intro claims family member same below
    rcases tokens member with old | ⟨fresh, _⟩
    · exact old
    · exact absurd (same.symm.trans fresh) below.ne
  have held : ∀ family < stores.drawn, stores.RedisHolds family →
      (stores.issueTokens settings none).RedisHolds family := by
    intro family below holds claims member same valid
    exact holds claims (old member same below) same valid
  have unchanged : (stores.issueTokens settings none).happened =
      stores.happened := List.append_nil _
  refine ⟨⟨?_, ?_, ?_, ?_, ?_, ?_, ?_⟩, ⟨le_refl _, Nat.le_add_right _ _,
    List.subset_append_left _ _, List.Subset.refl _,
    unchanged ▸ List.prefix_refl _, held⟩⟩
  · intro claims member
    show claims.jti < stores.drawn + 3 ∧ claims.tokenFamily < stores.drawn + 3
    rcases tokens member with before | ⟨family, _, above, _⟩
    · have drawn := regular.drawn claims before
      omega
    · omega
  · show ((stores.tokens ++ _).map TokenClaims.jti).Nodup
    rw [List.map_append, List.nodup_append]
    refine ⟨regular.jtis, by simp, ?_⟩
    intro earlier member jti new
    rcases List.mem_map.1 member with ⟨claims, inside, rfl⟩
    have below := (regular.drawn claims inside).1
    simp only [List.map_cons, List.map_nil, List.mem_cons, List.not_mem_nil,
      or_false] at new
    omega
  · intro claims member
    show claims.exp ≤ stores.now + refreshTokenTtlSeconds
    rcases tokens member with before | ⟨_, _, _, _, _, within⟩
    · exact regular.lifetime claims before
    · exact within
  · intro access inAccess refresh inRefresh same isAccess isRefresh
    rcases tokens inAccess with before | ⟨family, _, _, exp, _⟩
    · have below := (regular.drawn access before).2
      exact regular.paired access before refresh
        (old inRefresh same.symm below) same isAccess isRefresh
    · rcases tokens inRefresh with before | ⟨_, _, _, _, later, _⟩
      · have below := (regular.drawn refresh before).2
        exact absurd (same.symm.trans family) below.ne
      · rw [exp isAccess, later isRefresh, Int.add_assoc]
        exact Int.add_lt_add_left short _
  · intro row member
    rcases regular.rows row member with ⟨claims, inside, named, same, outlives⟩
    refine ⟨claims, List.mem_append_left _ inside, named, same, ?_⟩
    intro other found family
    have below := (regular.drawn claims inside).2
    exact outlives other (old found family (same ▸ below)) family
  · intro happening member
    rw [unchanged] at member
    have holds := regular.happened happening member
    cases happening with
    | accepted claims since time =>
        show since ≤ (stores.issueTokens settings none).happened.length ∧
          (_ → ∀ other ∈ (stores.issueTokens settings none).happened.take since,
            _)
        rw [unchanged]
        exact holds
    | left family since =>
        rcases holds with ⟨past, ⟨claims, inside, rest⟩, unrotated⟩
        refine ⟨unchanged ▸ past,
          ⟨claims, List.mem_append_left _ inside, rest⟩, ?_⟩
        rw [unchanged]
        exact unrotated
    | loggedOut family since =>
        have below := regular.below family member rfl
        exact ⟨unchanged.symm ▸ holds.1,
          fun configured => held family below (holds.2 configured)⟩
    | rotated family successor =>
        have below := regular.below family member rfl
        rcases holds with ⟨⟨claims, inside, rest⟩, redis⟩
        exact ⟨⟨claims, List.mem_append_left _ inside, rest⟩,
          fun configured => held family below (redis configured)⟩
    | consumed jti =>
        rcases holds.refresh with ⟨spent, inside, named, refresh⟩
        refine ⟨⟨spent, List.mem_append_left _ inside, named, refresh⟩, ?_,
          holds.inDb⟩
        intro configured claims found same
        have below := (regular.drawn spent inside).1
        rcases tokens found with before | ⟨_, above, _⟩
        · exact holds.inRedis configured claims before same
        · omega
  · intro jti
    rw [unchanged]
    exact regular.once jti

theorem Stores.Regular.elapse
    (duration : Nat) :
    ({ stores with now := stores.now + duration } : Stores).Regular settings ∧
      stores.Precedes { stores with now := stores.now + duration } := by
  have later : stores.now ≤ stores.now + duration :=
    Int.le_add_of_nonneg_right (Int.natCast_nonneg duration)
  have held : ∀ family, stores.RedisHolds family →
      ({ stores with now := stores.now + duration } :
        Stores).RedisHolds family :=
    fun family holds claims member same valid =>
      holds claims member same (later.trans valid)
  refine ⟨⟨regular.drawn, regular.jtis, ?_, regular.paired, regular.rows, ?_,
    regular.once⟩, ⟨later, le_refl _, List.Subset.refl _, List.Subset.refl _,
    List.prefix_refl _, fun family _ holds => held family holds⟩⟩
  · intro claims member
    have before := regular.lifetime claims member
    exact before.trans (Int.add_le_add_right later _)
  · intro happening member
    have holds := regular.happened happening member
    cases happening with
    | accepted | left => exact holds
    | loggedOut family since | rotated family successor =>
        exact ⟨holds.1, fun configured => held family (holds.2 configured)⟩
    | consumed jti =>
        exact ⟨holds.refresh, fun configured claims inside same valid =>
          holds.inRedis configured claims inside same
            (lt_of_le_of_lt later valid), holds.inDb⟩

end

end Changes

end FireCrow.Services.Sessions
