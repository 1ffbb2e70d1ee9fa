import FireCrow.Services.EgressPolicy

/-!
# Ranges and embeddings

The verdict on an address by the networks that it stands in.  An IPv6 address
can carry an IPv4 address in four forms, of which the policy sees through one.
-/

namespace FireCrow.Services.Egress

open FireCrow.Library

/-! ## Networks -/

/-- The address stands in one of some IPv4 networks. -/
def InV4 (networks : List (List Nat × Nat)) (address : Ipv4Addr) : Prop :=
  ∃ network ∈ networks,
    IpAddr.InNetwork (.v4 address) (.v4 (Ipv4Addr.ofOctets network.1)) network.2

/-- The address stands in one of some IPv6 networks. -/
def InV6 (networks : List (List Nat × Nat)) (address : Ipv6Addr) : Prop :=
  ∃ network ∈ networks,
    IpAddr.InNetwork (.v6 address) (.v6 (Ipv6Addr.ofSegments network.1)) network.2

/-- The IPv4 networks that the policy blocks. -/
def blockedV4 : List (List Nat × Nat) :=
  [([0, 0, 0, 0], 8), ([10, 0, 0, 0], 8), ([100, 64, 0, 0], 10),
    ([127, 0, 0, 0], 8), ([169, 254, 0, 0], 16), ([172, 16, 0, 0], 12),
    ([192, 0, 2, 0], 24), ([192, 168, 0, 0], 16), ([198, 51, 100, 0], 24),
    ([203, 0, 113, 0], 24), ([224, 0, 0, 0], 3)]

/-- Reserved IPv4 networks that it lets pass: protocol assignments, relays and
benchmarks. -/
def missedV4 : List (List Nat × Nat) :=
  [([192, 0, 0, 0], 24), ([192, 88, 99, 0], 24), ([198, 18, 0, 0], 15)]

/-- The IPv6 networks that the policy blocks. -/
def blockedV6 : List (List Nat × Nat) :=
  [([0, 0, 0, 0, 0, 0, 0, 0], 128), ([0, 0, 0, 0, 0, 0, 0, 1], 128),
    ([0xFC00, 0, 0, 0, 0, 0, 0, 0], 7), ([0xFE80, 0, 0, 0, 0, 0, 0, 0], 10),
    ([0xFF00, 0, 0, 0, 0, 0, 0, 0], 8), ([0x2001, 0xDB8, 0, 0, 0, 0, 0, 0], 32)]

/-- Reserved networks among the global addresses that it lets pass: protocol
assignments and a second range for documentation. -/
def missedV6 : List (List Nat × Nat) :=
  [([0x2001, 0, 0, 0, 0, 0, 0, 0], 23), ([0x3FFF, 0, 0, 0, 0, 0, 0, 0], 20)]

/-- The forms in which an IPv6 address carries an IPv4 address. -/
inductive Embedding where
  | mapped
  | compatible
  | nat64
  | sixToFour
deriving DecidableEq

namespace Embedding

/-- The network of a form. -/
def network : Embedding → List Nat × Nat
  | .mapped => ([0, 0, 0, 0, 0, 0xFFFF, 0, 0], 96)
  | .compatible => ([0, 0, 0, 0, 0, 0, 0, 0], 96)
  | .nat64 => ([0x64, 0xFF9B, 0, 0, 0, 0, 0, 0], 96)
  | .sixToFour => ([0x2002, 0, 0, 0, 0, 0, 0, 0], 16)

/-- The bits behind the IPv4 address. -/
def behind : Embedding → Nat
  | .sixToFour => 80
  | _ => 0

end Embedding

/-- An IPv6 address carries an IPv4 address in a form. -/
structure Carries (form : Embedding) (address : Ipv6Addr) (inner : Ipv4Addr) :
    Prop where
  inside : InV6 [form.network] address
  carried : inner.toNat = address.toNat / 2 ^ form.behind % 2 ^ 32

/-- An address outside the global block that carries no IPv4 address. -/
structure OutsideGlobal (address : Ipv6Addr) : Prop where
  outside : ¬ InV6 [([0x2000, 0, 0, 0, 0, 0, 0, 0], 3)] address
  bare : ∀ form inner, ¬ Carries form address inner

/-- An address in a private, loopback, link-local, multicast, documentation,
shared or reserved range. -/
def Special : IpAddr → Prop
  | .v4 address => InV4 (blockedV4 ++ missedV4) address
  | .v6 address => InV6 (blockedV6 ++ missedV6) address ∨ OutsideGlobal address

/-- An address is blocked with what it carries, and in a special range. -/
structure Guarded (address : IpAddr) : Prop where
  embedded : ∀ outer form inner, address = .v6 outer → Carries form outer inner →
    evaluateIp (.v4 inner) ≠ .allow → evaluateIp address ≠ .allow
  special : Special address → evaluateIp address ≠ .allow

variable {address : Ipv6Addr}

theorem inV6_single {network : List Nat × Nat} :
    InV6 [network] address ↔
      address.toNat / 2 ^ (128 - network.2) =
        (Ipv6Addr.ofSegments network.1).toNat / 2 ^ (128 - network.2) := by
  simp [InV6, IpAddr.InNetwork]

/-! ## IPv4 verdicts -/

theorem block_ite_eq_allow {condition : Prop} [Decidable condition]
    {reason : Text} {other : EgressDecision} :
    (if condition then .block reason else other) = EgressDecision.allow ↔
      ¬ condition ∧ other = .allow := by
  by_cases holds : condition <;> simp [holds]

theorem inV4_blocked (address : Ipv4Addr) :
    InV4 blockedV4 address ↔
      address.toNat / 2 ^ 24 = 0 ∨ address.toNat / 2 ^ 24 = 10 ∨
        address.toNat / 2 ^ 22 = 401 ∨ address.toNat / 2 ^ 24 = 127 ∨
          address.toNat / 2 ^ 16 = 43518 ∨ address.toNat / 2 ^ 20 = 2753 ∨
            address.toNat / 2 ^ 8 = 12582914 ∨ address.toNat / 2 ^ 16 = 49320 ∨
              address.toNat / 2 ^ 8 = 12989284 ∨
                address.toNat / 2 ^ 8 = 13303921 ∨ address.toNat / 2 ^ 29 = 7 := by
  simp [InV4, blockedV4, IpAddr.InNetwork, Ipv4Addr.ofOctets]

section Octets

variable (address : Ipv4Addr)

theorem leading_octets :
    address.toNat / 2 ^ 24 = address.octet 0 ∧
      address.toNat / 2 ^ 16 = address.octet 0 * 256 + address.octet 1 ∧
        address.toNat / 2 ^ 8 =
          (address.octet 0 * 256 + address.octet 1) * 256 + address.octet 2 := by
  have small := address.isLt
  simp only [Ipv4Addr.octet]
  omega

theorem octet_lt (index : Nat) : address.octet index < 256 :=
  Nat.mod_lt _ (by decide)

theorem octet0_eq_iff (first : Nat) :
    address.octet 0 = first ↔ address.toNat / 2 ^ 24 = first := by
  rw [(leading_octets address).1]

theorem octet01_eq_iff {first second : Nat} (small : second < 256) :
    (address.octet 0 = first ∧ address.octet 1 = second) ↔
      address.toNat / 2 ^ 16 = first * 256 + second := by
  have bound := octet_lt address 1
  rw [(leading_octets address).2.1]
  omega

theorem octet012_eq_iff {first second third : Nat} (small : second < 256)
    (smallThird : third < 256) :
    ((address.octet 0 = first ∧ address.octet 1 = second) ∧
        address.octet 2 = third) ↔
      address.toNat / 2 ^ 8 = (first * 256 + second) * 256 + third := by
  have bound := octet_lt address 1
  have boundThird := octet_lt address 2
  rw [(leading_octets address).2.2]
  omega

/-- `172.16.0.0/12`. -/
theorem octet1_sixteenth_iff :
    (address.octet 0 = 172 ∧ address.octet 1 / 16 = 1) ↔
      address.toNat / 2 ^ 20 = 2753 := by
  have bound := octet_lt address 1
  have joined := (leading_octets address).2.1
  have shorter : address.toNat / 2 ^ 20 = address.toNat / 2 ^ 16 / 16 := by
    rw [Nat.div_div_eq_div_mul]
    rfl
  rw [shorter, joined]
  omega

/-- `100.64.0.0/10`. -/
theorem octet1_quarter_iff :
    (address.octet 0 = 100 ∧ address.octet 1 / 64 = 1) ↔
      address.toNat / 2 ^ 22 = 401 := by
  have bound := octet_lt address 1
  have joined := (leading_octets address).2.1
  have shorter : address.toNat / 2 ^ 22 = address.toNat / 2 ^ 16 / 64 := by
    rw [Nat.div_div_eq_div_mul]
    rfl
  rw [shorter, joined]
  omega

theorem octet0_high_iff :
    224 ≤ address.octet 0 ↔ address.toNat / 2 ^ 29 = 7 := by
  have bound := octet_lt address 0
  have shorter : address.toNat / 2 ^ 29 = address.toNat / 2 ^ 24 / 32 := by
    rw [Nat.div_div_eq_div_mul]
    rfl
  rw [shorter, (leading_octets address).1]
  omega

/-- An address that is looked up by itself is in the network of a later rule. -/
theorem single_in_network {octets : List Nat} {bits : Nat}
    (same : address = Ipv4Addr.ofOctets octets) :
    address.toNat / 2 ^ bits = (Ipv4Addr.ofOctets octets).toNat / 2 ^ bits := by
  rw [same]

theorem evaluateIpv4_allow_iff :
    evaluateIpv4 address = .allow ↔ ¬ InV4 blockedV4 address := by
  have broadcast : address.isBroadcast = true → address.toNat / 2 ^ 29 = 7 :=
    fun all => single_in_network address (of_decide_eq_true all)
  have unspecified : address.isUnspecified = true → address.toNat / 2 ^ 24 = 0 :=
    fun all => single_in_network address (of_decide_eq_true all)
  have metadata : address = Ipv4Addr.ofOctets [169, 254, 169, 254] →
      address.toNat / 2 ^ 16 = 43518 :=
    fun all => single_in_network address all
  rw [inV4_blocked]
  simp only [evaluateIpv4, block_ite_eq_allow, Ipv4Addr.isLoopback,
    Ipv4Addr.isLinkLocal, Ipv4Addr.isPrivate, Bool.or_eq_true, Bool.and_eq_true,
    decide_eq_true_eq, octet012_eq_iff address (by decide : 0 < 256)
      (by decide : 2 < 256), octet012_eq_iff address (by decide : 51 < 256)
      (by decide : 100 < 256), octet012_eq_iff address (by decide : 0 < 256)
      (by decide : 113 < 256), octet01_eq_iff address (by decide : 254 < 256),
    octet01_eq_iff address (by decide : 168 < 256), octet1_sixteenth_iff,
    octet1_quarter_iff, octet0_high_iff]
  simp only [octet0_eq_iff, Nat.reduceMul, Nat.reduceAdd, not_or, and_true]
  constructor
  · rintro ⟨loopback, ⟨linkLocal, _⟩, ⟨⟨ten, oneSevenTwo⟩, oneNineTwo⟩, _, scope,
      ⟨⟨testOne, testTwo⟩, testThree⟩, shared, high⟩
    exact ⟨scope, ten, shared, loopback, linkLocal, oneSevenTwo, testOne,
      oneNineTwo, testTwo, testThree, high⟩
  · rintro ⟨scope, ten, shared, loopback, linkLocal, oneSevenTwo, testOne,
      oneNineTwo, testTwo, testThree, high⟩
    exact ⟨loopback, ⟨linkLocal, fun same => linkLocal (metadata same)⟩,
      ⟨⟨ten, oneSevenTwo⟩, oneNineTwo⟩,
      ⟨fun all => high (broadcast all), fun all => scope (unspecified all)⟩, scope,
      ⟨⟨testOne, testTwo⟩, testThree⟩, shared, high⟩

end Octets

/-! ## IPv6 verdicts -/

theorem inV6_blocked (address : Ipv6Addr) :
    InV6 blockedV6 address ↔
      address.toNat = 0 ∨ address.toNat = 1 ∨ address.toNat / 2 ^ 121 = 126 ∨
        address.toNat / 2 ^ 118 = 1018 ∨ address.toNat / 2 ^ 120 = 255 ∨
          address.toNat / 2 ^ 96 = 0x20010DB8 := by
  simp [InV6, blockedV6, IpAddr.InNetwork, Ipv6Addr.ofSegments]

theorem leading_segments (address : Ipv6Addr) :
    address.toNat / 2 ^ 112 = address.segment 0 ∧
      address.toNat / 2 ^ 96 =
        address.segment 0 * 65536 + address.segment 1 := by
  have small := address.isLt
  simp only [Ipv6Addr.segment]
  omega

theorem segment_lt (address : Ipv6Addr) (index : Nat) :
    address.segment index < 65536 :=
  Nat.mod_lt _ (by decide)

theorem evaluateIp_allow_iff (unmapped : address.toIpv4Mapped = none) :
    evaluateIp (.v6 address) = .allow ↔ ¬ InV6 blockedV6 address := by
  have loopback : address.isLoopback = true ↔ address.toNat = 1 := by
    rw [Ipv6Addr.isLoopback, decide_eq_true_eq, ← BitVec.toNat_inj]
    rfl
  have unspecified : address.isUnspecified = true ↔ address.toNat = 0 := by
    rw [Ipv6Addr.isUnspecified, decide_eq_true_eq, ← BitVec.toNat_inj]
    rfl
  have linkLocal : address.isUnicastLinkLocal = true ↔
      address.toNat / 2 ^ 118 = 1018 := by
    have shorter : address.toNat / 2 ^ 118 = address.toNat / 2 ^ 112 / 64 := by
      rw [Nat.div_div_eq_div_mul]
      rfl
    rw [Ipv6Addr.isUnicastLinkLocal, decide_eq_true_eq, shorter,
      (leading_segments address).1]
  have uniqueLocal : address.isUniqueLocal = true ↔
      address.toNat / 2 ^ 121 = 126 := by
    have shorter : address.toNat / 2 ^ 121 = address.toNat / 2 ^ 112 / 512 := by
      rw [Nat.div_div_eq_div_mul]
      rfl
    rw [Ipv6Addr.isUniqueLocal, decide_eq_true_eq, shorter,
      (leading_segments address).1]
  have multicast : address.isMulticast = true ↔
      address.toNat / 2 ^ 120 = 255 := by
    have shorter : address.toNat / 2 ^ 120 = address.toNat / 2 ^ 112 / 256 := by
      rw [Nat.div_div_eq_div_mul]
      rfl
    rw [Ipv6Addr.isMulticast, decide_eq_true_eq, shorter,
      (leading_segments address).1]
  have documentation : (address.segment 0 = 0x2001 ∧ address.segment 1 = 0x0DB8) ↔
      address.toNat / 2 ^ 96 = 0x20010DB8 := by
    have bound := segment_lt address 1
    rw [(leading_segments address).2]
    omega
  rw [inV6_blocked]
  simp only [evaluateIp, unmapped, block_ite_eq_allow, Bool.or_eq_true,
    Bool.and_eq_true, decide_eq_true_eq, loopback, unspecified, linkLocal,
    uniqueLocal, multicast, documentation, not_or, and_true]
  constructor
  · rintro ⟨one, zero, near, unique, many, sample⟩
    exact ⟨zero, one, unique, near, many, sample⟩
  · rintro ⟨zero, one, unique, near, many, sample⟩
    exact ⟨one, zero, near, unique, many, sample⟩

/-! ## Addresses that carry another -/

theorem inV4_append {front back : List (List Nat × Nat)} {address : Ipv4Addr} :
    InV4 (front ++ back) address ↔ InV4 front address ∨ InV4 back address := by
  simp only [InV4, List.mem_append, or_and_right, exists_or]

theorem inV6_append {front back : List (List Nat × Nat)} :
    InV6 (front ++ back) address ↔ InV6 front address ∨ InV6 back address := by
  simp only [InV6, List.mem_append, or_and_right, exists_or]

theorem inV4_missed (address : Ipv4Addr) :
    InV4 missedV4 address ↔
      address.toNat / 2 ^ 8 = 12582912 ∨ address.toNat / 2 ^ 8 = 12605539 ∨
        address.toNat / 2 ^ 17 = 25353 := by
  simp [InV4, missedV4, IpAddr.InNetwork, Ipv4Addr.ofOctets]

theorem inV6_missed (address : Ipv6Addr) :
    InV6 missedV6 address ↔
      address.toNat / 2 ^ 105 = 0x100080 ∨ address.toNat / 2 ^ 108 = 0x3FFF0 := by
  simp [InV6, missedV6, IpAddr.InNetwork, Ipv6Addr.ofSegments]

/-- The missed networks and the blocked ones do not meet. -/
theorem missedV4_not_blocked {address : Ipv4Addr}
    (missed : InV4 missedV4 address) : ¬ InV4 blockedV4 address := by
  rw [inV4_missed] at missed
  rw [inV4_blocked]
  have small := address.isLt
  generalize address.toNat = number at missed small ⊢
  have leading : number / 2 ^ 8 = 12582912 ∨ number / 2 ^ 8 = 12605539 ∨
      number / 2 ^ 17 = 25353 → (number / 2 ^ 16 = 49152 ∧ number / 2 ^ 8 = 12582912) ∨
        number / 2 ^ 16 = 49240 ∨ number / 2 ^ 17 = 25353 := by omega
  rcases leading missed with both | relay | benchmark
  · omega
  · omega
  · omega

variable {inner : Ipv4Addr}

theorem carries_mapped_iff :
    Carries .mapped address inner ↔ address.toIpv4Mapped = some inner := by
  have network : InV6 [Embedding.mapped.network] address ↔
      address.toNat / 2 ^ 32 = 0xFFFF := inV6_single
  rw [Ipv6Addr.toIpv4Mapped]
  constructor
  · rintro ⟨inside, carried⟩
    rw [if_pos (network.1 inside), Option.some.injEq]
    apply BitVec.eq_of_toNat_eq
    rw [BitVec.toNat_ofNat, carried]
    show address.toNat % 2 ^ 32 % 2 ^ 32 = address.toNat / 2 ^ 0 % 2 ^ 32
    omega
  · intro mapped
    split at mapped
    · rename_i inside
      refine ⟨network.2 inside, ?_⟩
      rw [← Option.some.inj mapped, BitVec.toNat_ofNat]
      show _ = address.toNat / 2 ^ 0 % 2 ^ 32
      omega
    · cases mapped

theorem form_eq_mapped {form : Embedding}
    {inner other : Ipv4Addr} (mapped : Carries .mapped address inner)
    (carried : Carries form address other) : form = .mapped := by
  have inside := inV6_single.1 mapped.inside
  have there := inV6_single.1 carried.inside
  change address.toNat / 2 ^ 32 = 0xFFFF at inside
  cases form with
  | mapped => rfl
  | compatible =>
      change address.toNat / 2 ^ 32 = 0 at there
      omega
  | nat64 =>
      change address.toNat / 2 ^ 32 = 0x64FF9B0000000000000000 at there
      omega
  | sixToFour =>
      change address.toNat / 2 ^ 112 = 0x2002 at there
      omega

theorem mapped_not_listed (mapped : Carries .mapped address inner) :
    ¬ InV6 blockedV6 address ∧ ¬ InV6 missedV6 address := by
  have inside := inV6_single.1 mapped.inside
  change address.toNat / 2 ^ 32 = 0xFFFF at inside
  rw [inV6_blocked, inV6_missed]
  generalize address.toNat = number at inside ⊢
  constructor
  · omega
  · omega

theorem evaluateIp_mapped (mapped : Carries .mapped address inner) :
    evaluateIp (.v6 address) = evaluateIpv4 inner := by
  have listed := (mapped_not_listed mapped).1
  rw [inV6_blocked, not_or, not_or] at listed
  have loopback : ¬ address.isLoopback = true := by
    intro same
    exact listed.2.1 (congrArg BitVec.toNat (of_decide_eq_true same))
  have unspecified : ¬ address.isUnspecified = true := by
    intro same
    exact listed.1 (congrArg BitVec.toNat (of_decide_eq_true same))
  rw [evaluateIp, if_neg loopback, if_neg unspecified, carries_mapped_iff.1 mapped]

/-! ## What the policy misses -/

/-- The addresses that the policy lets pass: reserved networks, IPv6 addresses
outside the global block, and those that carry a blocked address in a form that
the policy does not see through. -/
def Missed : IpAddr → Prop
  | .v4 address => InV4 missedV4 address
  | .v6 address => ¬ InV6 blockedV6 address ∧
      (InV6 missedV6 address ∨ OutsideGlobal address ∨
        ∃ form inner, form ≠ .mapped ∧ Carries form address inner ∧
          InV4 blockedV4 inner)

theorem evaluateIp_v4_allow_iff (address : Ipv4Addr) :
    evaluateIp (.v4 address) = .allow ↔ ¬ InV4 blockedV4 address :=
  evaluateIpv4_allow_iff address

theorem guarded_v4_iff (address : Ipv4Addr) :
    Guarded (.v4 address) ↔ ¬ InV4 missedV4 address := by
  constructor
  · intro guarded missed
    refine guarded.special (inV4_append.2 (Or.inr missed)) ?_
    exact (evaluateIp_v4_allow_iff _).2 (missedV4_not_blocked missed)
  · intro plain
    refine ⟨fun outer _ _ same => ?_, fun special allowed => ?_⟩
    · cases same
    rcases inV4_append.1 special with blocked | missed
    · exact (evaluateIp_v4_allow_iff _).1 allowed blocked
    · exact plain missed

theorem guarded_mapped
    (mapped : Carries .mapped address inner) : Guarded (.v6 address) := by
  have listed := mapped_not_listed mapped
  constructor
  · intro outer form other same carried blocked
    cases same
    cases form_eq_mapped mapped carried
    rwa [evaluateIp_mapped carried]
  · rintro (special | outside)
    · rcases inV6_append.1 special with blocked | missed
      · exact absurd blocked listed.1
      · exact absurd missed listed.2
    · exact absurd mapped (outside.bare _ _)

theorem guarded_unmapped_iff (unmapped : address.toIpv4Mapped = none) :
    Guarded (.v6 address) ↔ ¬ Missed (.v6 address) := by
  have verdict := evaluateIp_allow_iff unmapped
  constructor
  · rintro guarded ⟨passed, missed | outside | ⟨form, inner, _, carried, blocked⟩⟩
    · exact guarded.special (Or.inl (inV6_append.2 (Or.inr missed)))
        (verdict.2 passed)
    · exact guarded.special (Or.inr outside) (verdict.2 passed)
    · refine guarded.embedded address form inner rfl carried ?_ (verdict.2 passed)
      rw [ne_eq, evaluateIp_v4_allow_iff, not_not]
      exact blocked
  · intro plain
    constructor
    · intro outer form inner same carried blocked allowed
      cases same
      rw [ne_eq, evaluateIp_v4_allow_iff, not_not] at blocked
      refine plain ⟨verdict.1 allowed, Or.inr (Or.inr ⟨form, inner, ?_, carried,
        blocked⟩)⟩
      rintro rfl
      rw [carries_mapped_iff, unmapped] at carried
      cases carried
    · intro special allowed
      have passed := verdict.1 allowed
      rcases special with listed | outside
      · rcases inV6_append.1 listed with blocked | missed
        · exact passed blocked
        · exact plain ⟨passed, Or.inl missed⟩
      · exact plain ⟨passed, Or.inr (Or.inl outside)⟩

/-- The policy blocks an address with what it carries and every special range,
but for what it misses. -/
theorem guarded_iff (address : IpAddr) : Guarded address ↔ ¬ Missed address := by
  cases address with
  | v4 address => exact guarded_v4_iff address
  | v6 address =>
      cases mapped : address.toIpv4Mapped with
      | none => exact guarded_unmapped_iff mapped
      | some inner =>
          have carried := carries_mapped_iff.2 mapped
          refine iff_of_true (guarded_mapped carried) ?_
          rintro ⟨_, missed | outside | ⟨form, other, unlike, there, _⟩⟩
          · exact (mapped_not_listed carried).2 missed
          · exact outside.bare _ _ carried
          · exact unlike (form_eq_mapped carried there)

/-- The metadata service behind the prefix of a translator. -/
theorem translated_metadata_allowed : ¬ ∀ address, Guarded address := by
  intro claim
  have carried : Carries .nat64
      (Ipv6Addr.ofSegments [0x64, 0xFF9B, 0, 0, 0, 0, 0xA9FE, 0xA9FE])
      (Ipv4Addr.ofOctets [169, 254, 169, 254]) :=
    ⟨inV6_single.2 rfl, rfl⟩
  exact (claim _).embedded _ _ _ rfl carried (by decide +kernel)
    (by decide +kernel)

end FireCrow.Services.Egress
