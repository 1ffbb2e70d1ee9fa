import FireCrow.Middleware.Cloudflare

/-!
# Membership in a declared network

An entry of the list of proxies is a network and the length of its prefix.  A
mask of the prefix is made by a shift, and a shift by the whole width of an
address is none.
-/

namespace FireCrow.Middleware

open FireCrow.Library

/-- Two words agree without their low bits where they agree in all others. -/
theorem div_eq_iff_getMsbD {width bits : Nat} (inside : bits ≤ width)
    (left right : BitVec width) :
    left.toNat / 2 ^ (width - bits) = right.toNat / 2 ^ (width - bits) ↔
      ∀ index < bits, left.getMsbD index = right.getMsbD index := by
  have high (word : BitVec width) {index : Nat} (early : index < bits) :
      word.getMsbD index =
        (word.toNat / 2 ^ (width - bits)).testBit (bits - 1 - index) := by
    have place : width - bits + (bits - 1 - index) = width - 1 - index := by
      omega
    rw [Nat.testBit_div_two_pow, Nat.add_comm, place, BitVec.getMsbD,
      BitVec.getLsbD, decide_eq_true (lt_of_lt_of_le early inside),
      Bool.true_and]
  constructor
  · intro same index early
    rw [high left early, high right early, same]
  · intro agree
    apply Nat.eq_of_testBit_eq
    intro place
    by_cases early : place < bits
    · have back : bits - 1 - (bits - 1 - place) = place := by omega
      have there : bits - 1 - place < bits := by omega
      have same := agree _ there
      rw [high left there, high right there, back] at same
      exact same
    · -- above the prefix both quotients have no bit
      have none (word : BitVec width) :
          (word.toNat / 2 ^ (width - bits)).testBit place = false := by
        rw [Nat.testBit_div_two_pow]
        apply Nat.testBit_lt_two_pow
        exact lt_of_lt_of_le word.isLt
          (Nat.pow_le_pow_right Nat.two_pos (by omega))
      rw [none left, none right]

/-- The addresses are of one family and agree in their first bits. -/
def SharesBits (ip network : IpAddr) (bits : Nat) : Prop :=
  match ip, network with
  | .v4 ip, .v4 network =>
      ∀ index < bits, ip.getMsbD index = network.getMsbD index
  | .v6 ip, .v6 network =>
      ∀ index < bits, ip.getMsbD index = network.getMsbD index
  | _, _ => False

theorem sharesBits_iff {ip network : IpAddr} {bits : Nat}
    (inside : bits ≤ network.width) :
    SharesBits ip network bits ↔ ip.InNetwork network bits := by
  cases ip with
  | v4 ip =>
      cases network with
      | v4 network => exact (div_eq_iff_getMsbD inside ip network).symm
      | v6 network => exact Iff.rfl
  | v6 ip =>
      cases network with
      | v4 network => exact Iff.rfl
      | v6 network => exact (div_eq_iff_getMsbD inside ip network).symm

/-- By how much the mask of a prefix is shifted, where it is. -/
def maskShift (network : IpAddr) (bits : Nat) : Option Nat :=
  match network with
  | .v4 _ => if bits = 0 ∨ 32 ≤ bits then none else some (32 - bits)
  | .v6 _ => if 128 ≤ bits then none else some (128 - bits)

/-- An entry holds the addresses of its prefix, and its mask is made by a shift
within the width of an address. -/
structure ExactEntry (entry : IpAddr × Nat) : Prop where
  members : ∀ ip, ipInCidr ip entry.1 entry.2 = true ↔
    SharesBits ip entry.1 entry.2
  shift : ∀ amount ∈ maskShift entry.1 entry.2, amount < entry.1.width

theorem exactEntry_v4 (network : Ipv4Addr) {bits : Nat} (inside : bits ≤ 32) :
    ExactEntry (.v4 network, bits) := by
  constructor
  · intro ip
    rw [sharesBits_iff inside]
    cases ip with
    | v4 ip => exact cidrContainsV4_iff ip network bits
    | v6 ip => exact Bool.false_eq_true.to_iff
  · intro amount shifted
    simp only [maskShift, Option.mem_def] at shifted
    split at shifted
    · cases shifted
    · cases shifted
      show 32 - bits < 32
      omega

theorem exactEntry_v6 (network : Ipv6Addr) {bits : Nat} (inside : bits ≤ 128) :
    ExactEntry (.v6 network, bits) ↔ bits ≠ 0 := by
  constructor
  · rintro exact rfl
    exact absurd (exact.shift 128 rfl) (lt_irrefl _)
  · intro present
    constructor
    · intro ip
      rw [sharesBits_iff inside]
      cases ip with
      | v4 ip => exact Bool.false_eq_true.to_iff
      | v6 ip =>
          exact cidrContainsV6_iff ip network (Nat.pos_of_ne_zero present)
    · intro amount shifted
      simp only [maskShift, Option.mem_def] at shifted
      split at shifted
      · cases shifted
      · cases shifted
        show 128 - bits < 128
        omega

/-- An accepted entry is exact unless it is a version 6 network of no bits. -/
theorem cidr_membership_exact_iff {raw : Text} {trusted : List (IpAddr × Nat)}
    (parsed : parseTrustedProxyCidrs raw = .ok trusted)
    {entry : IpAddr × Nat} (member : entry ∈ trusted) :
    ExactEntry entry ↔ ¬ (entry.1.width = 128 ∧ entry.2 = 0) := by
  have inside := parseTrustedProxyCidrs_le parsed entry member
  rcases entry with ⟨network, bits⟩
  cases network with
  | v4 network =>
      refine iff_of_true (exactEntry_v4 network inside) ?_
      rintro ⟨wide, _⟩
      cases wide
  | v6 network =>
      rw [exactEntry_v6 network inside]
      exact not_congr (and_iff_right rfl).symm

theorem cidr_membership_exact_iff_private :
    ExactEntry (.v4 (Ipv4Addr.ofOctets [10, 0, 0, 0]), 8) ↔
      ¬ ((IpAddr.v4 (Ipv4Addr.ofOctets [10, 0, 0, 0])).width = 128 ∧ 8 = 0) :=
  cidr_membership_exact_iff
    (by decide +kernel : parseTrustedProxyCidrs "10.0.0.0/8" =
      .ok [(.v4 (Ipv4Addr.ofOctets [10, 0, 0, 0]), 8)])
    List.mem_cons_self

/-- `::/0` is accepted and holds one address. -/
theorem every_v6_address_refused :
    ¬ ∀ (raw : Text) (trusted : List (IpAddr × Nat)),
      parseTrustedProxyCidrs raw = .ok trusted →
        ∀ entry ∈ trusted, ExactEntry entry := by
  intro claim
  have parsed : parseTrustedProxyCidrs "::/0" = .ok [(.v6 0, 0)] := by
    decide +kernel
  have exact := claim _ _ parsed _ List.mem_cons_self
  have shared : SharesBits (.v6 1) (.v6 0) 0 := fun _ early => by omega
  exact absurd ((exact.members (.v6 1)).2 shared) (by decide)

end FireCrow.Middleware
