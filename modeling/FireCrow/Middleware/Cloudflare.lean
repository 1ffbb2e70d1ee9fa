import FireCrow.Library.IpAddr
import FireCrow.Library.Result

/-!
# The address of a client

A request is attributed to the peer of its connection.  Forwarding headers are
read only when that peer is an edge address of Cloudflare or a proxy that the
operator has declared, and a forwarded chain is walked from its end.
-/

namespace FireCrow.Middleware

open FireCrow.Library

def cfIpv4Ranges : List (Text × Nat) :=
  [("173.245.48.0", 20), ("103.21.244.0", 22), ("103.22.200.0", 22),
   ("103.31.4.0", 22), ("141.101.64.0", 18), ("108.162.192.0", 18),
   ("190.93.240.0", 20), ("188.114.96.0", 20), ("197.234.240.0", 22),
   ("198.41.128.0", 17), ("162.158.0.0", 15), ("104.16.0.0", 13),
   ("104.24.0.0", 14), ("172.64.0.0", 13), ("131.0.72.0", 22)]

def cfIpv6Ranges : List (Text × Nat) :=
  [("2400:cb00::", 32), ("2606:4700::", 32), ("2803:f800::", 32),
   ("2405:b500::", 32), ("2405:8100::", 32), ("2a06:98c0::", 29),
   ("2c0f:f248::", 32)]

def cidrContainsV4 (ip network : Ipv4Addr) (bits : Nat) : Bool :=
  if bits = 0 then true
  else
    let mask :=
      if 32 ≤ bits then BitVec.allOnes 32
      else BitVec.allOnes 32 <<< (32 - bits)
    ip &&& mask = network &&& mask

def cidrContainsV6 (ip network : Ipv6Addr) (bits : Nat) : Bool :=
  let mask :=
    if 128 ≤ bits then BitVec.allOnes 128
    -- A shift by the whole width wraps around to a shift by nothing.
    else BitVec.allOnes 128 <<< ((128 - bits) % 128)
  ip &&& mask = network &&& mask

def isCloudflarePeer : IpAddr → Bool
  | .v4 ip =>
      cfIpv4Ranges.any fun range =>
        match IpAddr.parse range.1 with
        | some (.v4 network) => cidrContainsV4 ip network range.2
        | _ => false
  | .v6 ip =>
      cfIpv6Ranges.any fun range =>
        match IpAddr.parse range.1 with
        | some (.v6 network) => cidrContainsV6 ip network range.2
        | _ => false

/-- Addresses of two versions never match. -/
def ipInCidr (ip network : IpAddr) (bits : Nat) : Bool :=
  match ip, network with
  | .v4 ip, .v4 network => cidrContainsV4 ip network bits
  | .v6 ip, .v6 network => cidrContainsV6 ip network bits
  | _, _ => false

theorem cidrContainsV4_iff (ip network : Ipv4Addr) (bits : Nat) :
    cidrContainsV4 ip network bits = true ↔
      (IpAddr.v4 ip).InNetwork (.v4 network) bits := by
  show _ ↔ ip.toNat / 2 ^ (32 - bits) = network.toNat / 2 ^ (32 - bits)
  unfold cidrContainsV4
  split
  · rename_i whole
    subst whole
    have below := ip.isLt
    have belowNetwork := network.isLt
    simp only [Nat.sub_zero, true_iff]
    rw [Nat.div_eq_of_lt below, Nat.div_eq_of_lt belowNetwork]
  · simp only [decide_eq_true_eq]
    rw [← and_allOnes_shiftLeft]
    split
    · rename_i exact
      rw [Nat.sub_eq_zero_of_le exact, BitVec.shiftLeft_zero]
    · exact Iff.rfl

/-- A version 6 network of no bits is not read as the network of every
address. -/
theorem cidrContainsV6_iff (ip network : Ipv6Addr) {bits : Nat}
    (some_bits : 0 < bits) :
    cidrContainsV6 ip network bits = true ↔
      (IpAddr.v6 ip).InNetwork (.v6 network) bits := by
  show _ ↔ ip.toNat / 2 ^ (128 - bits) = network.toNat / 2 ^ (128 - bits)
  unfold cidrContainsV6
  simp only [decide_eq_true_eq]
  rw [← and_allOnes_shiftLeft]
  split
  · rename_i exact
    rw [Nat.sub_eq_zero_of_le exact, BitVec.shiftLeft_zero]
  · have inside : 128 - bits < 128 := Nat.sub_lt (by decide) some_bits
    rw [Nat.mod_eq_of_lt inside]

/-! ## The declared proxies -/

/-- The two sides of an entry. -/
def cidrParts (entry : Text) : Text × Option Text :=
  match Text.splitOnce '/' entry with
  | some (address, bits) => (address.trim, some bits.trim)
  | none => (entry, none)

def parsePrefixLength (entry : Text) (width : Nat) :
    Option Text → Except Text Nat
  | none => pure width
  | some bits =>
      match Text.parseUnsigned 10 256 bits with
      | some bits => pure bits
      | none =>
          throw (("TRUSTED_PROXY_CIDRS entry '" : Text) ++ entry ++
            ("' has a non-numeric prefix length" : Text))

def parseTrustedProxyCidr (entry : Text) : Except Text (IpAddr × Nat) := do
  match IpAddr.parse (cidrParts entry).1 with
  | none =>
      throw (("TRUSTED_PROXY_CIDRS entry '" : Text) ++ entry ++
        ("' is not a valid IP address or CIDR" : Text))
  | some address =>
      let bits ← parsePrefixLength entry address.width (cidrParts entry).2
      refuseIf (address.width < bits)
        (("TRUSTED_PROXY_CIDRS entry '" : Text) ++ entry ++
          ("' prefix length exceeds /" : Text) ++ Text.ofNat address.width ++
          (" for this address family" : Text))
      return (address, bits)

/-- The networks of a comma-separated list; empty entries are passed over. -/
def parseTrustedProxyCidrs (raw : Text) :
    Except Text (List (IpAddr × Nat)) :=
  (((raw.splitOn ',').map Text.trim).filter fun entry =>
    !entry.isEmpty).mapM parseTrustedProxyCidr

theorem parseTrustedProxyCidr_le {entry : Text} {network : IpAddr × Nat}
    (parsed : parseTrustedProxyCidr entry = .ok network) :
    network.2 ≤ network.1.width := by
  unfold parseTrustedProxyCidr at parsed
  split at parsed
  · cases parsed
  · rw [Result.bind_eq_ok] at parsed
    rcases parsed with ⟨bits, -, checked⟩
    rw [Result.then_eq_ok, Result.refuseIf_eq_ok, Result.pure_eq_ok] at checked
    rcases checked with ⟨inside, same⟩
    rw [← same]
    exact not_lt.1 inside

/-- Every declared network is given by a prefix of its address. -/
theorem parseTrustedProxyCidrs_le {raw : Text} {trusted : List (IpAddr × Nat)}
    (parsed : parseTrustedProxyCidrs raw = .ok trusted) :
    ∀ network ∈ trusted, network.2 ≤ network.1.width := by
  unfold parseTrustedProxyCidrs at parsed
  generalize ((raw.splitOn ',').map Text.trim).filter (fun entry =>
    !entry.isEmpty) = entries at parsed
  induction entries generalizing trusted with
  | nil =>
      rw [List.mapM_nil, Result.pure_eq_ok] at parsed
      simp [← parsed]
  | cons entry entries ih =>
      rw [List.mapM_cons, Result.bind_eq_ok] at parsed
      rcases parsed with ⟨network, first, parsed⟩
      rw [Result.bind_eq_ok] at parsed
      rcases parsed with ⟨networks, rest, same⟩
      rw [Result.pure_eq_ok] at same
      rw [← same, List.forall_mem_cons]
      exact ⟨parseTrustedProxyCidr_le first, ih rest⟩

def isTrustedProxyIp (ip : IpAddr) (trusted : List (IpAddr × Nat)) : Bool :=
  trusted.any fun network => ipInCidr ip network.1 network.2

/-! ## Headers -/

abbrev HeaderValue := List UInt8

namespace HeaderValue

/-- The value as text, if every byte is visible ASCII. -/
def toStr (value : HeaderValue) : Option Text :=
  if value.all fun byte => (32 ≤ byte && byte < 127) || byte = 9 then
    some (value.map fun byte => Char.ofNat byte.toNat)
  else none

def ofText (text : Text) : HeaderValue :=
  text.map fun character => UInt8.ofNat character.toNat

end HeaderValue

/-- The lines of a request head; names are in lower case. -/
abbrev HeaderMap := List (Text × HeaderValue)

namespace HeaderMap

/-- The values of every line of one name. -/
def getAll (headers : HeaderMap) (name : Text) : List HeaderValue :=
  (headers.filter fun line => line.1 = name).map Prod.snd

/-- The value of the first line of a name. -/
def get (headers : HeaderMap) (name : Text) : Option HeaderValue :=
  (headers.getAll name).head?

end HeaderMap

/-! ## Resolution -/

def maxForwardedHops : Nat := 64

/-- The nearest address of a chain that is not a proxy, or the furthest proxy.
A hop that is no address ends the walk without a result. -/
def walkHops (isProxy : IpAddr → Bool) :
    Option IpAddr → List Text → Option IpAddr
  | outermost, [] => outermost
  | outermost, hop :: hops =>
      if hop.trim.isEmpty then walkHops isProxy outermost hops
      else
        match IpAddr.parse hop.trim with
        | none => none
        | some address =>
            if isProxy address then walkHops isProxy (some address) hops
            else some address

/-- What a walk takes for a proxy. -/
def isProxyHop (trusted : List (IpAddr × Nat)) (peerIsCloudflare : Bool)
    (address : IpAddr) : Bool :=
  (peerIsCloudflare && isCloudflarePeer address) ||
    isTrustedProxyIp address trusted

def forwardedClientIp (xff : Text) (trusted : List (IpAddr × Nat))
    (peerIsCloudflare : Bool) : Option IpAddr :=
  walkHops (isProxyHop trusted peerIsCloudflare) none
    ((xff.splitOn ',').reverse.take maxForwardedHops)

/-- What a request is attributed to. -/
inductive ClientIp where
  | unresolved
  | address (ip : IpAddr)
deriving DecidableEq

/-- The address that a header holds. -/
def headerAddress (headers : HeaderMap) (name : Text) : Option IpAddr :=
  ((headers.get name).bind HeaderValue.toStr).bind fun text =>
    IpAddr.parse text.trim

/-- The headers that only an edge of Cloudflare speaks through. -/
def edgeAddress (headers : HeaderMap) : Option IpAddr :=
  (headerAddress headers "cf-connecting-ip").or
    (headerAddress headers "x-real-ip")

def forwardedAddress (headers : HeaderMap) (trusted : List (IpAddr × Nat))
    (peerIsCloudflare : Bool) : Option IpAddr :=
  ((headers.get "x-forwarded-for").bind HeaderValue.toStr).bind fun xff =>
    forwardedClientIp xff trusted peerIsCloudflare

def resolveClientIpWith (headers : HeaderMap) (peerIp : Option IpAddr)
    (trusted : List (IpAddr × Nat)) : ClientIp :=
  match peerIp with
  | none => .unresolved
  | some peer =>
      let peerIsCloudflare := isCloudflarePeer peer
      if !(peerIsCloudflare || isTrustedProxyIp peer trusted) then
        .address peer
      else
        let edge := if peerIsCloudflare then edgeAddress headers else none
        let forwarded := forwardedAddress headers trusted peerIsCloudflare
        let real :=
          if peerIsCloudflare then none else headerAddress headers "x-real-ip"
        .address ((edge.or (forwarded.or real)).getD peer)

end FireCrow.Middleware
