import FireCrow.Middleware.Cloudflare

/-!
# What a client can say about its address

The hops of a forwarded chain are written from left to right, the ones behind a
client by the proxies that the request has passed.  Walking from the right, the
proxies are passed over and the first other address is the answer, so nothing
to its left is read.
-/

namespace FireCrow.Middleware

open FireCrow.Library

section Walk

variable {isProxy : IpAddr → Bool}

/-- A hop that a walk passes over. -/
def Passed (isProxy : IpAddr → Bool) (hop : Text) : Prop :=
  hop.trim = [] ∨
    ∃ address, IpAddr.parse hop.trim = some address ∧ isProxy address = true

/-- A hop, the client's, and the hops behind it, all of proxies. -/
structure ClientHop (isProxy : IpAddr → Bool) (client : IpAddr) (hop : Text)
    (behind : List Text) : Prop where
  parsed : IpAddr.parse hop.trim = some client
  outside : isProxy client = false
  passed : ∀ hop ∈ behind, Passed isProxy hop
  near : behind.length < maxForwardedHops

/-- What is read as an address is not empty. -/
theorem isBlank_of_parse {hop : Text} {address : IpAddr}
    (parsed : IpAddr.parse hop.trim = some address) : hop.isBlank = false := by
  rw [← Text.isEmpty_trim, ← Bool.not_eq_true, List.isEmpty_iff]
  intro blank
  rw [blank] at parsed
  have nothing : IpAddr.parse [] = none := rfl
  rw [nothing] at parsed
  cases parsed

theorem walkHops_passed {hop : Text} (passed : Passed isProxy hop)
    (outermost : Option IpAddr) (hops : List Text) :
    ∃ further, walkHops isProxy outermost (hop :: hops) =
      walkHops isProxy further hops := by
  rcases passed with blank | ⟨address, parsed, proxy⟩
  · refine ⟨outermost, ?_⟩
    simp [walkHops, blank]
  · refine ⟨some address, ?_⟩
    simp [walkHops, isBlank_of_parse parsed, parsed, proxy]

theorem walkHops_client {client : IpAddr} {hop : Text}
    (parsed : IpAddr.parse hop.trim = some client)
    (outside : isProxy client = false) (outermost : Option IpAddr)
    (hops : List Text) :
    walkHops isProxy outermost (hop :: hops) = some client := by
  simp [walkHops, isBlank_of_parse parsed, parsed, outside]

/-- A walk passes the proxies and stops at the client, whatever comes next. -/
theorem walkHops_append {client : IpAddr} {hop : Text} {passed : List Text}
    (all : ∀ hop ∈ passed, Passed isProxy hop)
    (parsed : IpAddr.parse hop.trim = some client)
    (outside : isProxy client = false) (outermost : Option IpAddr)
    (hops : List Text) :
    walkHops isProxy outermost (passed ++ hop :: hops) = some client := by
  induction passed generalizing outermost with
  | nil => exact walkHops_client parsed outside outermost hops
  | cons first passed ih =>
      rw [List.forall_mem_cons] at all
      have ⟨further, step⟩ :=
        walkHops_passed all.1 outermost (passed ++ hop :: hops)
      rw [List.cons_append, step]
      exact ih all.2 further

end Walk

/-! ## Chains -/

section Chain

variable {trusted : List (IpAddr × Nat)} {client : IpAddr} {hop : Text}
  {behind : List Text}

/-- The near end of a chain, read from the right. -/
theorem take_reverse_hops (front behind : List Text) (hop : Text)
    (near : behind.length < maxForwardedHops) :
    ∃ hops, ((front ++ hop :: behind).reverse.take maxForwardedHops) =
      behind.reverse ++ hop :: hops := by
  refine ⟨front.reverse.take (maxForwardedHops - behind.length - 1), ?_⟩
  have turned : (front ++ hop :: behind).reverse =
      (behind.reverse ++ [hop]) ++ front.reverse := by
    simp
  have short : (behind.reverse ++ [hop]).length ≤ maxForwardedHops := by
    simpa using near
  rw [turned, List.take_append, List.take_of_length_le short]
  simp [Nat.sub_sub]

theorem forwardedClientIp_eq {peerIsCloudflare : Bool} {xff : Text}
    {front : List Text}
    (ends : ClientHop (isProxyHop trusted peerIsCloudflare) client hop behind)
    (hops : xff.splitOn ',' = front ++ hop :: behind) :
    forwardedClientIp xff trusted peerIsCloudflare = some client := by
  have ⟨rest, read⟩ := take_reverse_hops front behind hop ends.near
  unfold forwardedClientIp
  rw [hops, read]
  apply walkHops_append _ ends.parsed ends.outside
  intro passed member
  exact ends.passed passed (List.mem_reverse.1 member)

/-- The hops of a message, its lines joined in order. -/
def forwardedHops (headers : HeaderMap) : Option (List Text) :=
  ((headers.getAll "x-forwarded-for").mapM HeaderValue.toStr).map fun lines =>
    (Text.join "," lines).splitOn ','

/-- The forwarded chain of a request, all on one line, ends in some hops. -/
def ForwardedChain (headers : HeaderMap) (suffix : List Text) : Prop :=
  ∃ value xff front,
    headers.getAll "x-forwarded-for" = [value] ∧
      HeaderValue.toStr value = some xff ∧
      xff.splitOn ',' = front ++ suffix

theorem forwardedAddress_eq {headers : HeaderMap} {peerIsCloudflare : Bool}
    (ends : ClientHop (isProxyHop trusted peerIsCloudflare) client hop behind)
    (chain : ForwardedChain headers (hop :: behind)) :
    forwardedAddress headers trusted peerIsCloudflare = some client := by
  rcases chain with ⟨value, xff, front, line, text, hops⟩
  have first : headers.get "x-forwarded-for" = some value := by
    unfold HeaderMap.get
    rw [line, List.head?_cons]
  unfold forwardedAddress
  rw [first, Option.bind_some, text, Option.bind_some]
  exact forwardedClientIp_eq ends hops

end Chain

/-! ## Resolution -/

section Resolution

variable {headers : HeaderMap} {peer : IpAddr}
  {trusted : List (IpAddr × Nat)}

/-- Whether the forwarding headers of a peer are read. -/
def isTrustedPeer (peer : IpAddr) (trusted : List (IpAddr × Nat)) : Bool :=
  isCloudflarePeer peer || isTrustedProxyIp peer trusted

theorem resolve_untrusted (untrusted : isTrustedPeer peer trusted = false) :
    resolveClientIpWith headers (some peer) trusted = .address peer := by
  show (if !isTrustedPeer peer trusted then _ else _) = _
  rw [untrusted]
  rfl

theorem resolve_trusted (trustedPeer : isTrustedPeer peer trusted = true) :
    resolveClientIpWith headers (some peer) trusted =
      .address (((if isCloudflarePeer peer then edgeAddress headers
        else none).or
          ((forwardedAddress headers trusted (isCloudflarePeer peer)).or
            (if isCloudflarePeer peer then none
              else headerAddress headers "x-real-ip"))).getD peer) := by
  show (if !isTrustedPeer peer trusted then _ else _) = _
  rw [trustedPeer]
  rfl

theorem resolve_edge {visitor : IpAddr}
    (cloudflare : isCloudflarePeer peer = true)
    (edge : edgeAddress headers = some visitor) :
    resolveClientIpWith headers (some peer) trusted = .address visitor := by
  have trustedPeer : isTrustedPeer peer trusted = true := by
    unfold isTrustedPeer
    rw [cloudflare, Bool.true_or]
  rw [resolve_trusted trustedPeer, if_pos cloudflare, edge, Option.some_or,
    Option.getD_some]

theorem resolve_forwarded {client : IpAddr}
    (trustedPeer : isTrustedPeer peer trusted = true)
    (noEdge : isCloudflarePeer peer = true → edgeAddress headers = none)
    (forwarded : forwardedAddress headers trusted (isCloudflarePeer peer) =
      some client) :
    resolveClientIpWith headers (some peer) trusted = .address client := by
  have edge : (if isCloudflarePeer peer then edgeAddress headers else none) =
      none := by
    split
    · rename_i cloudflare
      exact noEdge cloudflare
    · rfl
  rw [resolve_trusted trustedPeer, edge, forwarded, Option.none_or,
    Option.some_or, Option.getD_some]

end Resolution

def proxyIp : IpAddr := .v4 (Ipv4Addr.ofOctets [10, 0, 0, 1])

def visitorIp : IpAddr := .v4 (Ipv4Addr.ofOctets [203, 0, 113, 9])

def cloudflareIp : IpAddr := .v4 (Ipv4Addr.ofOctets [173, 245, 48, 1])

/-- A visitor behind as many proxies as a walk takes hops. -/
def longChain : List Text :=
  "203.0.113.9" :: List.replicate maxForwardedHops ("10.0.0.1" : Text)

def forwardedLine (chain : Text) : Text × HeaderValue :=
  ("x-forwarded-for", HeaderValue.ofText chain)

theorem forwardedLine_chain {chain : Text} {front suffix : List Text}
    (visible : HeaderValue.toStr (HeaderValue.ofText chain) = some chain)
    (hops : chain.splitOn ',' = front ++ suffix) :
    ForwardedChain [forwardedLine chain] suffix :=
  ⟨HeaderValue.ofText chain, chain, front, rfl, visible, hops⟩

end FireCrow.Middleware
