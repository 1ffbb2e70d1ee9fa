import FireCrow.Library.IpAddr
import FireCrow.Library.Unicode

/-!
# Egress policy

The one destination of a scanner is the vulnerability database.  A target is
judged by its name and port before it is resolved, and every address of its
resolution is judged again.
-/

namespace FireCrow.Services.Egress

open FireCrow.Library

def osvApprovedDomains : List Text := ["api.osv.dev", "osv.dev"]

inductive EgressDecision where
  | allow
  | block (reason : Text)
deriving DecidableEq

def evaluateIpv4 (address : Ipv4Addr) : EgressDecision :=
  if address.isLoopback then .block "loopback blocked"
  else if address.isLinkLocal ||
      address = Ipv4Addr.ofOctets [169, 254, 169, 254] then
    .block "cloud metadata and link-local blocked"
  else if address.isPrivate then .block "RFC1918 private network blocked"
  else if address.isBroadcast || address.isUnspecified then
    .block "broadcast/unspecified blocked"
  else if address.octet 0 = 0 then .block "software-scope address blocked"
  else if (address.octet 0 = 192 && address.octet 1 = 0 &&
        address.octet 2 = 2) ||
      (address.octet 0 = 198 && address.octet 1 = 51 &&
        address.octet 2 = 100) ||
      (address.octet 0 = 203 && address.octet 1 = 0 &&
        address.octet 2 = 113) then
    .block "documentation range blocked"
  else if address.octet 0 = 100 && address.octet 1 / 64 = 1 then
    .block "carrier-grade NAT blocked"
  else if 224 ≤ address.octet 0 then .block "multicast/reserved blocked"
  else .allow

/-- Whether an address may be dialled. -/
def evaluateIp : IpAddr → EgressDecision
  | .v4 address => evaluateIpv4 address
  | .v6 address =>
      if address.isLoopback then .block "IPv6 loopback blocked"
      else if address.isUnspecified then .block "IPv6 unspecified blocked"
      else
        match address.toIpv4Mapped with
        | some mapped => evaluateIpv4 mapped
        | none =>
            if address.isUnicastLinkLocal then .block "IPv6 link-local blocked"
            else if address.isUniqueLocal then
              .block "IPv6 unique-local blocked"
            else if address.isMulticast ||
                (address.segment 0 = 0x2001 && address.segment 1 = 0x0DB8) then
              .block "IPv6 multicast/documentation blocked"
            else .allow

/-! ## Alternative spellings -/

/-- `strip_prefix` of `0x` or `0X`. -/
def stripHexPrefix (text : Text) : Option Text :=
  (text.stripPrefix "0x").or (text.stripPrefix "0X")

/-- One part of a dotted address: hexadecimal, octal or decimal. -/
def parseAltPart (part : Text) : Option Nat :=
  let value :=
    match stripHexPrefix part with
    | some hex =>
        if hex.isEmpty || !hex.all Text.isAsciiHexdigit then none
        else Text.parseUnsigned 16 (2 ^ 32) hex
    | none =>
        if !part.all Text.isAsciiDigit then none
        else if 1 < part.length && part.head? = some '0' then
          Text.parseUnsigned 8 (2 ^ 32) part
        else Text.parseUnsigned 10 (2 ^ 32) part
  if part.isEmpty then none else value.filter fun value => value ≤ 255

/-- The spellings of an address that resolvers accept and `FromStr` does
not. -/
def parseAltIpv4 (host : Text) : Option Ipv4Addr :=
  if '.' ∉ host then
    match stripHexPrefix host with
    | some hex =>
        if hex.isEmpty || 8 < hex.length || !hex.all Text.isAsciiHexdigit then
          none
        else (Text.parseUnsigned 16 (2 ^ 32) hex).map (BitVec.ofNat 32)
    | none =>
        if !host.isEmpty && host.all Text.isAsciiDigit then
          (Text.parseUnsigned 10 (2 ^ 32) host).map (BitVec.ofNat 32)
        else none
  else
    let parts := host.splitOn '.'
    if parts.length ≠ 4 then none
    else (parts.mapM parseAltPart).map Ipv4Addr.ofOctets

/-! ## Targets -/

/-- The verdict on an address that is named in place of a host. -/
def evaluateLiteral (address : IpAddr) : EgressDecision :=
  match evaluateIp address with
  | .block reason => .block reason
  | .allow =>
      .block "direct IP connect not permitted; must match approved OSV domain"

/-- An approved domain, or one below it. -/
def isApproved (host : Text) : Bool :=
  osvApprovedDomains.any fun domain =>
    host = domain || host.endsWith ('.' :: domain)

/-- The verdict on a host in lower case. -/
def evaluateHost (host : Text) : EgressDecision :=
  match IpAddr.parse host with
  | some address => evaluateLiteral address
  | none =>
      match parseAltIpv4 host with
      | some address => evaluateLiteral (.v4 address)
      | none =>
          if host.any fun character =>
              character ∈ ['@', '/', ':', '[', ']'] ||
                Text.isWhitespace character || Text.isControl character then
            .block "malformed host: authority smuggling blocked"
          else if isApproved host then .allow
          else .block "domain not in approved OSV allowlist"

section Targets

variable [UnicodeTables]

/-- A host in the spelling that is judged: trimmed, in lower case and without a
trailing dot. -/
def normalizeHost (host : Text) : Text :=
  let trimmed := host.trim.toLowercase
  if trimmed.getLast? = some '.' then trimmed.dropLast else trimmed

/-- Whether a host and port may be resolved and dialled. -/
def evaluateEgressTarget (host : Text) (port : Nat) : EgressDecision :=
  if port ≠ 443 ∧ port ≠ 53 then
    .block "non-standard port blocked; only 443 and 53 permitted"
  else evaluateHost (normalizeHost host)

end Targets

end FireCrow.Services.Egress
