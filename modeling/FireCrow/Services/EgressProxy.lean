import FireCrow.Library.Interleaving
import FireCrow.Library.Utf8
import FireCrow.Services.EgressPolicy

/-!
# The egress proxy

A connection carries one request.  The proxy reads its head, judges the target,
resolves it once, judges every address of the resolution, and dials these
addresses in order.  Resolutions and connections are statements, which the
environment answers as it likes at every time.
-/

namespace FireCrow.Services.Egress

open FireCrow.Library

/-- What a client sends before it stops, and whether the head is complete
before the timeout. -/
structure Client where
  bytes : Bytes
  inTime : Bool

def maxHeadBytes : Nat := 8192

inductive ResolveError where
  | failed
deriving DecidableEq

inductive DenyReason where
  | target (reason : Text)
  | dns
  | empty
  | candidate (reason : Text)
deriving DecidableEq

inductive Status where
  | established
  | badRequest
  | forbidden
  | badGateway
  | serviceUnavailable
deriving DecidableEq

/-! ## The head -/

/-- The lines of a stream, each with its line feed; the last may lack one. -/
def lines : Bytes → List Bytes
  | [] => []
  | byte :: rest =>
      if byte = 10 then [byte] :: lines rest
      else
        match lines rest with
        | [] => [[byte]]
        | line :: others => (byte :: line) :: others

/-- `read_line` refuses what is not UTF-8. -/
def decodeLine (line : Bytes) : Option Text :=
  let text := Bytes.fromUtf8Lossy line
  if text.toBytes = line then some text else none

/-- Read up to the blank line and keep the first line.  A stream that ends
before the blank line has no head, nor has one with too many bytes. -/
def readHead : Nat → Option Text → List Bytes → Option Text
  | _, _, [] => none
  | total, requestLine, line :: rest =>
      match decodeLine line with
      | none => none
      | some text =>
          let total := total + line.length
          if maxHeadBytes < total then none
          else
            let first := requestLine.getD text.trimEnd
            if text = ['\r', '\n'] ∨ text = ['\n'] then some first
            else readHead total (some first) rest

def Client.requestLine (client : Client) : Option Text :=
  if client.inTime then readHead 0 none (lines client.bytes) else none

/-- The host and the port of an authority. -/
def parseAuthority (authority : Text) : Except Text (Text × Nat) :=
  if authority.isEmpty || 253 < authority.byteLen then
    .error "malformed authority"
  else
    match authority.stripPrefix ['['] with
    | some rest =>
        match Text.splitOnceAt [']', ':'] rest with
        | none => .error "malformed bracketed authority"
        | some (host, port) =>
            if host.isEmpty || host.any fun character =>
                character = '[' || character = ']' then
              .error "malformed bracketed authority"
            else
              match Text.parseUnsigned 10 65536 port with
              | none => .error "malformed port"
              | some port => .ok (host, port)
    | none =>
        if authority.any fun character =>
            character ∈ ['@', '/', '[', ']'] ||
              Text.isWhitespace character || Text.isControl character then
          .error "malformed authority"
        else
          match authority.rsplitOnce ':' with
          | none => .error "authority has no port"
          | some (host, port) =>
              if host.isEmpty || ':' ∈ host then .error "malformed authority"
              else
                match Text.parseUnsigned 10 65536 port with
                | none => .error "malformed port"
                | some port => .ok (host, port)

def parseConnectLine (line : Text) : Except Text (Text × Nat) :=
  match line.splitWhitespace with
  | [method, authority, version] =>
      if method ≠ "CONNECT" then .error "only CONNECT is supported"
      else if version ≠ "HTTP/1.1" ∧ version ≠ "HTTP/1.0" then
        .error "unsupported HTTP version"
      else parseAuthority authority
  | _ => .error "malformed CONNECT line"

/-! ## The connection -/

inductive Statement where
  | resolve (host : Text)
  | connect (address : IpAddr) (port : Nat)
  | respond (status : Status)
  | tunnel

namespace Statement

def Reply : Statement → Type
  | .resolve _ => Except ResolveError (List IpAddr)
  | .connect .. => Bool
  | .respond _ => Unit
  | .tunnel => Unit

end Statement

abbrev Task := Program Statement Statement.Reply Empty

def query (statement : Statement) : Task statement.Reply :=
  .ask statement fun reply => .done (.ok reply)

/-- Every address of a resolution is judged, and one that is refused refuses
them all. -/
def checkCandidates (resolved : Except ResolveError (List IpAddr)) :
    Except DenyReason (List IpAddr) :=
  match resolved with
  | .error _ => .error .dns
  | .ok candidates =>
      if candidates.isEmpty then .error .empty
      else
        match candidates.findSome? fun candidate =>
            match evaluateIp candidate with
            | .block reason => some reason
            | .allow => none with
        | some reason => .error (.candidate reason)
        | none => .ok candidates

/-- Dial the addresses in order up to the first that answers. -/
def connectPinned (port : Nat) : List IpAddr → Task Bool
  | [] => return false
  | address :: rest => do
      let connected : Bool ← query (.connect address port)
      if connected then return true else connectPinned port rest

/-- Judge a resolution and dial it. -/
def serveResolved (port : Nat)
    (resolved : Except ResolveError (List IpAddr)) : Task Unit :=
  match checkCandidates resolved with
  | .error _ => query (.respond .forbidden)
  | .ok validated => do
      let connected ← connectPinned port validated
      if connected then
        let _ ← query (.respond .established)
        query .tunnel
      else query (.respond .badGateway)

/-- Resolve a target that has passed. -/
def serveTarget (host : Text) (port : Nat) : Task Unit := do
  let resolved : Except ResolveError (List IpAddr) ← query (.resolve host)
  serveResolved port resolved

variable [UnicodeTables]

def checkTarget (host : Text) (port : Nat) : Except DenyReason Unit :=
  match evaluateEgressTarget host port with
  | .block reason => .error (.target reason)
  | .allow => .ok ()

def serveConnection (client : Client) : Task Unit :=
  match client.requestLine with
  | none => query (.respond .badRequest)
  | some line =>
      match parseConnectLine line with
      | .error _ => query (.respond .badRequest)
      | .ok (host, port) =>
          match checkTarget host port with
          | .error _ => query (.respond .forbidden)
          | .ok () => serveTarget host port

/-- A connection beyond the bound on concurrent ones is refused. -/
def handleAccept (permit : Bool) (client : Client) : Task Unit :=
  if permit then serveConnection client
  else query (.respond .serviceUnavailable)

end FireCrow.Services.Egress
