import FireCrow.Library.Json
import FireCrow.Library.Paths
import FireCrow.Library.Result
import FireCrow.Library.Utf8

/-!
# The authorization engine

Deny by default: a request is allowed only by the rule that its method and its
normalised path select.  A slice inside a character panics, and the request
gets no decision.
-/

namespace FireCrow.DockerAuthz

open FireCrow.Library

/-- Exact references of the scanner images. -/
def approvedImages : List Text :=
  ["ghcr.io/gitleaks/gitleaks:v8.18.4", "ghcr.io/google/osv-scanner:v2.2.4",
    "semgrep/semgrep:1.96.0"]

def scanNamePrefix : Text := "firecrow-scan-"

def sandboxUser : Text := "65534:65534"

/-- Container paths a bind may target. -/
def allowedBindTargets : List Text := ["/scan", "/config"]

def deniedHostExact : List Text :=
  ["/", "/var/run/docker.sock", "/run/docker.sock"]

def deniedHostPrefixes : List Text :=
  ["/proc/", "/sys/", "/dev/", "/etc/", "/root/", "/var/run/", "/run/",
    "/var/lib/docker/", "/boot/", "/home/"]

def allowedNetworks : List Text := ["none", "scanners-internal"]

/-- Cap on a forwarded request body. -/
def maxBodyBytes : Nat := 8 * 1024 * 1024

structure Decision where
  allow : Bool
  rule : Text
  msg : Text
  target : Option Text
deriving DecidableEq

namespace Decision

def allowed (rule : Text) (target : Option Text) : Decision :=
  ⟨true, rule, [], target⟩

def deny (rule msg : Text) (target : Option Text) : Decision :=
  ⟨false, rule, msg, target⟩

/-- The first denial of some checks, and the rule that allows without one. -/
def ofChecks (checks : Except Decision Unit) (rule : Text) : Decision :=
  match checks with
  | .ok () => .allowed rule none
  | .error decision => decision

end Decision

/-- The fields of a request that the policy uses. -/
structure AuthzRequest where
  method : Text
  uri : Text
  user : Option Text
  userAuthn : Option Text
  /-- The decoded body; `none` when absent. -/
  body : Option Text

/-! ## Addresses -/

/-- The path of an address without its version prefix; empty when no rule may
match it, and `none` when a slice panics. -/
def normalizePath (uri : Text) : Option Text :=
  let raw : Text := uri.takeWhile fun character =>
    character ≠ '?' && character ≠ '#'
  if raw = [] ∨ raw.startsWith "/" = false then some []
  else if raw.contains "%2f" || raw.contains "%2F" || raw.contains "%00" then
    some []
  else
    let parts := raw.splitOn '/'
    if (['.'] : Text) ∈ parts ∨ (['.', '.'] : Text) ∈ parts then some []
    else
      let segs := parts.filter (· ≠ [])
      if segs = [] then some []
      else
        let rest := Text.join ['/'] segs
        match Text.splitOnce '/' rest with
        | none => some ('/' :: rest)
        | some (ver, tail) =>
            (Text.fromByte 1 ver).map fun digits =>
              if tail ≠ [] ∧ ver.startsWith "v" = true ∧ digits ≠ [] ∧
                  digits.all (fun character =>
                    Text.isAsciiDigit character || character = '.') = true
              then '/' :: tail
              else '/' :: rest

/-- Decode the escapes that are well formed, and keep the others. -/
def percentBytes : Text → Bytes
  | character :: high :: low :: rest =>
      if character = '%' then
        match Json.hexValue high, Json.hexValue low with
        | some high, some low =>
            UInt8.ofNat (high * 16 + low) :: percentBytes rest
        | _, _ =>
            String.utf8EncodeChar character ++
              percentBytes (high :: low :: rest)
      else
        String.utf8EncodeChar character ++ percentBytes (high :: low :: rest)
  | text => text.toBytes

def percentDecode (text : Text) : Text :=
  Bytes.fromUtf8Lossy (percentBytes text)

/-- The value of the first pair whose key is spelled this way. -/
def queryParam (uri key : Text) : Option Text :=
  (Text.splitOnce '?' uri).bind fun parts =>
    ((parts.2.splitOn '&').findSome? fun pair =>
      (Text.splitOnce '=' pair).filter fun entry => entry.1 = key).map
        fun entry => percentDecode entry.2

/-- The segment behind `/containers/`. -/
def containerTarget (path : Text) : Option Text :=
  (path.stripPrefix "/containers/").bind fun rest =>
    (some (rest.takeWhile (· ≠ '/'))).filter (· ≠ [])

def isLifecycleOp (path : Text) : Bool :=
  path.endsWith "/start" || path.endsWith "/attach" || path.endsWith "/wait" ||
    path.endsWith "/stop" || path.endsWith "/kill"

/-- The places of the dashes of a UUID. -/
def dashPlaces : List Nat := [8, 13, 18, 23]

def isUuidCharacter (character : Char) : Bool :=
  Text.isAsciiDigit character || ('a' ≤ character && character ≤ 'f')

/-- `firecrow-scan-<lowercase-uuid>`. -/
def isScannerName (name : Text) : Bool :=
  match name.stripPrefix scanNamePrefix with
  | none => false
  | some suffix =>
      suffix.byteLen = 36 &&
        suffix.zipIdx.all (fun (character, place) =>
          isUuidCharacter character ||
            (character = '-' && decide (place ∈ dashPlaces))) &&
        dashPlaces.all fun place => suffix[place]? = some '-'

/-! ## Host paths -/

def canonicalHostPath (hostPath : Text) : Text := Paths.canonical hostPath

/-- Whether a path is a tree of the list, or is spelled inside one. -/
def insidePrefix (prefixes : List Text) (cleaned : Text) : Bool :=
  prefixes.any fun opening =>
    cleaned = opening.rdropWhile (· = '/') || cleaned.startsWith opening

def hostSourceDenied (hostPath : Text) : Bool :=
  if hostPath.startsWith "/" = false then true
  else
    let cleaned := canonicalHostPath hostPath
    decide (cleaned ∈ deniedHostExact) || insidePrefix deniedHostPrefixes cleaned

/-! ## The create body -/

section Bodies

variable [FloatFormat]

/-- Stop with a denial that names no target. -/
def denyIf (condition : Prop) [Decidable condition] (rule msg : Text) :
    Except Decision Unit :=
  refuseIf condition (Decision.deny rule msg none)

/-- `HostConfig`, when it is an object. -/
def hostConfig (spec : Json) : Option Json :=
  match spec.get? "HostConfig" with
  | some (.object members) => some (.object members)
  | _ => none

/-- A member of `HostConfig`. -/
def hostField (spec : Json) (key : Text) : Option Json :=
  (hostConfig spec).bind fun config => config.get? key

/-- An absent, null or empty list. -/
def noneListed : Option Json → Bool
  | none => true
  | some .null => true
  | some (.array []) => true
  | _ => false

def approvedImageField (spec : Json) : Except Decision Unit :=
  match spec.get? "Image" with
  | some (.string image) =>
      denyIf (image ∉ approvedImages) "create-image"
        (("image '" : Text) ++ image ++ "' is not approved")
  | _ =>
      .error (.deny "create-image"
        "container Image must be an approved string" none)

def privilegedField (spec : Json) : Except Decision Unit :=
  match hostField spec "Privileged" with
  | none => .ok ()
  | some (.bool false) => .ok ()
  | some _ =>
      .error (.deny "create-privileged"
        "Privileged must be explicitly false" none)

def capDropField (spec : Json) : Except Decision Unit :=
  match hostField spec "CapDrop" with
  | some (.array [.string cap]) =>
      denyIf (cap ≠ "ALL") "create-capdrop" "CapDrop must be exactly [ALL]"
  | _ =>
      .error (.deny "create-capdrop" "CapDrop must be exactly [ALL]" none)

/-- A bind as its host, container and options, when nothing else follows. -/
def bindParts (bind : Text) : Option (Text × Text × Text) :=
  match bind.splitOn ':' with
  | [host] => some (host, [], [])
  | [host, container] => some (host, container, [])
  | [host, container, opts] => some (host, container, opts)
  | _ => none

/-- One of the read-only staging mounts. -/
def checkBind (bind : Text) : Except Decision Unit :=
  match bindParts bind with
  | none =>
      .error (.deny "create-binds"
        (("bind '" : Text) ++ bind ++ "' has an unsupported shape") none)
  | some (host, container, opts) => do
      denyIf (host = [] ∨ container = []) "create-binds"
        (("bind '" : Text) ++ bind ++ "' has an unsupported shape")
      denyIf (hostSourceDenied host = true) "create-binds"
        (("bind host source '" : Text) ++ host ++ "' is not permitted")
      denyIf (container ∉ allowedBindTargets ∨ ("ro" : Text) ∉ opts.splitOn ',')
        "create-binds" (("bind '" : Text) ++ bind ++
          "' is not one of the read-only staging mounts")

def checkBindEntry : Json → Except Decision Unit
  | .string bind => checkBind bind
  | _ => .error (.deny "create-binds" "bind entries must be strings" none)

def bindsField (spec : Json) : Except Decision Unit :=
  match hostField spec "Binds" with
  | none => .ok ()
  | some .null => .ok ()
  | some (.array binds) => binds.forM checkBindEntry
  | some _ =>
      .error (.deny "create-binds" "Binds must be an array" none)

def networkField (spec : Json) : Except Decision Unit :=
  match hostField spec "NetworkMode" with
  | some (.string net) =>
      denyIf (net ∉ allowedNetworks) "create-network"
        (("network mode '" : Text) ++ net ++ "' is not permitted")
  | _ =>
      .error (.deny "create-network"
        "NetworkMode must be an explicit permitted string" none)

/-- The namespace modes the policy reads. -/
def namespaceKeys : List Text := ["PidMode", "IpcMode", "UTSMode", "UsernsMode"]

def namespaceField (spec : Json) (key : Text) : Except Decision Unit :=
  match hostField spec key with
  | none => .ok ()
  | some (.string []) => .ok ()
  | some _ =>
      .error (.deny "create-namespace"
        (key ++ (" must be absent or empty (host " : Text) ++ key ++
          " is denied)") none)

def entrypointField (spec : Json) : Except Decision Unit :=
  let accepted := match spec.get? "Entrypoint" with
    | none => true
    | some .null => true
    | some (.string entrypoint) => decide (entrypoint = ("sh" : Text))
    | some (.array [.string entrypoint]) =>
        decide (entrypoint = ("sh" : Text))
    | some _ => false
  denyIf (accepted = false) "create-entrypoint"
    "Entrypoint override must be absent or exactly sh"

def cmdField (spec : Json) : Except Decision Unit :=
  let accepted := match spec.get? "Cmd" with
    | none => true
    | some (.array items) =>
        !items.isEmpty && items.all fun item => item.asStr.isSome
    | some _ => false
  denyIf (accepted = false) "create-cmd" "Cmd must be a non-empty string array"

def userField (spec : Json) : Except Decision Unit :=
  denyIf ((spec.get? "User").bind Json.asStr ≠ some sandboxUser) "create-user"
    (("container User must be " : Text) ++ sandboxUser)

def readonlyField (spec : Json) : Except Decision Unit :=
  match hostField spec "ReadonlyRootfs" with
  | some (.bool true) => .ok ()
  | _ =>
      .error (.deny "create-readonly"
        "HostConfig.ReadonlyRootfs must be true" none)

/-- The spellings that enable `no-new-privileges`. -/
def securityOptions : List Text :=
  ["no-new-privileges", "no-new-privileges=true", "no-new-privileges:true"]

def securityOptField (spec : Json) : Except Decision Unit :=
  let secopts := ((hostField spec "SecurityOpt").bind Json.asArray).bind
    fun items => items.mapM Json.asStr
  match secopts with
  | some (first :: others) =>
      (first :: others).forM fun opt =>
        denyIf (opt ∉ securityOptions) "create-securityopt"
          (("security option '" : Text) ++ opt ++
            "' is not permitted on this channel")
  | _ =>
      .error (.deny "create-securityopt"
        (("SecurityOpt must be a non-empty string list " : Text) ++
          "enabling no-new-privileges") none)

def tmpfsOptionKeys : List Text := ["rw", "noexec", "nosuid", "nodev", "size"]

/-- The part of a tmpfs option before its value. -/
def tmpfsOptionKey (flag : Text) : Text := flag.takeWhile (· ≠ '=')

/-- The options of a tmpfs, each at most once. -/
def checkTmpfsFlags (opts : Text) : List Text → List Text →
    Except Decision Unit
  | _, [] => .ok ()
  | seen, flag :: flags => do
      let key := tmpfsOptionKey flag
      denyIf (key ∉ tmpfsOptionKeys) "create-tmpfs"
        (("tmpfs option '" : Text) ++ flag ++ "' is not permitted")
      denyIf (key ∈ seen) "create-tmpfs"
        (("duplicate tmpfs option in '" : Text) ++ opts ++ "'")
      checkTmpfsFlags opts (key :: seen) flags

def isWorkPath (dest : Text) : Bool :=
  dest = "/work" || dest.startsWith "/work/"

def checkTmpfs : Text × Json → Except Decision Unit
  | (dest, value) => do
      denyIf (isWorkPath dest = false) "create-tmpfs"
        (("tmpfs destination '" : Text) ++ dest ++ "' is not under /work")
      match value with
      | .string opts => do
          checkTmpfsFlags opts [] (opts.splitOn ',')
          denyIf (¬ (opts.contains "noexec" && opts.contains "nosuid" &&
              opts.contains "nodev") = true) "create-tmpfs"
            "tmpfs must carry noexec,nosuid,nodev"
      | _ => .ok ()

def tmpfsField (spec : Json) : Except Decision Unit :=
  match hostField spec "Tmpfs" with
  | none => .ok ()
  | some (.object tmpfs) => tmpfs.forM checkTmpfs
  | some _ => .error (.deny "create-tmpfs" "Tmpfs must be an object" none)

/-- The empty or disabled restart contract. -/
def restartDisabled : Json → Bool
  | .null => true
  | .object [] => true
  | .object members =>
      let name := ((Json.object members).get? "Name").bind Json.asStr
      let count := ((Json.object members).get? "MaximumRetryCount").bind
        Json.asU64
      decide (name.getD [] ∈ ([[], "none", "no"] : List Text)) &&
        count.getD 0 = 0
  | _ => false

def restartPolicyField (spec : Json) : Except Decision Unit :=
  match hostField spec "RestartPolicy" with
  | none => .ok ()
  | some policy =>
      denyIf (restartDisabled policy = false) "create-restartpolicy"
        "RestartPolicy is denied"

/-- A list of `HostConfig` that must be empty. -/
def emptyListField (spec : Json) (key rule msg : Text) :
    Except Decision Unit :=
  denyIf (noneListed (hostField spec key) = false) rule msg

def capAddField (spec : Json) : Except Decision Unit :=
  emptyListField spec "CapAdd" "create-capadd" "capability additions are denied"

def mountsField (spec : Json) : Except Decision Unit :=
  emptyListField spec "Mounts" "create-mounts" "structured Mounts are denied"

def volumesFromField (spec : Json) : Except Decision Unit :=
  emptyListField spec "VolumesFrom" "create-volumesfrom" "VolumesFrom is denied"

def devicesField (spec : Json) : Except Decision Unit :=
  emptyListField spec "Devices" "create-devices" "device passthrough is denied"

/-- The checks of the fields of a create body, in order. -/
def checkFields (spec : Json) : Except Decision Unit := do
  approvedImageField spec
  privilegedField spec
  capAddField spec
  capDropField spec
  bindsField spec
  mountsField spec
  volumesFromField spec
  networkField spec
  namespaceKeys.forM (namespaceField spec)
  devicesField spec
  entrypointField spec
  cmdField spec
  userField spec
  readonlyField spec
  securityOptField spec
  tmpfsField spec
  restartPolicyField spec

/-- The body that a create request must carry. -/
def createBody (request : AuthzRequest) : Except Decision Text :=
  match request.body with
  | some body =>
      if body.byteLen ≤ maxBodyBytes then .ok body
      else .error (.deny "body-too-large" "create body exceeds cap" none)
  | none =>
      .error (.deny "create-body-required"
        "create spec body is required and must be visible" none)

/-- The object that a create body must be. -/
def createSpec (body : Text) : Except Decision Json :=
  match Json.parse body with
  | none =>
      .error (.deny "create-body-unparseable"
        "create body is not valid JSON" none)
  | some (.object members) => .ok (.object members)
  | some _ =>
      .error (.deny "create-body-unparseable"
        "create body is not an object" none)

/-- The checks of a create request, in order. -/
def createChecks (request : AuthzRequest) : Except Decision Unit := do
  let body ← createBody request
  let spec ← createSpec body
  denyIf (isScannerName ((queryParam request.uri "name").getD []) = false)
    "create-name" "container name must be firecrow-scan-<uuid>"
  checkFields spec

/-- `POST /containers/create`. -/
def createPolicy (request : AuthzRequest) : Decision :=
  .ofChecks (createChecks request) "create-allowed"

end Bodies

/-! ## The other rules -/

/-- The decoded values of the pairs whose key is spelled this way. -/
def spelledValues (query key : Text) : List Text :=
  (query.splitOn '&').filterMap fun pair =>
    ((Text.splitOnce '=' pair).filter fun entry => entry.1 = key).map
      fun entry => percentDecode entry.2

/-- An image with the tags that come with it. -/
def taggedReference (image : Text) : List Text → Except Decision Text
  | [] => .ok image
  | [tag] => do
      denyIf (tag = []) "pull-image"
        "image tag must be a single non-empty value"
      denyIf ('@' ∈ image) "pull-image"
        "digest image ref must not carry a tag parameter"
      match Text.rsplitOnce ':' image with
      | some (_, embedded) => do
          denyIf (embedded ≠ tag) "pull-image"
            "image fromImage/tag conflict is denied"
          .ok image
      | none => .ok (image ++ ':' :: tag)
  | _ =>
      .error (.deny "pull-image"
        "image tag must be a single non-empty value" none)

/-- The reference that `fromImage` and `tag` make together. -/
def pullCandidate (images tags : List Text) : Except Decision Text :=
  match images with
  | [image] => do
      denyIf (image = []) "pull-image" "image ref is missing"
      taggedReference image tags
  | _ =>
      .error (.deny "pull-image"
        "image ref must carry exactly one fromImage" none)

/-- The query of an address, empty when there is none. -/
def queryOf (uri : Text) : Text :=
  ((Text.splitOnce '?' uri).map Prod.snd).getD []

/-- The checks of a pull, in order. -/
def pullChecks (request : AuthzRequest) : Except Decision Unit := do
  let query := queryOf request.uri
  let candidate ← pullCandidate (spelledValues query "fromImage")
    (spelledValues query "tag")
  denyIf (candidate ∉ approvedImages) "pull-image"
    (("image ref '" : Text) ++ candidate ++ "' is not approved")

/-- `POST /images/create`. -/
def pullPolicy (request : AuthzRequest) : Decision :=
  .ofChecks (pullChecks request) "pull-allowed"

/-- `/containers/{id}` with nothing behind. -/
def isContainerDelete (path : Text) : Bool :=
  match path.stripPrefix "/containers/" with
  | none => false
  | some rest => decide (rest ≠ []) && decide ('/' ∉ rest)

/-- The allowlist of identities and the containers seen in responses. -/
structure Plugin where
  allowedCns : List Text
  registry : List Text

namespace Plugin

/-- A container of this channel, or one that is named as a scanner's. -/
def targetPolicy (plugin : Plugin) (target : Text) : Decision :=
  if target ∈ plugin.registry then .allowed "target-registered" (some target)
  else if isScannerName target = true then .allowed "target-name" (some target)
  else
    .deny "target-unknown"
      (("container '" : Text) ++ target ++ "' is not owned by this channel")
      (some target)

/-- The verified identity of the caller, on the allowlist. -/
def identityGate (plugin : Plugin) (request : AuthzRequest) :
    Except Decision Text :=
  match request.userAuthn, request.user with
  | some authn, some cn =>
      if authn = "TLS" ∧ cn ≠ [] then
        if cn ∈ plugin.allowedCns then .ok cn
        else .error (.deny "identity-not-allowed"
          (("identity '" : Text) ++ cn ++ "' is not on the allowlist") none)
      else .error (.deny "identity-required"
        "TLS client identity required on this channel" none)
  | _, _ =>
      .error (.deny "identity-required"
        "TLS client identity required on this channel" none)

variable [FloatFormat]

/-- The rule for a method and a path. -/
def endpointPolicy (plugin : Plugin) (request : AuthzRequest) (path : Text) :
    Decision :=
  let method := request.method
  let target := containerTarget path
  if ((method = "HEAD" ∨ method = "GET") ∧ path = "/_ping") ∨
      (method = "GET" ∧ path = "/version") then .allowed "negotiation" target
  else if method = "POST" ∧ path = "/containers/create" then
    createPolicy request
  else if method = "POST" ∧ path = "/images/create" then pullPolicy request
  else if method = "POST" ∧ path = "/grpc" then
    .deny "grpc-door" "gRPC denied on this channel (O-3)" target
  else
    let denied : Decision := .deny "endpoint-denied"
      (method ++ (" " : Text) ++ path ++ " is not permitted on this channel")
      target
    match target with
    | none => denied
    | some name =>
        if method = "POST" ∧ isLifecycleOp path = true then
          plugin.targetPolicy name
        else if method = "DELETE" ∧ isContainerDelete path = true then
          plugin.targetPolicy name
        else denied

/-- The whole policy; `none` when the engine panics. -/
def decide (plugin : Plugin) (request : AuthzRequest) : Option Decision :=
  match plugin.identityGate request with
  | .error decision => some decision
  | .ok _ =>
      (normalizePath request.uri).map (plugin.endpointPolicy request)

end Plugin

end FireCrow.DockerAuthz
