import FireCrow.Library.Paths
import FireCrow.Library.Result

/-!
# The sandbox contract

What a sandboxed run may ask for, and the argument vector that it becomes.
Every flag that defines the boundary is in `dockerArgv`.
-/

namespace FireCrow.Services

open FireCrow.Library

def sandboxUser : Text := "65534:65534"

def scanMount : Text := "/scan"

def configMount : Text := "/config"

def workDir : Text := "/work"

def workTmpfsSize : Text := "64m"

def extraTmpfsSize : Text := "32m"

def maxTimeoutSecs : Nat := 3600

/-- The values of a binary float with their decimal text. -/
class BinaryFloat where
  Value : Type
  /-- `none` for infinities and for what is not a number. -/
  value : Value → Option ℚ
  display : Value → Text
  ofNat : Nat → Value
  value_ofNat : ∀ number < 2 ^ 53, value (ofNat number) = some number

/-- The natural numbers among the floats. -/
@[reducible]
def BinaryFloat.naturals : BinaryFloat where
  Value := Nat
  value number := some number
  display := Text.ofNat
  ofNat number := number
  value_ofNat _ _ := rfl

/-- Read an unsigned 64-bit word in decimal, with an optional plus sign. -/
def parseU64 (text : Text) : Option Nat :=
  let digits := if text.head? = some '+' then text.tail else text
  if digits ≠ [] ∧ digits.all Text.isAsciiDigit = true then
    let number := digits.foldl
      (fun number digit => number * 10 + (digit.toNat - 48)) 0
    if number < 2 ^ 64 then some number else none
  else none

/-! ## Specifications -/

structure SandboxMount where
  hostPath : Text
  containerPath : Text
  readOnly : Bool
deriving DecidableEq

/-- `host:container[:ro]`. -/
def SandboxMount.asDockerSpec (mount : SandboxMount) : Text :=
  mount.hostPath ++ ':' :: mount.containerPath ++
    if mount.readOnly then (":ro" : Text) else []

inductive NetworkMode where
  | none
  | bridge
  | filtered
deriving DecidableEq

namespace NetworkMode

/-- The Docker network of a mode. -/
def network : NetworkMode → Text
  | .none => "none"
  | .bridge => "bridge"
  | .filtered => "scanners-internal"

def asDockerArg (mode : NetworkMode) : Text :=
  ("--network=" : Text) ++ mode.network

end NetworkMode

section Specifications

variable [BinaryFloat]

structure ResourceLimits where
  cpus : BinaryFloat.Value
  memory : Text
  pidsLimit : Nat

/-- Everything needed to run one command under the sandbox. -/
structure SandboxSpec where
  image : Text
  entrypoint : Option Text
  network : NetworkMode
  command : List Text
  mounts : List SandboxMount
  extraTmpfs : List Text
  env : List (Text × Text)
  timeoutSecs : Nat
  limits : ResourceLimits

/-! ## The argument vector -/

def ResourceLimits.asDockerArgs (limits : ResourceLimits) : List Text :=
  [("--cpus=" : Text) ++ BinaryFloat.display limits.cpus,
    ("-m=" : Text) ++ limits.memory,
    ("--memory-swap=" : Text) ++ limits.memory,
    ("--pids-limit=" : Text) ++ Text.ofNat limits.pidsLimit]

def entrypointArgs : Option Text → List Text
  | none => []
  | some entrypoint => [("--entrypoint=" : Text) ++ entrypoint]

/-- The options of a scratch path with a size ceiling. -/
def tmpfsOptions (size : Text) : Text :=
  ("rw,noexec,nosuid,nodev,size=" : Text) ++ size

/-- The `docker` argument vector of a run. -/
def dockerArgv (spec : SandboxSpec) (name : Text) : List Text :=
  [("run" : Text), "--rm", "--name", name, "--init"] ++
  [spec.network.asDockerArg] ++
  [("--read-only" : Text), "--cap-drop=ALL",
    "--security-opt=no-new-privileges", ("--user=" : Text) ++ sandboxUser] ++
  entrypointArgs spec.entrypoint ++
  spec.limits.asDockerArgs ++
  [("--tmpfs" : Text), workDir ++ ':' :: tmpfsOptions workTmpfsSize] ++
  spec.extraTmpfs.flatMap (fun path =>
    [("--tmpfs" : Text), path ++ ':' :: tmpfsOptions extraTmpfsSize]) ++
  spec.mounts.flatMap (fun mount => [("-v" : Text), mount.asDockerSpec]) ++
  spec.env.flatMap (fun (variableName, value) =>
    [("-e" : Text), variableName ++ '=' :: value]) ++
  [spec.image] ++ spec.command

/-- The name of the container of a run. -/
def containerName (uuid : Text) : Text := ("firecrow-scan-" : Text) ++ uuid

/-! ## Validation -/

/-- Why a specification is refused. -/
inductive SandboxRefusal where
  | cpus
  | memory (memory : Text)
  | pidsLimit (limit : Nat)
  | imageNotConfigured
  | imageInvalid (image : Text)
  | imageWithoutName (image : Text)
  | imageNotPinned (image : Text)
  | imageDigest (image : Text)
  | imageEmptyTag (image : Text)
  | imageLatest (image : Text)
  | timeout (secs : Nat)
  | emptyCommand
  | entrypoint (entrypoint : Text)
  | mountWithoutPath
  | mountNotAbsolute (containerPath : Text)
  | mountTarget (containerPath : Text)
  | mountWritable (containerPath : Text)
  | mountCharacter
  | scratchNotAbsolute (path : Text)
  | scratchCharacter (path : Text)
  | scratchShadowsScan (path : Text)
  | envName (name : Text)
  | envValue (name : Text)
  | notApproved (image : Text) (network : NetworkMode)
  | entrypointNotApproved (entrypoint : Text)
  | hostNotAbsolute
  | hostNotObservable (hostPath : Text)
  | lostFlag (flag : Text)
  | lostNetwork
  | notRun
  | forbiddenCapability (argument : Text)
deriving DecidableEq

/-- `512m`, `2g`, `1024k`. -/
def validMemory (memory : Text) : Bool :=
  match memory.getLast? with
  | none => false
  | some unit =>
      decide (unit ∈ ['m', 'M', 'g', 'G', 'k', 'K']) &&
        (parseU64 memory.dropLast).any (0 < ·)

def ResourceLimits.validate (limits : ResourceLimits) :
    Except SandboxRefusal Unit := do
  refuseIf (¬ (BinaryFloat.value limits.cpus).any
    (fun cpus => 0 < cpus ∧ cpus ≤ 8) = true) .cpus
  refuseIf (validMemory limits.memory = false) (.memory limits.memory)
  refuseIf (limits.pidsLimit = 0 ∨ 2048 < limits.pidsLimit)
    (.pidsLimit limits.pidsLimit)

/-- The name of an image and its tag or digest. -/
def splitImageRef (image : Text) : Text × Option Text :=
  match Text.rsplitOnce '@' image with
  | some (name, digest) => (name, some digest)
  | none =>
      let (registry, last) := match Text.rsplitOnce '/' image with
        | some (registry, last) => (registry ++ ['/'], last)
        | none => ([], image)
      match Text.rsplitOnce ':' last with
      | some (name, tag) => (registry ++ name, some tag)
      | none => (image, none)

def isWhitespaceOrControl (character : Char) : Bool :=
  Text.isWhitespace character || Text.isControl character

/-- Refuse a floating image reference. -/
def validatePinnedImage (image : Text) : Except SandboxRefusal Unit := do
  let img := image.trim
  refuseIf (img = []) .imageNotConfigured
  refuseIf (img.startsWith "-" = true ∨ img.any isWhitespaceOrControl = true)
    (.imageInvalid img)
  let (name, reference) := splitImageRef img
  refuseIf (name = []) (.imageWithoutName img)
  match reference with
  | none => .error (.imageNotPinned img)
  | some reference =>
      match reference.stripPrefix "sha256:" with
      | some hex =>
          refuseIf (¬ (hex.byteLen = 64 ∧
            hex.all Text.isAsciiHexdigit = true)) (.imageDigest img)
      | none => do
          refuseIf (reference = []) (.imageEmptyTag img)
          refuseIf (reference = "latest") (.imageLatest img)

/-- The paths a scanner may observe. -/
def allowedContainerPaths : List Text := [scanMount, configMount]

def validateMount (mount : SandboxMount) : Except SandboxRefusal Unit := do
  refuseIf (mount.hostPath.trim = [] ∨ mount.containerPath.trim = [])
    .mountWithoutPath
  refuseIf (mount.containerPath.startsWith "/" = false)
    (.mountNotAbsolute mount.containerPath)
  refuseIf (mount.containerPath ∉ allowedContainerPaths)
    (.mountTarget mount.containerPath)
  refuseIf (mount.readOnly = false) (.mountWritable mount.containerPath)
  refuseIf (mount.hostPath.any (fun character =>
    character = ':' || character = '\n' || character = '\r' ||
      character = '\x00') = true) .mountCharacter

def validateTmpfsPath (path : Text) : Except SandboxRefusal Unit := do
  refuseIf (path.startsWith "/" = false ∨ path.byteLen < 2)
    (.scratchNotAbsolute path)
  refuseIf (path.any (fun character => isWhitespaceOrControl character ||
    character = ':' || character = ',' || character = '=' ||
      character = '\x00') = true) (.scratchCharacter path)
  refuseIf (path = scanMount) (.scratchShadowsScan path)

def isAsciiAlphanumeric (character : Char) : Bool :=
  Text.isAsciiDigit character || Text.isAsciiUppercase character ||
    Text.isAsciiLowercase character

def validateEnv : Text × Text → Except SandboxRefusal Unit
  | (name, value) => do
      refuseIf (¬ (name ≠ [] ∧
        name.all (fun character =>
          isAsciiAlphanumeric character || character = '_') = true ∧
        name.head?.any Text.isAsciiDigit = false)) (.envName name)
      refuseIf (value.any (fun character =>
        character = '\n' || character = '\r' || character = '\x00') = true)
        (.envValue name)

def validateEntrypoint (entrypoint : Text) : Except SandboxRefusal Unit :=
  refuseIf (entrypoint.trim = [] ∨ entrypoint.startsWith "-" = true ∨
    entrypoint.any isWhitespaceOrControl = true) (.entrypoint entrypoint)

/-- Check a specification without running it. -/
def validateSpec (spec : SandboxSpec) : Except SandboxRefusal Unit := do
  validatePinnedImage spec.image
  spec.limits.validate
  refuseIf (spec.timeoutSecs = 0 ∨ maxTimeoutSecs < spec.timeoutSecs)
    (.timeout spec.timeoutSecs)
  refuseIf (spec.command = []) .emptyCommand
  spec.entrypoint.forM validateEntrypoint
  spec.mounts.forM validateMount
  spec.extraTmpfs.forM validateTmpfsPath
  spec.env.forM validateEnv

/-! ## The execution policy -/

def approvedScannerExecutions : List (Text × NetworkMode) :=
  [("ghcr.io/gitleaks/gitleaks:v8.18.4", .none),
    ("ghcr.io/google/osv-scanner:v2.2.4", .filtered),
    ("semgrep/semgrep:1.96.0", .none)]

def deniedExact : List Text := ["/", "/var/run/docker.sock"]

def deniedPrefixes : List Text :=
  ["/proc/", "/sys/", "/dev/", "/etc/", "/root/", "/var/run/", "/run/"]

def canonicalHostPath (hostPath : Text) : Text := Paths.canonical hostPath

def rejectSensitiveHostPath (hostPath : Text) : Except SandboxRefusal Unit := do
  refuseIf (hostPath.startsWith "/" = false) .hostNotAbsolute
  let cleaned := canonicalHostPath hostPath
  refuseIf (cleaned ∈ deniedExact ∨ deniedPrefixes.any (fun opening =>
    cleaned.startsWith opening ||
      cleaned = opening.rdropWhile (· = '/')) = true)
    (.hostNotObservable hostPath)

def requiredFlags : List Text :=
  ["run", "--rm", "--init", "--read-only", "--cap-drop=ALL",
    "--security-opt=no-new-privileges", "--user=65534:65534"]

/-- An argument that asks for a removed capability. -/
def forbiddenArgument (argument : Text) : Bool :=
  argument = "--privileged" || argument.startsWith "--pid=" ||
    argument = "--network=host" || argument.startsWith "--uts=" ||
    argument.startsWith "--ipc=" || argument.startsWith "--cap-add" ||
    argument = "--device" || argument.startsWith "--device=" ||
    argument = "--volumes-from" || argument = "exec" ||
    argument.contains "docker.sock"

def assertHardenedArgv (argv : List Text) (network : NetworkMode) :
    Except SandboxRefusal Unit := do
  requiredFlags.forM fun flag => refuseIf (flag ∉ argv) (.lostFlag flag)
  refuseIf (network.asDockerArg ∉ argv) .lostNetwork
  refuseIf (argv.head? ≠ some ("run" : Text)) .notRun
  argv.forM fun argument =>
    refuseIf (forbiddenArgument argument = true) (.forbiddenCapability argument)

/-- The policy on a specification, before Docker is touched. -/
def enforceExecutionPolicy (spec : SandboxSpec) :
    Except SandboxRefusal Unit := do
  refuseIf ((spec.image, spec.network) ∉ approvedScannerExecutions)
    (.notApproved spec.image spec.network)
  spec.entrypoint.forM fun entrypoint =>
    refuseIf (entrypoint ≠ "sh") (.entrypointNotApproved entrypoint)
  spec.mounts.forM fun mount => rejectSensitiveHostPath mount.hostPath
  assertHardenedArgv (dockerArgv spec "firecrow-policy-check") spec.network

end Specifications

end FireCrow.Services
