import FireCrow.Agents.Scanner
import FireCrow.Services.Sandbox

/-!
# The three scanner runs

The descriptors of the adapters and the sandbox specification that one of them
makes of a source directory.
-/

namespace FireCrow.Agents

open FireCrow.Library FireCrow.Services

section Descriptors

variable [BinaryFloat]

/-- The limits of a scanner that declares none. -/
def defaultLimits : ResourceLimits where
  cpus := BinaryFloat.ofNat 1
  memory := "512m"
  pidsLimit := 256

/-- A scanner with its execution parameters. -/
structure ScannerSpec extends Scanner where
  entrypoint : Option Text
  command : List Text
  network : NetworkMode
  timeoutSecs : Nat
  resourceLimits : ResourceLimits
  extraTmpfs : List Text
  env : List (Text × Text)
  extraMounts : List SandboxMount

def gitleaksReportPath : Text := "/work/gitleaks.json"

def osvReportPath : Text := "/work/osv.json"

def semgrepReportPath : Text := "/work/semgrep.json"

def semgrepRulesDir : Text := "/config"

def semgrepRulesetPath : Text := "/config/firecrow-sast.yml"

def scanTimeoutSecs : Nat := 300

def osvTimeoutSecs : Nat := 300

def semgrepTimeoutSecs : Nat := 600

/-- Stream the report of a command and keep the exit code. -/
def streamReport (reportPath : Text) : Text :=
  ("; code=$?; cat " : Text) ++ reportPath ++ " 2>/dev/null; exit $code"

def ScannerSpec.gitleaks : ScannerSpec where
  toScanner := Scanner.gitleaks
  entrypoint := some "sh"
  command := ["-c",
    ("gitleaks detect --no-git --source=" : Text) ++ scanMount ++
      " --report-format=json --report-path=" ++ gitleaksReportPath ++
      " --exit-code=1 --log-level=error" ++ streamReport gitleaksReportPath]
  network := .none
  timeoutSecs := scanTimeoutSecs
  resourceLimits := defaultLimits
  extraTmpfs := []
  env := []
  extraMounts := []

/-- The dependency scanner, with the proxy that its egress goes through. -/
def ScannerSpec.osv (proxy : Option Text) : ScannerSpec where
  toScanner := Scanner.osv
  entrypoint := some "sh"
  command := ["-c",
    ("/osv-scanner scan source --recursive --allow-no-lockfiles" : Text) ++
      " --format=json --output=" ++ osvReportPath ++ " --verbosity=error " ++
      scanMount ++ streamReport osvReportPath]
  network := .filtered
  timeoutSecs := osvTimeoutSecs
  resourceLimits := defaultLimits
  extraTmpfs := []
  env := match proxy with
    | none => []
    | some url =>
        [("HTTPS_PROXY", url), ("HTTP_PROXY", url), ("https_proxy", url),
          ("http_proxy", url)]
  extraMounts := []

/-- The static analysis, with the host directory of its rules. -/
def ScannerSpec.semgrep (rulesetHostDir : Text) : ScannerSpec where
  toScanner := Scanner.semgrep
  entrypoint := some "sh"
  command := ["-c",
    ("semgrep scan --config=" : Text) ++ semgrepRulesetPath ++
      " --json-output=" ++ semgrepReportPath ++ " --quiet --no-git-ignore" ++
      " --disable-version-check --metrics=off " ++ scanMount ++
      " >/dev/null" ++ streamReport semgrepReportPath]
  network := .none
  timeoutSecs := semgrepTimeoutSecs
  resourceLimits := ⟨BinaryFloat.ofNat 2, "2g", 512⟩
  extraTmpfs := ["/tmp"]
  env := [("HOME", "/work")]
  extraMounts := [⟨rulesetHostDir, semgrepRulesDir, true⟩]

/-- Add scratch paths that are not there yet. -/
def withExtraTmpfs (known paths : List Text) : List Text :=
  paths.foldl (fun known path =>
    if path ≠ workDir ∧ path ∉ known then known ++ [path] else known) known

/-- Set variables that are not set yet. -/
def withEnv (known vars : List (Text × Text)) : List (Text × Text) :=
  vars.foldl (fun known entry =>
    if entry.1 ∈ known.map Prod.fst then known else known ++ [entry]) known

/-- The sandbox invocation of a scanner on a source directory. -/
def sandboxSpec (sourceDir : Text) (scanner : ScannerSpec) : SandboxSpec where
  image := scanner.image
  entrypoint := scanner.entrypoint
  network := scanner.network
  command := scanner.command
  mounts := ⟨sourceDir, scanMount, true⟩ :: scanner.extraMounts
  extraTmpfs := withExtraTmpfs [] scanner.extraTmpfs
  env := withEnv [] scanner.env
  timeoutSecs := scanner.timeoutSecs
  limits := scanner.resourceLimits

end Descriptors

end FireCrow.Agents
