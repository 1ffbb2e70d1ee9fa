import FireCrow.Library.Json
import FireCrow.Schemas.AuditState

/-!
# Scanner results

What a scanner adapter hands to the pipeline.  A result is usable only when
its run succeeded; every other outcome is unknown coverage.
-/

namespace FireCrow.Agents

open FireCrow.Library FireCrow.Schemas

/-- The identity of a scanner. -/
structure Scanner where
  name : Text
  version : Text
  mode : Text
  image : Text
  parser : Text

def Scanner.gitleaks : Scanner where
  name := "gitleaks"
  version := "8.18.4"
  mode := "secret"
  image := "ghcr.io/gitleaks/gitleaks:v8.18.4"
  parser := "gitleaks-json-v1"

def Scanner.osv : Scanner where
  name := "osv"
  version := "2.2.4"
  mode := "dependency"
  image := "ghcr.io/google/osv-scanner:v2.2.4"
  parser := "osv-json-v1"

def Scanner.semgrep : Scanner where
  name := "semgrep"
  version := "1.96.0"
  mode := "sast"
  image := "semgrep/semgrep:1.96.0"
  parser := "semgrep-json-v1"

/-- The snapshot that a scanner read. -/
structure ScanInput where
  commitSha : Option Text
  fileCount : Nat
  totalSize : Nat

/-- How a scanner execution ended. -/
inductive ScannerOutcome where
  | success (findingCount : Nat)
  | failed (reason : Text)
  | timeout (limitSecs : Nat)
  | cancelled
deriving DecidableEq

namespace ScannerOutcome

def asStr : ScannerOutcome → Text
  | .success _ => "success"
  | .failed _ => "failed"
  | .timeout _ => "timeout"
  | .cancelled => "cancelled"

def isSuccess : ScannerOutcome → Bool
  | .success _ => true
  | _ => false

end ScannerOutcome

section Results

variable [FloatFormat]

structure ScannerResult where
  scanner : Text
  version : Text
  mode : Text
  outcome : ScannerOutcome
  findings : List Finding
  executionRecord : Json

namespace ScannerResult

/-- True when a scanner actually reported. -/
def analyzed (result : ScannerResult) : Bool := result.outcome.isSuccess

/-- Whether the pipeline may report a result from this execution. -/
def usable (result : ScannerResult) : Bool := result.analyzed

end ScannerResult

end Results

end FireCrow.Agents
