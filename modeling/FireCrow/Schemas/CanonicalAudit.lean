import FireCrow.Library.Json
import FireCrow.Schemas.AuditState

/-!
# The canonical audit contract

The versioned document that the multi-scanner normalization produces, with the
validators that decide what may enter it.  Scores are rational numbers: the
contract compares them for presence only.
-/

namespace FireCrow.Schemas

open FireCrow.Library

def canonicalAuditVersion : Nat := 1

def maxCanonicalEvidenceChars : Nat := 512

def maxCanonicalMetadataBytes : Nat := 8192

def maxCanonicalReferences : Nat := 64

def maxCanonicalReferenceUrlChars : Nat := 2048

def maxCanonicalTextChars : Nat := 4096

/-- Execution status after unifying all scanner outcomes. -/
inductive CanonicalScannerStatus where
  | successClean
  | successFindings (findingCount : Nat)
  | failed (reason : Text)
  | timeout (limitSecs : Nat)
  | cancelled
  | noFilesAnalyzed (reason : Text)
deriving DecidableEq

namespace CanonicalScannerStatus

def asStr : CanonicalScannerStatus → Text
  | .successClean => "success_clean"
  | .successFindings _ => "success_findings"
  | .failed _ => "failed"
  | .timeout _ => "timeout"
  | .cancelled => "cancelled"
  | .noFilesAnalyzed _ => "no_files_analyzed"

def coverageKnown : CanonicalScannerStatus → Bool
  | .successClean => true
  | .successFindings _ => true
  | _ => false

def findingCount : CanonicalScannerStatus → Option Nat
  | .successClean => some 0
  | .successFindings count => some count
  | _ => none

end CanonicalScannerStatus

/-- Aggregate scanner coverage for one audit. -/
inductive CoverageStatus where
  | complete
  | partial_
  | absent
deriving DecidableEq

def CoverageStatus.asStr : CoverageStatus → Text
  | .complete => "complete"
  | .partial_ => "partial"
  | .absent => "absent"

structure CanonicalProvenance where
  scanner : Text
  scannerVersion : Text
  parser : Text
  scannerImage : Text
  ruleId : Text
  nativeFingerprint : Text
  snapshotCommit : Option Text
deriving DecidableEq

structure CanonicalLocation where
  file : Text
  line : Int32
  startColumn : Option Int64
  endLine : Option Int64
  endColumn : Option Int64
deriving DecidableEq

structure CanonicalReference where
  referenceType : Text
  url : Text
deriving DecidableEq

inductive ConfidenceSource where
  | scanner
  | scannerDefault
  | absent
deriving DecidableEq

inductive EvidenceKind where
  | secret
  | dependency
  | source
  | unknown
deriving DecidableEq

inductive CorrelationBasis where
  | exactCanonicalIdentity
deriving DecidableEq

/-- One group of findings that share an exact canonical identity. -/
structure FindingCorrelation where
  correlationId : Text
  canonicalId : Text
  basis : CorrelationBasis
  occurrences : Nat
  provenance : List CanonicalProvenance
deriving DecidableEq

/-- A finding excluded from canonical output, with a safe failure record. -/
structure InvalidFinding where
  id : Text
  scanner : Option Text
  file : Option Text
  reason : Text
  evidenceChars : Option Nat
deriving DecidableEq

/-- One scanner's canonical execution status. -/
structure CanonicalScannerRun where
  scanner : Text
  version : Text
  parser : Text
  mode : Text
  image : Text
  status : CanonicalScannerStatus
  findingCount : Option Nat
  coverageKnown : Bool
  detail : Option Text
  limitations : List Text
deriving DecidableEq

/-- Aggregate coverage derived from scanner runs. -/
structure CanonicalCoverage where
  status : CoverageStatus
  complete : Bool
  successfulScanners : List Text
  unsuccessfulScanners : SortedMap Text Text
  limitations : List Text

/-- Aggregate finding counts. -/
structure CanonicalSummary where
  findingCount : Nat
  validFindingCount : Nat
  invalidFindingCount : Nat
  duplicateGroupCount : Nat
  findingsByScanner : SortedMap Text Nat
  findingsBySeverity : SortedMap Text Nat
  securityScore : Option ℚ

/-- Errors that prevent building a canonical audit at all. -/
inductive CanonicalAuditError where
  | missingScanId
  | missingRepository
  | missingScannerRuns
  | inconsistentScore (score : Option ℚ) (coverage : Text)
  | missingSnapshot

section Metadata

variable [FloatFormat]

/-- One validated canonical finding. -/
structure CanonicalAuditFinding where
  id : Text
  agentSource : Text
  title : Text
  description : Text
  severity : Severity
  confidence : Option Text
  confidenceSource : ConfidenceSource
  cweId : Option Text
  owaspCategory : Option Text
  remediation : Option Text
  provenance : CanonicalProvenance
  nativeId : Text
  location : CanonicalLocation
  evidence : Text
  evidenceKind : EvidenceKind
  evidenceTruncated : Bool
  references : List CanonicalReference
  scannerMetadata : JsonMap

/-- The versioned canonical audit document. -/
structure CanonicalAudit where
  schemaVersion : Nat
  scanId : Text
  repositoryUrl : Text
  repoBranch : Text
  repoOwner : Text
  repoName : Text
  snapshotCommit : Option Text
  snapshotFileCount : Nat
  snapshotTotalSize : Nat
  scannerRuns : List CanonicalScannerRun
  coverage : CanonicalCoverage
  findings : List CanonicalAuditFinding
  correlations : List FindingCorrelation
  invalidFindings : List InvalidFinding
  limitations : List Text
  summary : CanonicalSummary

/-- Parse curated finding metadata, which must be a JSON object. -/
def parseMetadata (finding : Finding) : Except Text JsonMap :=
  match Json.parse (finding.metadataJson.getD ("\x7b\x7d" : Text)) with
  | none => .error "metadata is not valid JSON"
  | some (.object members) => .ok (SortedMap.ofList members)
  | some _ => .error "metadata is not a JSON object"

/-- The text of a metadata key. -/
def metadataStr (metadata : JsonMap) (key : Text) : Option Text :=
  (metadata.get? key).bind Json.asStr

/-- Canonical rule identity for a finding. -/
def nativeRuleId (metadata : JsonMap) : Except Text Text :=
  let keys : List Text := ["rule_id", "check_id", "advisory"]
  let rules := keys.filterMap (metadataStr metadata)
  match rules.find? fun rule => !rule.isBlank with
  | some rule => .ok rule
  | none => .error "finding has no rule identity"

/-- Scanner-native fingerprint when present. -/
def nativeFingerprint (metadata : JsonMap) : Except Text Text :=
  match metadataStr metadata "fingerprint" with
  | some fingerprint =>
      if fingerprint.isBlank then .error "finding has no native fingerprint"
      else .ok fingerprint
  | none => .error "finding has no native fingerprint"

end Metadata

/-- Validate that a repository-relative path cannot escape the snapshot. -/
def validateRepoPath (path : Text) : Except Text Text :=
  let trimmed := path.trim
  if trimmed.isEmpty then .error "file path is empty"
  else if 1024 < trimmed.byteLen then .error "file path is too long"
  else if trimmed.startsWith "/" ∨ '\\' ∈ trimmed ∨ '\x00' ∈ trimmed then
    .error "file path is not repository-relative"
  else if (".." : Text) ∈ trimmed.splitOn '/' then
    .error "file path escapes the repository"
  else if trimmed.any Text.isControl then
    .error "file path contains control characters"
  else .ok trimmed

/-- Validate that a snapshot commit is either absent or a 40-character
lowercase hex digest. -/
def validateSnapshotCommit (commit : Option Text) :
    Except Text (Option Text) :=
  match commit with
  | none => .ok none
  | some value =>
      if value.isBlank then .ok none
      else if value.byteLen = 40 ∧
          value.all fun character =>
            Text.isAsciiHexdigit character &&
              !Text.isAsciiUppercase character then
        .ok (some value)
      else
        .error "snapshot commit is not a 40-character lowercase hex digest"

end FireCrow.Schemas
