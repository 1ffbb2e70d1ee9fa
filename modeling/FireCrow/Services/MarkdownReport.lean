import FireCrow.Library.Markdown
import FireCrow.Services.Reporter

/-!
# The Markdown presentation

The rows of the Markdown presentation of a report.  Prose is entity-escaped,
evidence stands in a fence and is reproduced but for its backtick runs.
-/

namespace FireCrow.Services.Report

open FireCrow.Library FireCrow.Library.Markdown
open FireCrow.Schemas FireCrow.Services.Email

/-- A zero-width space breaks every run of three backticks. -/
def neutralizeCodeFence : Text → Text
  | '`' :: '`' :: '`' :: rest =>
      '`' :: '`' :: '\u200b' :: '`' :: neutralizeCodeFence rest
  | character :: rest => character :: neutralizeCodeFence rest
  | [] => []

def confidenceSourceStr : ConfidenceSource → Text
  | .scanner => "scanner"
  | .scannerDefault => "scanner_default"
  | .absent => "absent"

def evidenceKindStr : EvidenceKind → Text
  | .secret => "secret"
  | .dependency => "dependency"
  | .source => "source"
  | .unknown => "unknown"

def correlationBasisStr : CorrelationBasis → Text
  | .exactCanonicalIdentity => "exact_canonical_identity"

def heading1 (text : Text) : Row := .line ['#', ' '] text

def heading2 (text : Text) : Row := .line ['#', '#', ' '] text

def heading3 (text : Text) : Row := .line ['#', '#', '#', ' '] text

def entry (text : Text) : Row := .line ['-', ' '] text

def label (text : Text) : Row := .line ['*', '*'] text

def noFindings : Row := .line "No findings were reported." []

section Rendering

variable [FloatFormat] [ScoreFormat]

def identityLines (report : CanonicalAuditReport) : List Row :=
  [heading1 "FireCrow Security Audit Report", .blank, heading2 "Identity", .blank,
    entry ("Audit ID: " ++ sanitizeHtmlEntities report.identity.auditId),
    entry ("Execution ID: " ++ sanitizeHtmlEntities report.identity.executionId),
    entry ("Attempt: " ++ Text.ofInt report.identity.attemptNumber.toInt),
    entry ("Repository: " ++ sanitizeHtmlEntities report.identity.repositoryUrl),
    entry ("Branch: " ++ sanitizeHtmlEntities report.identity.repoBranch),
    entry ("Snapshot: " ++ report.identity.snapshotCommit.getD "unavailable"),
    entry ("Files analyzed: " ++ Text.ofNat report.identity.snapshotFileCount),
    entry ("Snapshot size (bytes): " ++
      Text.ofNat report.identity.snapshotTotalSize),
    entry ("Coverage state: " ++ report.coverage.state.asStr),
    entry ("Canonical schema version: " ++
      Text.ofNat report.identity.canonicalSchemaVersion),
    entry ("Report schema version: " ++
      Text.ofNat report.identity.reportSchemaVersion), .blank]

def scoreLine : Option ℚ → Text
  | some value => "Security score: " ++ ScoreFormat.tenths value ++ "/10"
  | none => "Security score: unavailable because scan coverage is incomplete. " ++
      "A partial scan cannot be scored; the missing value is not zero."

def summaryRows (report : CanonicalAuditReport) : List Row :=
  [heading2 "Executive Summary", .blank,
    .prose (sanitizeHtmlEntities report.summary.headline), .blank,
    entry ("Findings: " ++ Text.ofNat report.summary.findingCount),
    entry ("Invalid findings: " ++ Text.ofNat report.summary.invalidFindingCount),
    entry ("Duplicate groups: " ++ Text.ofNat report.summary.duplicateGroupCount),
    entry (scoreLine report.summary.securityScore), .blank]

/-- The entries of a list, or one that says that there are none. -/
def listed {Item : Type} (row : Item → Row) (items : List Item) : List Row :=
  if items.isEmpty then [entry "(none)"] else items.map row

def severityRow (count : Text × Nat) : Row :=
  entry (count.1 ++ ": " ++ Text.ofNat count.2)

def scannerRow (count : Text × Nat) : Row :=
  entry (sanitizeHtmlEntities count.1 ++ ": " ++ Text.ofNat count.2)

def limitationRow (limitation : Text) : Row :=
  entry (sanitizeHtmlEntities limitation)

def countRows (report : CanonicalAuditReport) : List Row :=
  [heading3 "Findings by severity", .blank] ++
  listed severityRow report.summary.findingsBySeverity.entries ++
  [.blank, heading3 "Findings by scanner", .blank] ++
  listed scannerRow report.summary.findingsByScanner.entries ++ [.blank]

def coverageRows (report : CanonicalAuditReport) : List Row :=
  [heading2 "Coverage", .blank, entry ("Status: " ++ report.coverage.status.asStr),
    entry ("Complete: " ++ yesOrNo report.coverage.complete),
    entry ("Successful scanners: " ++
      if report.coverage.successfulScanners.isEmpty then ("(none)" : Text)
      else joinedScanners report),
    entry ("Unsuccessful scanners: " ++
      if report.coverage.unsuccessfulScanners.entries.isEmpty then ("(none)" : Text)
      else joinedFailures report), .blank, heading3 "Limitations", .blank] ++
  listed limitationRow report.limitations ++ [.blank]

def locationOf (location : CanonicalLocation) : Text :=
  let start := location.file ++ ':' :: Text.ofInt location.line.toInt
  match location.endLine with
  | some last =>
      if last.toInt = location.line.toInt then start
      else start ++ '–' :: Text.ofInt last.toInt
  | none => start

def weaknessRows (cwe : Text) : List Row :=
  [label ("CWE:** " ++ sanitizeHtmlEntities cwe), .blank]

def categoryRows (owasp : Text) : List Row :=
  [label ("OWASP:** " ++ sanitizeHtmlEntities owasp), .blank]

def confidenceRows (source : ConfidenceSource) (confidence : Text) : List Row :=
  [label ("Confidence:** " ++ sanitizeHtmlEntities confidence ++ " (" ++
    confidenceSourceStr source ++ ")"), .blank]

def evidenceRows (finding : CanonicalAuditFinding) : List Row :=
  [label ("Evidence (" ++ evidenceKindStr finding.evidenceKind ++ ")**" ++
      (if finding.evidenceTruncated then (" [truncated]" : Text) else []) ++ ":"),
    .fenced (neutralizeCodeFence finding.evidence), .blank]

def remediationRows (remediation : Text) : List Row :=
  [label ("Suggested remediation:** " ++ sanitizeHtmlEntities remediation), .blank]

def referenceRow (reference : CanonicalReference) : Row :=
  entry ("[" ++ sanitizeHtmlEntities reference.referenceType ++ "] " ++
    sanitizeHtmlEntities reference.url)

def referenceRows (references : List CanonicalReference) : List Row :=
  if references.isEmpty then []
  else [label "References:**", .blank] ++ references.map referenceRow ++ [.blank]

def findingHeading (index : Nat) (finding : CanonicalAuditFinding) : List Row :=
  [heading3 (Text.ofNat (index + 1) ++ ". " ++ sanitizeHtmlEntities finding.title ++
      " [" ++ finding.severity.asStr ++ "]"), .blank,
    .prose (sanitizeHtmlEntities finding.description), .blank,
    label ("Scanner:** " ++ sanitizeHtmlEntities finding.provenance.scanner ++ " (" ++
      sanitizeHtmlEntities finding.provenance.scannerVersion ++ ")"), .blank,
    label ("Rule:** " ++ sanitizeHtmlEntities finding.provenance.ruleId), .blank,
    label ("Location:** `" ++ (locationOf finding.location).filter (· ≠ '`') ++ "`"),
    .blank]

/-- The rows of the options that a finding has. -/
def optionRows (finding : CanonicalAuditFinding) : List Row :=
  finding.cweId.toList.flatMap weaknessRows ++
  finding.owaspCategory.toList.flatMap categoryRows ++
  finding.confidence.toList.flatMap (confidenceRows finding.confidenceSource)

def findingRows (index : Nat) (finding : CanonicalAuditFinding) : List Row :=
  findingHeading index finding ++ optionRows finding ++ evidenceRows finding ++
    finding.remediation.toList.flatMap remediationRows ++
    referenceRows finding.references

def numberedRows (numbered : CanonicalAuditFinding × Nat) : List Row :=
  findingRows numbered.2 numbered.1

def findingsRows (report : CanonicalAuditReport) : List Row :=
  [heading2 ("Findings (" ++ Text.ofNat report.summary.findingCount ++ ")"),
    .blank] ++
  (if report.findings.isEmpty then [noFindings, .blank] else []) ++
  report.findings.zipIdx.flatMap numberedRows

def correlationRow (correlation : FindingCorrelation) : Row :=
  entry ("`" ++ correlation.correlationId ++ "` (" ++
    correlationBasisStr correlation.basis ++ "): " ++
      Text.ofNat correlation.occurrences ++ " occurrence(s)")

def invalidRow (invalid : InvalidFinding) : Row :=
  entry ("`" ++ invalid.id ++ "`: " ++ sanitizeHtmlEntities invalid.reason ++
    " (scanner: " ++ sanitizeHtmlEntities (invalid.scanner.getD "unknown") ++
    ", file: " ++ sanitizeHtmlEntities (invalid.file.getD "unknown") ++ ")")

/-- A section, unless it has no entries. -/
def optionalSection {Item : Type} (name : Text) (row : Item → Row)
    (items : List Item) : List Row :=
  if items.isEmpty then []
  else [heading2 name, .blank] ++ items.map row ++ [.blank]

def disclaimerRow (disclaimer : Text) : Row :=
  entry (sanitizeHtmlEntities disclaimer)

/-- The rows of the Markdown presentation. -/
def markdownRows (report : CanonicalAuditReport) : List Row :=
  identityLines report ++ summaryRows report ++ countRows report ++
    coverageRows report ++ findingsRows report ++
    optionalSection "Correlations" correlationRow report.correlations ++
    optionalSection "Invalid findings" invalidRow report.invalidFindings ++
    ([heading2 "Notices", .blank] ++ report.disclaimers.map disclaimerRow ++
      [.blank])

/-- Render the deterministic Markdown presentation of a report. -/
def renderMarkdown (report : CanonicalAuditReport) : Text :=
  document (markdownRows report)

end Rendering

end FireCrow.Services.Report
