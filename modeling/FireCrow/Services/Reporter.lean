import FireCrow.Services.EmailArtifact

/-!
# Report rendering

The HTML presentation of a report.  All prose is entity-escaped, evidence as
well.
-/

namespace FireCrow.Services.Report

open FireCrow.Library FireCrow.Library.Fragment FireCrow.Library.Html
open FireCrow.Schemas FireCrow.Services.Email

/-- Every occurrence of a character. -/
def replaceChar (needle : Char) (replacement text : Text) : Text :=
  text.flatMap fun character =>
    if character = needle then replacement else [character]

/-- Escape for surrounding prose. -/
def sanitizeHtmlEntities (input : Text) : Text :=
  replaceChar '\'' "&#x27;" (replaceChar '"' "&quot;" (replaceChar '>' "&gt;"
    (replaceChar '<' "&lt;" (replaceChar '&' "&amp;" input))))

def sanitized (value : Text) : Fragment := data (sanitizeHtmlEntities value)

section Rendering

variable [FloatFormat] [ScoreFormat]

def identityRows (report : CanonicalAuditReport) : List (Text × Text) :=
  [("Audit ID", sanitizeHtmlEntities report.identity.auditId),
    ("Execution ID", sanitizeHtmlEntities report.identity.executionId),
    ("Attempt", Text.ofInt report.identity.attemptNumber.toInt),
    ("Repository", sanitizeHtmlEntities report.identity.repositoryUrl),
    ("Branch", sanitizeHtmlEntities report.identity.repoBranch),
    ("Snapshot", (report.identity.snapshotCommit.map sanitizeHtmlEntities).getD
      "unavailable"),
    ("Files analyzed", Text.ofNat report.identity.snapshotFileCount),
    ("Snapshot size (bytes)", Text.ofNat report.identity.snapshotTotalSize),
    ("Coverage state", report.coverage.state.asStr),
    ("Canonical schema version", Text.ofNat report.identity.canonicalSchemaVersion),
    ("Report schema version", Text.ofNat report.identity.reportSchemaVersion)]

def identityRow (entry : Text × Text) : List Fragment :=
  [fixed "<li><strong>", fixed entry.1, fixed ":</strong> ", data entry.2,
    fixed "</li>\n"]

def identityHtml (report : CanonicalAuditReport) : List Fragment :=
  [fixed "<!DOCTYPE html>\n<html lang=\"en\">\n<head>\n",
    fixed "<meta charset=\"utf-8\">\n",
    fixed "<title>FireCrow Security Audit Report</title>\n",
    fixed "</head>\n<body>\n", fixed "<h1>FireCrow Security Audit Report</h1>\n",
    fixed "<h2>Identity</h2>\n<ul>\n"] ++
  (identityRows report).flatMap identityRow ++ [fixed "</ul>\n"]

def scoreHtml : Option ℚ → List Fragment
  | some value =>
      [fixed "<li>Security score: ", data (ScoreFormat.tenths value),
        fixed "/10</li>\n"]
  | none =>
      [fixed "<li>Security score: unavailable because scan coverage is incomplete. ",
        fixed "A partial scan cannot be scored; the missing value is not zero.</li>\n"]

def summaryHtml (report : CanonicalAuditReport) : List Fragment :=
  [fixed "<h2>Executive Summary</h2>\n", fixed "<p>",
    sanitized report.summary.headline, fixed "</p>\n", fixed "<ul>\n",
    fixed "<li>Findings: ", data (Text.ofNat report.summary.findingCount),
    fixed "</li>\n", fixed "<li>Invalid findings: ",
    data (Text.ofNat report.summary.invalidFindingCount), fixed "</li>\n",
    fixed "<li>Duplicate groups: ",
    data (Text.ofNat report.summary.duplicateGroupCount), fixed "</li>\n"] ++
  scoreHtml report.summary.securityScore ++ [fixed "</ul>\n"]

def joinedScanners (report : CanonicalAuditReport) : Text :=
  Text.join ", " report.coverage.successfulScanners

def joinedFailures (report : CanonicalAuditReport) : Text :=
  Text.join ", " (report.coverage.unsuccessfulScanners.entries.map
    fun (scanner, status) => scanner ++ " (" ++ status ++ ")")

def coverageHtml (report : CanonicalAuditReport) : List Fragment :=
  [fixed "<h2>Coverage</h2>\n<ul>\n", fixed "<li>Status: ",
    data report.coverage.status.asStr, fixed "</li>\n", fixed "<li>Complete: ",
    data (yesOrNo report.coverage.complete), fixed "</li>\n",
    fixed "<li>Successful scanners: ",
    data (if report.coverage.successfulScanners.isEmpty then "(none)"
      else sanitizeHtmlEntities (joinedScanners report)),
    fixed "</li>\n", fixed "<li>Unsuccessful scanners: ",
    data (if report.coverage.unsuccessfulScanners.entries.isEmpty then "(none)"
      else sanitizeHtmlEntities (joinedFailures report)),
    fixed "</li>\n", fixed "</ul>\n"]

def itemHtml (item : Text) : List Fragment :=
  [fixed "<li>", sanitized item, fixed "</li>\n"]

def limitationsHtml (report : CanonicalAuditReport) : List Fragment :=
  [fixed "<h2>Limitations</h2>\n<ul>\n"] ++
  (if report.limitations.isEmpty then [fixed "<li>(none)</li>\n"]
    else report.limitations.flatMap itemHtml) ++
  [fixed "</ul>\n"]

def remediationHtml (remediation : Text) : List Fragment :=
  [fixed "<p><strong>Suggested remediation:</strong> ", sanitized remediation,
    fixed "</p>\n"]

def findingHtml (index : Nat) (finding : CanonicalAuditFinding) : List Fragment :=
  [fixed "<h3>", data (Text.ofNat (index + 1)), fixed ". ",
    sanitized finding.title, fixed " [", data finding.severity.asStr,
    fixed "]</h3>\n", fixed "<p>", sanitized finding.description,
    fixed "</p>\n", fixed "<p>Scanner: ", sanitized finding.provenance.scanner,
    fixed "</p>\n", fixed "<p>Rule: ", sanitized finding.provenance.ruleId,
    fixed "</p>\n", fixed "<p>Location: <code>", sanitized finding.location.file,
    fixed ":", data (Text.ofInt finding.location.line.toInt),
    fixed "</code></p>\n", fixed "<pre>", sanitized finding.evidence,
    fixed "</pre>\n"] ++
  finding.remediation.toList.flatMap remediationHtml

def findingsHtml (report : CanonicalAuditReport) : List Fragment :=
  [fixed "<h2>Findings (", data (Text.ofNat report.summary.findingCount),
    fixed ")</h2>\n"] ++
  (if report.findings.isEmpty then [fixed "<p>No findings were reported.</p>\n"]
    else []) ++
  report.findings.zipIdx.flatMap fun (finding, index) => findingHtml index finding

def noticesHtml (report : CanonicalAuditReport) : List Fragment :=
  [fixed "<h2>Notices</h2>\n<ul>\n"] ++
  report.disclaimers.flatMap itemHtml ++
  [fixed "</ul>\n", fixed "</body>\n</html>\n"]

/-- The fragments of the HTML presentation. -/
def renderedFragments (report : CanonicalAuditReport) : List Fragment :=
  identityHtml report ++ summaryHtml report ++ coverageHtml report ++
    limitationsHtml report ++ findingsHtml report ++ noticesHtml report

/-- Render the HTML presentation of a report. -/
def renderHtml (report : CanonicalAuditReport) : Text :=
  assemble (renderedFragments report)

end Rendering

end FireCrow.Services.Report
