import FireCrow.Library.JsonRoundTrip
import FireCrow.Library.Markup
import FireCrow.Schemas.AiNarrative

/-!
# The email artifact

One rendering of a report and an optional narrative as plain text and as HTML.
A document is the list of its fragments: what the template writes, and the
values that it interpolates.
-/

namespace FireCrow.Services.Email

open FireCrow.Library FireCrow.Library.Fragment FireCrow.Schemas

/-- How a score is written. -/
class ScoreFormat where
  /-- `{:.1}` -/
  tenths : ℚ → Text
  /-- `{}` -/
  shortest : ℚ → Text
  tenths_plain : ∀ value, ∀ character ∈ tenths value,
    Text.isAsciiDigit character = true ∨ character = '.' ∨ character = '-'
  shortest_plain : ∀ value, ∀ character ∈ shortest value,
    Text.isAsciiDigit character = true ∨ character = '.' ∨ character = '-'

theorem ofInt_plain (number : Int) {character : Char}
    (member : character ∈ Text.ofInt number) :
    Text.isAsciiDigit character = true ∨ character = '.' ∨ character = '-' := by
  cases number with
  | ofNat number =>
      exact .inl (List.all_eq_true.1 (Text.ofNat_digits number) _ member)
  | negSucc number =>
      rcases List.mem_cons.1 member with rfl | digit
      · exact .inr (.inr rfl)
      · exact .inl (List.all_eq_true.1 (Text.ofNat_digits _) _ digit)

theorem tenths_wholeNumber_plain (number : Int) {character : Char}
    (member : character ∈ Text.ofInt number ++ ['.', '0']) :
    Text.isAsciiDigit character = true ∨ character = '.' ∨ character = '-' := by
  rcases List.mem_append.1 member with whole | zero
  · exact ofInt_plain number whole
  · simp only [List.mem_cons, List.not_mem_nil, or_false] at zero
    rcases zero with rfl | rfl
    · exact .inr (.inl rfl)
    · exact .inl rfl

/-- The format of whole numbers. -/
@[reducible]
def ScoreFormat.wholeNumbers : ScoreFormat where
  tenths value := Text.ofInt value.floor ++ ['.', '0']
  shortest value := Text.ofInt value.floor
  tenths_plain value _ := tenths_wholeNumber_plain value.floor
  shortest_plain value _ := ofInt_plain value.floor

/-- Escape text for safe interpolation into HTML. -/
def escapeHtml (value : Text) : Text :=
  value.flatMap fun character =>
    if character = '&' then ("&amp;" : Text)
    else if character = '<' then "&lt;"
    else if character = '>' then "&gt;"
    else if character = '"' then "&quot;"
    else if character = '\'' then "&#39;"
    else [character]

/-! ## Plain text -/

section Rendering

variable [FloatFormat] [ScoreFormat]

/-- Taken verbatim from the report's own state. -/
def coverageLabel (report : CanonicalAuditReport) : Text :=
  report.coverage.state.asStr

def scoreText (report : CanonicalAuditReport) : Text :=
  match report.summary.securityScore with
  | some score => ScoreFormat.shortest score
  | none => "Not available"

def yesOrNo (complete : Bool) : Text :=
  if complete then "yes" else "no"

def headerText (report : CanonicalAuditReport) : List Fragment :=
  [fixed "Fire Crow security audit\n", fixed "Repository: ",
    data report.identity.repositoryUrl, fixed "\nBranch: ",
    data report.identity.repoBranch, fixed "\nExecution: ",
    data report.identity.executionId, fixed " (attempt ",
    data (Text.ofInt report.identity.attemptNumber.toInt),
    fixed ")\nScan status: ", data (coverageLabel report), fixed "\n"]

/-- No scanner has left a result. -/
def noScanners (report : CanonicalAuditReport) : Bool :=
  report.coverage.successfulScanners.isEmpty &&
    report.coverage.unsuccessfulScanners.entries.isEmpty

def succeededText (scanner : Text) : List Fragment :=
  [fixed "  ", data scanner, fixed ": succeeded\n"]

def failedText (entry : Text × Text) : List Fragment :=
  [fixed "  ", data entry.1, fixed ": did not succeed (", data entry.2,
    fixed ")\n"]

def coverageText (report : CanonicalAuditReport) : List Fragment :=
  [fixed "\nScanner coverage\n"] ++
  report.coverage.successfulScanners.flatMap succeededText ++
  report.coverage.unsuccessfulScanners.entries.flatMap failedText ++
  (if noScanners report then [fixed "  no scanner results recorded\n"] else []) ++
  [fixed "Coverage complete: ", data (yesOrNo report.coverage.complete),
    fixed "\n"]

def severityText (entry : Text × Nat) : List Fragment :=
  [fixed "    ", data entry.1, fixed ": ", data (Text.ofNat entry.2),
    fixed "\n"]

def summaryText (report : CanonicalAuditReport) : List Fragment :=
  [fixed "\nSecurity summary\n", fixed "  findings: ",
    data (Text.ofNat report.summary.findingCount), fixed "\n"] ++
  report.summary.findingsBySeverity.entries.flatMap severityText ++
  [fixed "  security score: ", data (scoreText report), fixed "\n"]

/-- The sentence of a clean result. -/
def cleanSentence : Text :=
  "  none: every scanner completed and none reported a finding\n"

def incompleteSentence : Text :=
  "  none reported, but coverage was incomplete; this is not a clean result\n"

def locationText (finding : CanonicalAuditFinding) : Text :=
  if finding.location.file.trim.isEmpty then "(no location)"
  else if 0 < finding.location.line.toInt then
    finding.location.file ++ ':' :: Text.ofInt finding.location.line.toInt
  else finding.location.file

def evidenceText (evidence : Text) : List Fragment :=
  if evidence.trim.isEmpty then []
  else [fixed "    evidence: ", data evidence, fixed "\n"]

def remediationText (remediation : Text) : List Fragment :=
  [fixed "    remediation: ", data remediation, fixed "\n"]

def findingText (finding : CanonicalAuditFinding) : List Fragment :=
  [fixed "\n  [", data finding.severity.asStr, fixed "] ", data finding.title,
    fixed "\n    id: ", data finding.id, fixed "\n    scanner: ",
    data finding.provenance.scanner, fixed " (rule ",
    data finding.provenance.ruleId, fixed ")\n    location: ",
    data (locationText finding), fixed "\n"] ++
  evidenceText finding.evidence ++
  finding.remediation.toList.flatMap remediationText

def findingsText (report : CanonicalAuditReport) : List Fragment :=
  [fixed "\nFindings\n"] ++
  (if report.findings.isEmpty then
    [fixed (if report.coverage.complete then cleanSentence
      else incompleteSentence)]
    else []) ++
  report.findings.flatMap findingText

def explanationText (explanation : FindingExplanation) : List Fragment :=
  [fixed "  ", data explanation.findingId, fixed ": ",
    data explanation.explanation, fixed "\n"]

def carriedText (limitation : Text) : List Fragment :=
  [fixed "    - ", data limitation, fixed "\n"]

def narrativeText (narrative : ReportNarrative) : List Fragment :=
  [fixed "\nAI explanation (non-authoritative)\n",
    data narrative.executiveSummary, fixed "\n"] ++
  narrative.findingExplanations.flatMap explanationText ++
  if narrative.limitations.isEmpty then []
  else fixed "\n  Limitations carried from the audit:\n" ::
    narrative.limitations.flatMap carriedText

def limitationText (limitation : Text) : List Fragment :=
  [fixed "  - ", data limitation, fixed "\n"]

def limitationsText (report : CanonicalAuditReport) : List Fragment :=
  if report.limitations.isEmpty then []
  else fixed "\nAudit limitations\n" :: report.limitations.flatMap limitationText

/-- The fragments of the plain text. -/
def textFragments (report : CanonicalAuditReport)
    (narrative : Option ReportNarrative) : List Fragment :=
  headerText report ++ coverageText report ++ summaryText report ++
    findingsText report ++ narrative.toList.flatMap narrativeText ++
      limitationsText report

def textBody (report : CanonicalAuditReport)
    (narrative : Option ReportNarrative) : Text :=
  assemble (textFragments report narrative)

/-! ## HTML -/

/-- An interpolated value. -/
def escaped (value : Text) : Fragment := data (escapeHtml value)

def headerHtml (report : CanonicalAuditReport) : List Fragment :=
  [fixed "<h1>Fire Crow security audit</h1>",
    fixed "<p><strong>Repository:</strong> ",
    escaped report.identity.repositoryUrl,
    fixed "<br><strong>Branch:</strong> ", escaped report.identity.repoBranch,
    fixed "<br><strong>Execution:</strong> ",
    escaped report.identity.executionId, fixed " (attempt ",
    data (Text.ofInt report.identity.attemptNumber.toInt),
    fixed ")<br><strong>Scan status:</strong> ", escaped (coverageLabel report),
    fixed "</p>"]

def succeededHtml (scanner : Text) : List Fragment :=
  [fixed "<li>", escaped scanner, fixed ": succeeded</li>"]

def failedHtml (entry : Text × Text) : List Fragment :=
  [fixed "<li>", escaped entry.1, fixed ": did not succeed (", escaped entry.2,
    fixed ")</li>"]

def coverageHtml (report : CanonicalAuditReport) : List Fragment :=
  [fixed "<h2>Scanner coverage</h2><ul>"] ++
  (if noScanners report then [fixed "<li>no scanner results recorded</li>"]
    else []) ++
  report.coverage.successfulScanners.flatMap succeededHtml ++
  report.coverage.unsuccessfulScanners.entries.flatMap failedHtml ++
  [fixed "</ul>", fixed "<p>Coverage complete: <strong>",
    data (yesOrNo report.coverage.complete), fixed "</strong></p>"]

def severityHtml (entry : Text × Nat) : List Fragment :=
  [fixed "<li>", escaped entry.1, fixed ": ", data (Text.ofNat entry.2),
    fixed "</li>"]

def summaryHtml (report : CanonicalAuditReport) : List Fragment :=
  [fixed "<h2>Security summary</h2>", fixed "<p>Findings: <strong>",
    data (Text.ofNat report.summary.findingCount), fixed "</strong></p><ul>"] ++
  report.summary.findingsBySeverity.entries.flatMap severityHtml ++
  [fixed "</ul>", fixed "<p>Security score: <strong>",
    escaped (scoreText report), fixed "</strong></p>"]

def evidenceHtml (evidence : Text) : List Fragment :=
  if evidence.trim.isEmpty then []
  else [fixed "<li><strong>evidence:</strong> ", escaped evidence, fixed "</li>"]

def remediationHtml (remediation : Text) : List Fragment :=
  [fixed "<li><strong>remediation:</strong> ", escaped remediation,
    fixed "</li>"]

def findingHtml (finding : CanonicalAuditFinding) : List Fragment :=
  [fixed "<h3>", escaped finding.title, fixed " <small>[",
    escaped finding.severity.asStr,
    fixed "]</small></h3><ul><li><strong>id:</strong> ", escaped finding.id,
    fixed "</li><li><strong>scanner:</strong> ",
    escaped finding.provenance.scanner, fixed " (rule ",
    escaped finding.provenance.ruleId,
    fixed ")</li><li><strong>location:</strong> ",
    escaped (locationText finding), fixed "</li>"] ++
  evidenceHtml finding.evidence ++
  finding.remediation.toList.flatMap remediationHtml ++ [fixed "</ul>"]

def cleanParagraph : Text :=
  "<p>No findings: every scanner completed and none reported a finding.</p>"

def incompleteParagraph : Text :=
  "<p><strong>No findings were reported, but coverage was incomplete. This is not a clean result.</strong></p>"

def findingsHtml (report : CanonicalAuditReport) : List Fragment :=
  (if report.findings.isEmpty then
    [fixed (if report.coverage.complete then cleanParagraph
      else incompleteParagraph)]
    else []) ++
  report.findings.flatMap findingHtml

def explanationHtml (explanation : FindingExplanation) : List Fragment :=
  [fixed "<li><strong>", escaped explanation.findingId, fixed "</strong>: ",
    escaped explanation.explanation, fixed "</li>"]

def limitationHtml (limitation : Text) : List Fragment :=
  [fixed "<li>", escaped limitation, fixed "</li>"]

def narrativeHtml (narrative : ReportNarrative) : List Fragment :=
  [fixed "<h2>AI explanation <small>(non-authoritative)</small></h2>",
    fixed "<p>", escaped narrative.executiveSummary, fixed "</p>"] ++
  (if narrative.findingExplanations.isEmpty then []
    else fixed "<ul>" ::
      narrative.findingExplanations.flatMap explanationHtml ++
        [fixed "</ul>"]) ++
  if narrative.limitations.isEmpty then []
  else fixed "<p>Limitations carried from the audit:</p><ul>" ::
    narrative.limitations.flatMap limitationHtml ++ [fixed "</ul>"]

def limitationsHtml (report : CanonicalAuditReport) : List Fragment :=
  if report.limitations.isEmpty then []
  else fixed "<h2>Audit limitations</h2><ul>" ::
    report.limitations.flatMap limitationHtml ++ [fixed "</ul>"]

/-- The fragments of the HTML. -/
def htmlFragments (report : CanonicalAuditReport)
    (narrative : Option ReportNarrative) : List Fragment :=
  headerHtml report ++ coverageHtml report ++ summaryHtml report ++
    findingsHtml report ++ narrative.toList.flatMap narrativeHtml ++
      limitationsHtml report

def htmlBody (report : CanonicalAuditReport)
    (narrative : Option ReportNarrative) : Text :=
  assemble (htmlFragments report narrative)

end Rendering

end FireCrow.Services.Email
