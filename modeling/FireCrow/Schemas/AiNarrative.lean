import FireCrow.Library.Result
import FireCrow.Library.Unicode
import FireCrow.Schemas.Report
import FireCrow.Services.Redaction

/-!
# The narrative contract

The only shape in which a model may describe a report, and the rules that
decide whether a candidate is accepted: identity first, then structure, then
prose.  A rule that slices a text inside a character panics.
-/

namespace FireCrow.Schemas

open FireCrow.Library FireCrow.Services

def aiNarrativeSchemaVersion : Nat := 1

def maxExecutiveSummaryChars : Nat := 2000

def maxExplanationChars : Nat := 2000

def maxGuidanceChars : Nat := 2000

/-- The explanation of one finding. -/
structure FindingExplanation where
  findingId : Text
  severity : Option Text
  explanation : Text
deriving DecidableEq

/-- The remediation advice for one finding. -/
structure RemediationGuidance where
  findingId : Text
  guidance : Text
  verified : Bool
deriving DecidableEq

/-- A narrative attached to a report. -/
structure ReportNarrative where
  narrativeSchemaVersion : Nat
  executiveSummary : Text
  findingExplanations : List FindingExplanation
  remediationGuidance : List RemediationGuidance
  limitations : List Text
deriving DecidableEq

/-- Why a candidate narrative was refused. -/
inductive NarrativeViolation where
  | unsupportedNarrativeVersion (found expected : Nat)
  | unsupportedCanonicalVersion (found expected : Nat)
  | emptyExecutiveSummary
  | emptyExplanation (findingId : Text)
  | emptyGuidance (findingId : Text)
  | executiveSummaryTooLong
  | unknownFindingReference (findingId : Text)
  | duplicateExplanation (findingId : Text)
  | duplicateGuidance (findingId : Text)
  | severityMismatch (findingId claimed canonical : Text)
  | confidenceRestated (findingId : Text)
  | inventedClassification (identifier : Text)
  | verifiedRemediationClaim (findingId : Text)
  | remediationStatedAsFact (findingId : Text)
  | scannerSuccessOverclaim (scanner actual : Text)
  | falseAllClear (count : Nat)
  | secretMaterial
  | inventedLocation (detail : Text)
  | prohibitedClaim (phrase : Text)
  | inventedLimitation (limitation : Text)
  | fieldTooLong (field : Text)
deriving DecidableEq

/-- How a validation ends without a narrative. -/
inductive NarrativeStop where
  | violation (violation : NarrativeViolation)
  /-- A slice inside a character. -/
  | panic
deriving DecidableEq

/-! ## Phrases -/

def allClearPhrases : List Text :=
  ["no vulnerabilities", "no security issues", "no known vulnerabilities",
    "completely secure", "entirely secure", "no threats", "nothing to fix",
    "fully secure"]

def completeCoveragePhrases : List Text :=
  ["fully scanned", "complete coverage", "comprehensive scan",
    "every file was scanned", "all files were analyzed",
    "no files were skipped"]

def verifiedRemediationPhrases : List Text :=
  ["this fixes", "this will fix", "guarantees", "is now secure",
    "has been remediated", "verified fixed"]

def confidenceClaimPhrases : List Text :=
  ["confidence: high", "confidence: medium", "confidence: low",
    "confidence is high", "confidence is low", "high confidence"]

section Validation

variable [tables : UnicodeTables]

/-- The first phrase that occurs, in any case. -/
def containsAny (haystack : Text) (needles : List Text) : Option Text :=
  needles.find? fun needle => haystack.toLowercase.contains needle

/-! ## Locations -/

/-- The parts before and from the first marker that is not the first
character. -/
def splitAtMarker (marker : Char) : Text → Option (Text × Text)
  | [] => none
  | first :: rest =>
      if marker ∈ rest then
        some (first :: rest.takeWhile (· ≠ marker),
          rest.dropWhile (· ≠ marker))
      else none

/-- `line 42`: the digits that stand where the first `line ` of the lower case
ends. -/
def inventedLine (text : Text) : Option (Option Text) :=
  match Text.find "line " text.toLowercase with
  | none => some none
  | some position =>
      (Text.fromByte (position + 5) text).map fun rest =>
        let number := rest.takeWhile Text.isAsciiDigit
        if number.isEmpty then none else some (("line " : Text) ++ number)

/-- A character of a package name. -/
def isPackageCharacter (character : Char) : Bool :=
  tables.isAlphanumeric character || character = '-' || character = '_' ||
    character = '.'

def isVersionCharacter (character : Char) : Bool :=
  Text.isAsciiDigit character || character = '.'

/-- `lodash@1.2.3`: a version after the first marker. -/
def inventedCoordinate (text : Text) : Option (Option Text) :=
  match splitAtMarker '@' text with
  | none => some none
  | some (preceding, following) =>
      let before := (preceding.reverse.takeWhile isPackageCharacter).length
      let after := (following.tail.takeWhile isVersionCharacter).length
      if 0 < before ∧ 3 ≤ after then
        let index := preceding.byteLen
        let start := index - before
        let stop := min (index + 1 + after) text.byteLen
        (Text.slice start stop text).map some
      else some none

/-- The first invented location, if any; no result where a slice panics. -/
def inventedLocation (text : Text) : Option (Option Text) :=
  match splitAtMarker '/' text with
  | some (_, following) =>
      some (some (following.takeWhile fun character =>
        !Text.isWhitespace character))
  | none =>
      match inventedLine text with
      | some none => inventedCoordinate text
      | found => found

/-! ## Identifiers -/

/-- A character of a token. -/
def isTokenCharacter (character : Char) : Bool :=
  Text.isAsciiAlphanumeric character || character = '-'

/-- `CWE-79`, `CVE-2024-1234` or a bare `A01`. -/
def looksLikeIdentifier (upper : Text) : Bool :=
  upper.startsWith "CWE-" || upper.startsWith "CVE-" ||
    upper.byteLen = 3 && upper.startsWith "A" &&
      upper.tail.all Text.isAsciiDigit

/-- Collect the tokens that look like a classification, given the token that
has been read so far. -/
def proseIdentifiersAfter (current : Text) : Text → List Text
  | [] => []
  | character :: rest =>
      if isTokenCharacter character then
        proseIdentifiersAfter (current ++ [character]) rest
      else
        let upper := current.toUppercase
        (if looksLikeIdentifier upper then [upper] else []) ++
          proseIdentifiersAfter [] rest

/-- The classification-looking tokens of a text. -/
def proseIdentifiers (text : Text) : List Text :=
  proseIdentifiersAfter [] (text ++ [' '])

variable [FloatFormat]

/-- Every identifier that the audit contains. -/
def canonicalIdentifiers (report : CanonicalAuditReport) : List Text :=
  report.findings.flatMap fun finding =>
    (finding.cweId.toList ++ finding.owaspCategory.toList ++
      finding.references.map CanonicalReference.url).map fun identifier =>
        identifier.trim.toUppercase

/-! ## Structure -/

def refuse {Result : Type} (violation : NarrativeViolation) :
    Except NarrativeStop Result :=
  .error (.violation violation)

/-- Stop at a violation. -/
def forbid (condition : Prop) [Decidable condition]
    (violation : NarrativeViolation) : Except NarrativeStop Unit :=
  refuseIf condition (.violation violation)

def knownFindings (report : CanonicalAuditReport) : List Text :=
  report.findings.map CanonicalAuditFinding.id

def severityOf (report : CanonicalAuditReport) (id : Text) : Option Severity :=
  (report.findings.find? fun finding => finding.id = id).map
    CanonicalAuditFinding.severity

/-- A severity that is restated is the one of the finding. -/
def checkSeverity (report : CanonicalAuditReport)
    (explanation : FindingExplanation) : Except NarrativeStop Unit :=
  match explanation.severity with
  | none => .ok ()
  | some claimed =>
      match severityOf report explanation.findingId with
      | none => refuse (.unknownFindingReference explanation.findingId)
      | some canonical =>
          forbid (!Text.eqIgnoreAsciiCase claimed canonical.asStr)
            (.severityMismatch explanation.findingId claimed canonical.asStr)

/-- Each explanation is of a finding that was not explained before. -/
def checkExplanations (report : CanonicalAuditReport) :
    List Text → List FindingExplanation → Except NarrativeStop Unit
  | _, [] => .ok ()
  | explained, explanation :: rest => do
      forbid (explanation.findingId ∉ knownFindings report)
        (.unknownFindingReference explanation.findingId)
      forbid (explanation.findingId ∈ explained)
        (.duplicateExplanation explanation.findingId)
      forbid (explanation.explanation.trim.isEmpty)
        (.emptyExplanation explanation.findingId)
      forbid (maxExplanationChars < explanation.explanation.length)
        (.fieldTooLong "an explanation")
      checkSeverity report explanation
      checkExplanations report (explanation.findingId :: explained) rest

/-- Each guidance is for a finding that had none before. -/
def checkGuidance (report : CanonicalAuditReport) :
    List Text → List RemediationGuidance → Except NarrativeStop Unit
  | _, [] => .ok ()
  | guided, guidance :: rest => do
      forbid (guidance.findingId ∉ knownFindings report)
        (.unknownFindingReference guidance.findingId)
      forbid (guidance.findingId ∈ guided)
        (.duplicateGuidance guidance.findingId)
      forbid guidance.verified (.verifiedRemediationClaim guidance.findingId)
      forbid (guidance.guidance.trim.isEmpty)
        (.emptyGuidance guidance.findingId)
      forbid (maxGuidanceChars < guidance.guidance.length)
        (.fieldTooLong "a remediation guidance")
      checkGuidance report (guidance.findingId :: guided) rest

/-- Each limitation is one that the audit recorded. -/
def checkLimitations (report : CanonicalAuditReport) :
    List Text → Except NarrativeStop Unit
  | [] => .ok ()
  | limitation :: rest => do
      forbid (limitation ∉ report.limitations) (.inventedLimitation limitation)
      checkLimitations report rest

/-! ## Prose -/

/-- Every text that the model wrote. -/
def ReportNarrative.texts (narrative : ReportNarrative) : List Text :=
  narrative.executiveSummary ::
    (narrative.findingExplanations.map FindingExplanation.explanation ++
      narrative.remediationGuidance.map RemediationGuidance.guidance)

def checkLocation (text : Text) : Except NarrativeStop Unit :=
  match inventedLocation text with
  | none => .error .panic
  | some none => .ok ()
  | some (some detail) => refuse (.inventedLocation detail)

def checkCoverage (report : CanonicalAuditReport) (text : Text) :
    Except NarrativeStop Unit :=
  if report.coverage.complete then .ok ()
  else
    match containsAny text completeCoveragePhrases with
    | none => .ok ()
    | some phrase => refuse (.prohibitedClaim phrase)

def checkIdentifiers (knownIdentifiers : List Text) :
    List Text → Except NarrativeStop Unit
  | [] => .ok ()
  | identifier :: rest => do
      forbid (identifier ∉ knownIdentifiers)
        (.inventedClassification identifier)
      checkIdentifiers knownIdentifiers rest

def checkText (report : CanonicalAuditReport) (knownIdentifiers : List Text)
    (text : Text) : Except NarrativeStop Unit := do
  forbid (Redaction.containsKnownCredentialAssignment text) .secretMaterial
  checkLocation text
  forbid
    ((0 < report.summary.findingCount ∨
        0 < report.summary.invalidFindingCount) ∧
      (containsAny text allClearPhrases).isSome)
    (.falseAllClear report.summary.findingCount)
  checkCoverage report text
  checkIdentifiers knownIdentifiers (proseIdentifiers text)

def checkTexts (report : CanonicalAuditReport) (knownIdentifiers : List Text) :
    List Text → Except NarrativeStop Unit
  | [] => .ok ()
  | text :: rest => do
      checkText report knownIdentifiers text
      checkTexts report knownIdentifiers rest

def checkRemediation : List RemediationGuidance → Except NarrativeStop Unit
  | [] => .ok ()
  | guidance :: rest => do
      forbid (containsAny guidance.guidance verifiedRemediationPhrases).isSome
        (.remediationStatedAsFact guidance.findingId)
      checkRemediation rest

/-- Whether a text says that the scanner succeeded. -/
def saysSucceeded (joined scanner : Text) : Bool :=
  joined.contains (scanner.toLowercase ++ (" succeeded" : Text)) ||
    joined.contains (scanner.toLowercase ++ (" passed" : Text)) ||
    joined.contains (scanner.toLowercase ++ (" completed successfully" : Text))

def checkScanners (joined : Text) :
    List (Text × Text) → Except NarrativeStop Unit
  | [] => .ok ()
  | (scanner, status) :: rest => do
      forbid (saysSucceeded joined scanner)
        (.scannerSuccessOverclaim scanner status)
      checkScanners joined rest

def checkConfidence : List Text → Except NarrativeStop Unit
  | [] => .ok ()
  | text :: rest => do
      forbid (confidenceClaimPhrases.any text.toLowercase.contains)
        (.confidenceRestated "unspecified")
      checkConfidence rest

/-- The rules on every text that the model wrote. -/
def validateProse (report : CanonicalAuditReport)
    (narrative : ReportNarrative) (knownIdentifiers : List Text) :
    Except NarrativeStop ReportNarrative := do
  checkTexts report knownIdentifiers narrative.texts
  checkRemediation narrative.remediationGuidance
  checkScanners (Text.join " " narrative.texts).toLowercase
    report.coverage.unsuccessfulScanners.entries
  checkConfidence narrative.texts
  return narrative

/-- The rules on versions, sizes and references. -/
def validateStructure (report : CanonicalAuditReport)
    (narrative : ReportNarrative) : Except NarrativeStop Unit := do
  forbid (narrative.narrativeSchemaVersion ≠ aiNarrativeSchemaVersion)
    (.unsupportedNarrativeVersion narrative.narrativeSchemaVersion
      aiNarrativeSchemaVersion)
  forbid (report.identity.canonicalSchemaVersion ≠ canonicalAuditVersion)
    (.unsupportedCanonicalVersion report.identity.canonicalSchemaVersion
      canonicalAuditVersion)
  forbid (narrative.executiveSummary.trim.isEmpty) .emptyExecutiveSummary
  forbid (maxExecutiveSummaryChars < narrative.executiveSummary.length)
    .executiveSummaryTooLong
  checkExplanations report [] narrative.findingExplanations
  checkGuidance report [] narrative.remediationGuidance
  checkLimitations report narrative.limitations

/-- Validate a narrative against the report that it describes. -/
def validateNarrative (report : CanonicalAuditReport)
    (narrative : ReportNarrative) : Except NarrativeStop ReportNarrative := do
  validateStructure report narrative
  validateProse report narrative (canonicalIdentifiers report)

end Validation

end FireCrow.Schemas
