import FireCrow.Services.EmailArtifact

/-!
# The Telegram artifact

A message carries the whole report where it fits the limit of the provider, and
an explicitly labelled summary elsewhere.
-/

namespace FireCrow.Services.Telegram

open FireCrow.Library FireCrow.Library.Fragment
open FireCrow.Schemas FireCrow.Services.Email

def deliverySchemaVersion : Int32 := 1

/-- The UTF-16 code units of a character. -/
def utf16Units (character : Char) : Nat :=
  if character.toNat < 0x10000 then 1 else 2

/-- Telegram's size unit. -/
def utf16Len (text : Text) : Nat := (text.map utf16Units).sum

def telegramMaxMessageChars : Nat := 4096

/-- Ceiling on the executive summary in a summary message. -/
def summaryProseChars : Nat := 600

/-- Ceiling on the repository URL in a summary message. -/
def maxRepositoryChars : Nat := 120

/-- One message for the transport. -/
structure TelegramMessage where
  schemaVersion : Int32
  executionId : Text
  attemptNumber : Int32
  text : Text
  isSummary : Bool
  omittedFindings : Nat

section Rendering

variable [FloatFormat] [ScoreFormat]

def repositoryText (report : CanonicalAuditReport) : Text :=
  report.identity.repositoryUrl.trim.take maxRepositoryChars

def headerFragments (report : CanonicalAuditReport) : List Fragment :=
  [fixed "Fire Crow security audit — SUMMARY\n", fixed "Repository: ",
    data (repositoryText report), fixed "\nBranch: ",
    data report.identity.repoBranch, fixed "\nExecution: ",
    data report.identity.executionId, fixed " (attempt ",
    data (Text.ofInt report.identity.attemptNumber.toInt),
    fixed ")\nScan status: ", data (coverageLabel report), fixed "\n"]

/-- The sentence of a message without individual findings. -/
def noFindingsSentence : Text :=
  "\nNo individual findings: every scanner completed and none reported a finding.\n"

def omittedFragments (report : CanonicalAuditReport) : List Fragment :=
  [fixed "\n", data (Text.ofNat report.findings.length),
    fixed " individual finding(s) are NOT shown in this message.\n",
    fixed "Their details, evidence, and locations are in the full report for this execution.\n",
    fixed "Nothing has been assessed as resolved or removed.\n"]

def verdictFragments (report : CanonicalAuditReport) : List Fragment :=
  if report.findings.isEmpty then [fixed noFindingsSentence]
  else omittedFragments report

def proseFragments (narrative : ReportNarrative) : List Fragment :=
  [fixed "\nAI explanation (non-authoritative)\n",
    data (narrative.executiveSummary.take summaryProseChars), fixed "\n"]

def referenceFragments (report : CanonicalAuditReport) : List Fragment :=
  [fixed "\nReference: Fire Crow execution ", data report.identity.executionId,
    fixed " (attempt ", data (Text.ofInt report.identity.attemptNumber.toInt),
    fixed "). Open this execution's report for the full findings.\n"]

/-- The fragments of the summary. -/
def summaryFragments (report : CanonicalAuditReport)
    (narrative : Option ReportNarrative) : List Fragment :=
  headerFragments report ++ coverageText report ++ summaryText report ++
    verdictFragments report ++ narrative.toList.flatMap proseFragments ++
      limitationsText report ++ referenceFragments report

/-- The explicitly labelled summary. -/
def summary (report : CanonicalAuditReport) (narrative : Option ReportNarrative) :
    Text :=
  assemble (summaryFragments report narrative)

/-- Render the message for one execution. -/
def renderMessage (report : CanonicalAuditReport)
    (narrative : Option ReportNarrative) (limit : Nat) : TelegramMessage :=
  let full := textBody report narrative
  if utf16Len full ≤ limit then
    { schemaVersion := deliverySchemaVersion
      executionId := report.identity.executionId
      attemptNumber := report.identity.attemptNumber
      text := full
      isSummary := false
      omittedFindings := 0 }
  else
    { schemaVersion := deliverySchemaVersion
      executionId := report.identity.executionId
      attemptNumber := report.identity.attemptNumber
      text := summary report narrative
      isSummary := true
      omittedFindings := report.findings.length }

end Rendering

end FireCrow.Services.Telegram
