import FireCrow.Agents.Scanner
import FireCrow.Services.Redaction

/-!
# The Gitleaks adapter

One entry of the scanner's report becomes a finding: the secret is cut out of
the matched text, the rest passes the shared redactor, and the rule, the
fingerprint and the columns go into the metadata.  The run adds its provenance
to the metadata by reading the text again.
-/

namespace FireCrow.Agents

open FireCrow.Library FireCrow.Schemas FireCrow.Services.Redaction

/-- Container path the repository is mounted at. -/
def sourceMount : Text := "/scan"

def snippetMaxChars : Nat := 400

/-- One entry of Gitleaks' JSON report. -/
structure GitleaksFinding where
  ruleId : Text
  description : Text
  file : Text
  startLine : Int64
  startColumn : Int64
  endColumn : Int64
  matchText : Text
  secret : Text
  commit : Text
  fingerprint : Text

/-- Strip the container mount so that the stored path is repository-relative. -/
def normalizeRepoPath (path : Text) : Text :=
  let mounted : Text := sourceMount ++ ['/']
  let relative :=
    if path.startsWith mounted then path.drop mounted.length else path
  relative.dropWhile (· == '/')

/-- Deterministic fingerprint for one raw detection. -/
def gitleaksFingerprint (found : GitleaksFinding) (filePath : Text) : Text :=
  if found.fingerprint.isBlank then
    ("gitleaks:" : Text) ++ found.ruleId ++ ':' :: filePath ++
      ':' :: Text.ofInt found.startLine.toInt ++
      ':' :: Text.ofInt found.startColumn.toInt
  else ("gitleaks:" : Text) ++ found.fingerprint.trim

/-- A line number that fits. -/
def lineNumber (line : Int64) : Option Int32 :=
  if Int32.minValue.toInt ≤ line.toInt ∧ line.toInt ≤ Int32.maxValue.toInt then
    some (Int32.ofInt line.toInt)
  else none

/-- The matched text, or the rule with its secret when there is none. -/
def rawSnippet (found : GitleaksFinding) : Text :=
  if found.matchText.isBlank then
    found.ruleId ++ (" = " : Text) ++ found.secret
  else found.matchText

/-- The snippet with the secret value cut out. -/
def withoutSecret (found : GitleaksFinding) : Text :=
  if found.secret = [] then rawSnippet found
  else (rawSnippet found).replace found.secret "[REDACTED]"

def gitleaksTitle (found : GitleaksFinding) : Text :=
  if found.description.isBlank then
    ("Exposed secret: " : Text) ++ found.ruleId
  else found.description

def gitleaksDescription (found : GitleaksFinding) : Text :=
  ("gitleaks rule " : Text) ++ found.ruleId ++ (": " : Text) ++
    found.description

def gitleaksRemediation : Text :=
  "Revoke the exposed credential, remove it from the repository history, and load it from a secret manager at runtime."

section Metadata

variable [FloatFormat]

/-- Stable metadata for one detection: never the secret. -/
def gitleaksMetadata (found : GitleaksFinding) (filePath : Text) : JsonMap :=
  let facts : List (Text × Json) :=
    [("rule_id", .string found.ruleId),
      ("fingerprint", .string (gitleaksFingerprint found filePath)),
      ("start_column", .int (JsonInt.ofSigned found.startColumn)),
      ("end_column", .int (JsonInt.ofSigned found.endColumn))]
  let metadata := SortedMap.ofList facts
  if found.commit.isBlank then metadata
  else metadata.insert "commit" (.string found.commit)

/-- Convert one entry into a finding with a fresh storage identifier. -/
def findingFromGitleaks (id : Text) (found : GitleaksFinding) : Finding where
  id := id
  agentSource := "gitleaks"
  title := gitleaksTitle found
  description := gitleaksDescription found
  severity := .high
  evidence := some (redactText (withoutSecret found) snippetMaxChars)
  remediation := some gitleaksRemediation
  cweId := some "CWE-798"
  owaspCategory := some "A07:2021"
  confidence := some "high"
  scannerName := some "gitleaks"
  scannerMode := some "secret"
  filePath := some (normalizeRepoPath found.file)
  lineNumber := lineNumber found.startLine
  metadataJson := some
    (Json.object
      (gitleaksMetadata found (normalizeRepoPath found.file)).entries).render

/-- The run-level facts of a finding. -/
def runProvenance (scanner : Scanner) (input : ScanInput)
    (metadata : JsonMap) : JsonMap :=
  let commit : Json :=
    match input.commitSha with
    | some commit => .string commit
    | none => .null
  (((metadata.insert "scanner_version" (.string scanner.version)).insert
    "parser" (.string scanner.parser)).insert
    "scanner_image" (.string scanner.image)).insert "snapshot_commit" commit

/-- Add the provenance of the run to the metadata of a finding. -/
def withRunProvenance (finding : Finding) (scanner : Scanner)
    (input : ScanInput) : Finding :=
  match finding.metadataJson.bind Json.parse with
  | some (.object members) =>
      let metadata := runProvenance scanner input (SortedMap.ofList members)
      { finding with
        metadataJson := some (Json.object metadata.entries).render }
  | _ => finding

end Metadata

end FireCrow.Agents
