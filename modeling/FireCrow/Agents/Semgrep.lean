import FireCrow.Agents.Adapters
import FireCrow.Library.Sha256
import FireCrow.Library.StableSort

/-!
# The Semgrep adapter

A detection with a usable location becomes a finding; the others are refused
and counted.  The rule's own metadata is kept where the rule has any, and the
matched source and a suggested fix pass the shared redactor.
-/

namespace FireCrow.Agents.Semgrep

open FireCrow.Library FireCrow.Schemas FireCrow.Services.Redaction

section Detections

variable [FloatFormat] [TextDigest]

structure SemgrepPos where
  line : Int64
  col : Int64

structure SemgrepMetadata where
  category : Text
  confidence : Text
  likelihood : Text
  impact : Text
  cwe : List Text
  owasp : List Text
  references : List Text
  technology : List Text
  fix : Option Text

structure SemgrepResult where
  checkId : Text
  path : Text
  start : SemgrepPos
  stop : SemgrepPos
  severity : Text
  message : Text
  lines : Text
  fingerprint : Text
  metadata : SemgrepMetadata

def semgrepSnippetMaxChars : Nat := 400
def semgrepMessageMaxChars : Nat := 400

/-- Whether the location of a detection is usable as it is. -/
def validateSemgrepLocation (result : SemgrepResult) : Except Text Unit :=
  if result.checkId.isBlank then .error "missing check_id"
  else if result.path.isBlank then .error "missing path"
  else if result.start.line.toInt < 1 then
    .error "start line is not positive"
  else if result.stop.line.toInt < 1 then .error "end line is not positive"
  else if result.stop.line.toInt < result.start.line.toInt then
    .error "end line precedes start line"
  else .ok ()

/-- Map a band of the tool onto the severities. -/
def semgrepSeverity (scannerSeverity : Text) : Severity :=
  let band : Text := scannerSeverity.trim.map Char.toUpper
  if band = "ERROR" then .critical
  else if band = "WARNING" then .medium
  else if band = "INFO" then .low
  else .unknown

/-- The text before the first occurrence of a marker. -/
def before (marker : Text) : Text → Text
  | [] => []
  | character :: rest =>
      if marker.isPrefixOf (character :: rest) then []
      else character :: before marker rest

/-- The identifier of the first entry that is not blank. -/
def firstId (marker : Text) (entries : List Text) : Option Text :=
  (((entries.map Text.trim).find? fun entry => !entry.isEmpty).map
    fun entry => (before marker entry).trim).filter fun id => !id.isEmpty

def firstCweId (entries : List Text) : Option Text := firstId ":" entries

def firstOwaspId (entries : List Text) : Option Text := firstId " - " entries

/-- The urls of the references, each once. -/
def semgrepReferences (entries : List Text) : List Text :=
  sortBy id
    ((entries.map Text.trim).foldl
      (fun kept url =>
        if url.isEmpty ∨ url ∈ kept then kept else kept ++ [url]) [])

def referenceJson (url : Text) : Json :=
  let members : List (Text × Json) :=
    [("type", .string "WEB"), ("url", .string url)]
  .object (SortedMap.ofList members).entries

def semgrepDerivedFingerprint (result : SemgrepResult) (filePath : Text) :
    Text :=
  ("semgrep:" : Text) ++
    TextDigest.hexDigest (("semgrep|" : Text) ++ result.checkId ++
      '|' :: filePath ++ '|' :: Text.ofInt result.start.line.toInt ++
      ':' :: Text.ofInt result.start.col.toInt ++
      '|' :: Text.ofInt result.stop.line.toInt ++
      ':' :: Text.ofInt result.stop.col.toInt)

/-- The tool's own fingerprint within the rule, or one of the location. -/
def semgrepFingerprint (result : SemgrepResult) (filePath : Text) : Text :=
  if result.fingerprint.isBlank then semgrepDerivedFingerprint result filePath
  else
    ("semgrep:" : Text) ++ result.checkId ++ ':' :: result.fingerprint.trim

def nonEmpty (value : Text) : Option Text :=
  if value.isBlank then none else some value.trim

/-- An entry of the metadata that is there when the text is not blank. -/
def trimmedEntry (key value : Text) : List (Text × Json) :=
  (nonEmpty value).toList.map fun text => (key, .string text)

/-- An entry that is there when the list has items. -/
def listEntry (key : Text) (items : List Json) : List (Text × Json) :=
  if items = [] then [] else [(key, .array items)]

/-- A suggested fix, which nobody has verified. -/
def suggestion (fix : Text) : Json :=
  let members : List (Text × Json) :=
    [("kind", .string "autofix"), ("unverified", .bool true),
      ("diff", .string (redactText fix semgrepMessageMaxChars))]
  .object (SortedMap.ofList members).entries

def semgrepMetadata (result : SemgrepResult) (filePath : Text) : JsonMap :=
  let column : Int64 → Json := fun number => .int (JsonInt.ofSigned number)
  let rule := result.metadata
  let facts : List (Text × Json) :=
    [("rule_id", .string result.checkId),
      ("check_id", .string result.checkId),
      ("fingerprint", .string (semgrepFingerprint result filePath)),
      ("fingerprint_source",
        .string (if result.fingerprint.isBlank then "derived" else "semgrep")),
      ("start_line", column result.start.line),
      ("start_column", column result.start.col),
      ("end_line", column result.stop.line),
      ("end_column", column result.stop.col),
      ("scanner_severity", .string result.severity)]
  let fix : List (Text × Json) :=
    (result.metadata.fix.filter fun fix => !fix.isBlank).toList.map
      fun fix => ("scanner_suggestion", suggestion fix)
  SortedMap.ofList (facts ++ trimmedEntry "confidence" rule.confidence ++
    trimmedEntry "likelihood" rule.likelihood ++
    trimmedEntry "impact" rule.impact ++
    trimmedEntry "category" rule.category ++
    listEntry "technology" (rule.technology.map .string) ++
    listEntry "cwe" (rule.cwe.map .string) ++
    listEntry "owasp" (rule.owasp.map .string) ++
    listEntry "references"
      ((semgrepReferences rule.references).map referenceJson) ++ fix)

/-- Convert one detection into a finding with a fresh storage identifier. -/
def findingFromSemgrep (id : Text) (result : SemgrepResult) : Finding where
  id := id
  agentSource := "semgrep"
  title := result.checkId
  description := truncateChars result.message.trim semgrepMessageMaxChars
  severity := semgrepSeverity result.severity
  evidence := some
    (redactText
      (truncateChars (result.lines.rdropWhile Text.isWhitespace)
        semgrepSnippetMaxChars)
      snippetMaxChars)
  remediation := none
  cweId := firstCweId result.metadata.cwe
  owaspCategory := firstOwaspId result.metadata.owasp
  confidence := nonEmpty result.metadata.confidence
  scannerName := some "semgrep"
  scannerMode := some "sast"
  filePath := some (normalizeRepoPath result.path)
  lineNumber := lineNumber result.start.line
  metadataJson := some
    (Json.object
      (semgrepMetadata result (normalizeRepoPath result.path)).entries).render

/-- The detections with a usable location. -/
def located (results : List SemgrepResult) : List SemgrepResult :=
  results.filter fun result => (validateSemgrepLocation result).isOk

/-- The refused detections: rule, path and reason. -/
def rejected (results : List SemgrepResult) : List (Text × Text × Text) :=
  results.filterMap fun result =>
    match validateSemgrepLocation result with
    | .ok _ => none
    | .error reason => some (result.checkId, result.path, reason)

/-- The findings of a report. -/
def findingsFromSemgrep (ids : Nat → Text) (results : List SemgrepResult) :
    List Finding :=
  (located results).mapIdx fun index result =>
    findingFromSemgrep (ids index) result

end Detections

end FireCrow.Agents.Semgrep
