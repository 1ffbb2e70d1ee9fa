import FireCrow.Library.Result
import FireCrow.Library.Sha256
import FireCrow.Library.StableSort
import FireCrow.Agents.Scanner
import FireCrow.Schemas.CanonicalAudit
import FireCrow.Services.Redaction

/-!
# Canonical multi-scanner normalization

The embedding of the normalizer: scanner results become canonical runs and
coverage, findings are validated, identified, grouped by identity and either
kept or quarantined.  The grouping is written out twice in the program, once
for the document and once for the rows that are persisted, and it is written
out twice here.

The digest behind canonical identifiers is a parameter.
-/

namespace FireCrow.Orchestrator

open FireCrow.Library FireCrow.Schemas FireCrow.Agents FireCrow.Services.Redaction

/-- Scanner identity expected by canonical normalization. -/
def knownScanners : List (Text × Text) :=
  [("gitleaks", "secret"), ("osv", "dependency"), ("semgrep", "sast")]

section Normalization

variable [FloatFormat] [TextDigest]

/-- Input for one canonical audit.  A slice has fewer than `2 ^ 64` items. -/
structure CanonicalAuditRequest where
  scanId : Text
  repositoryUrl : Text
  repoBranch : Text
  repoOwner : Text
  repoName : Text
  snapshotCommit : Option Text
  snapshotFileCount : Nat
  snapshotTotalSize : Nat
  results : List ScannerResult
  findings : List Finding
  securityScore : Option ℚ
  findingsFit : findings.length < 2 ^ 64

structure NormalizedFinding where
  finding : Finding
  metadata : JsonMap
  canonicalId : Text
  nativeId : Text
  provenance : CanonicalProvenance
  location : CanonicalLocation
  evidenceKind : EvidenceKind
  evidenceText : Text
  evidenceTruncated : Bool

structure NormalizedFindings where
  valid : List NormalizedFinding
  invalid : List InvalidFinding
  correlations : Nat
  validCountByScanner : SortedMap Text Nat
  validCountBySeverity : SortedMap Text Nat

def sha256Hex (text : Text) : Text := TextDigest.hexDigest text

/-! ## Scanner runs and coverage -/

/-- Text of an execution record field. -/
def recordText (record : Json) (key : Text) : Text :=
  ((record.get? key).bind Json.asStr).getD []

/-- Map one scanner execution onto the unified canonical status. -/
def canonicalStatus (result : ScannerResult) : CanonicalScannerStatus :=
  match result.outcome with
  | .success findingCount =>
      if findingCount = 0 then .successClean
      else .successFindings findingCount
  | .failed reason =>
      if recordText result.executionRecord "detail" = "no_files_analyzed" then
        .noFilesAnalyzed reason
      else .failed reason
  | .timeout limitSecs => .timeout limitSecs
  | .cancelled => .cancelled

/-- The rejected detections of a semgrep record, when there are any. -/
def rejectedLimitation (result : ScannerResult) : List Text :=
  if result.scanner = "semgrep" then
    match (result.executionRecord.get? "rejected_count").bind Json.asU64 with
    | some rejected =>
        if 0 < rejected then
          [("scanner semgrep excluded " : Text) ++ Text.ofNat rejected ++
            (" detections with invalid locations" : Text)]
        else []
    | none => []
  else []

/-- The unknown coverage of a run that did not succeed. -/
def coverageLimitation (result : ScannerResult) : List Text :=
  let status := canonicalStatus result
  if status.coverageKnown then []
  else
    [("scanner " : Text) ++ result.scanner ++
      (" did not analyze the repository (" : Text) ++ status.asStr ++ [')']]

def statusDetail : CanonicalScannerStatus → Option Text
  | .failed reason => some reason
  | .noFilesAnalyzed reason => some reason
  | .timeout limitSecs =>
      some (("timeout after " : Text) ++ Text.ofNat limitSecs ++ ['s'])
  | .cancelled => some "cancelled"
  | .successClean => none
  | .successFindings _ => none

def canonicalScannerRun (result : ScannerResult) : CanonicalScannerRun :=
  let status := canonicalStatus result
  { scanner := result.scanner
    version := result.version
    parser := recordText result.executionRecord "parser"
    mode := recordText result.executionRecord "mode"
    image := recordText result.executionRecord "image"
    status := status
    findingCount := status.findingCount
    coverageKnown := status.coverageKnown
    detail := statusDetail status
    limitations := coverageLimitation result ++ rejectedLimitation result }

/-- Build sorted canonical scanner runs. -/
def canonicalScannerRuns (results : List ScannerResult) :
    List CanonicalScannerRun :=
  sortBy (·.scanner) (results.map canonicalScannerRun)

/-- Derive aggregate coverage from canonical scanner runs. -/
def canonicalCoverage (runs : List CanonicalScannerRun) : CanonicalCoverage :=
  let successful := sortBy id ((runs.filter (·.coverageKnown)).map (·.scanner))
  let unsuccessful :=
    (runs.filter fun run => !run.coverageKnown).foldl
      (fun map run => map.insert run.scanner run.status.asStr) ∅
  let status : CoverageStatus :=
    if successful.length = runs.length then .complete
    else if successful.isEmpty then .absent
    else .partial_
  { status := status
    complete := status == .complete
    successfulScanners := successful
    unsuccessfulScanners := unsuccessful
    limitations := SortedMap.distinct (runs.flatMap (·.limitations)) }

/-! ## Validation of one finding -/

/-- Generic text bound shared by titles, descriptions, and remediation. -/
def checkText (field value : Text) : Except Text Unit :=
  if value.isBlank then
    .error (("finding " : Text) ++ field ++ (" is empty" : Text))
  else if maxCanonicalTextChars < value.length then
    .error
      (("finding " : Text) ++ field ++ (" exceeds the canonical bound" : Text))
  else .ok ()

/-- Validate curated metadata size and secret safety. -/
def checkMetadataSize (metadata : JsonMap) : Except Text Unit :=
  let sorted := (Json.object metadata.entries).sort
  if maxCanonicalMetadataBytes < sorted.render.byteLen then
    .error "finding metadata exceeds the canonical bound"
  else if sorted.strings.any containsKnownCredentialAssignment then
    .error "finding metadata contains an unredacted credential shape"
  else .ok ()

/-- A text of the metadata that must be present and not blank. -/
def requiredText (metadata : JsonMap) (key : Text) : Except Text Text :=
  match (metadataStr metadata key).map Text.trim with
  | some text =>
      if text.isEmpty then
        .error (("finding metadata has no " : Text) ++ key)
      else .ok text
  | none => .error (("finding metadata has no " : Text) ++ key)

/-- The snapshot commit that provenance records. -/
def provenanceCommit (metadata : JsonMap) (snapshotCommit : Option Text) :
    Except Text (Option Text) :=
  (validateSnapshotCommit
    ((metadataStr metadata "snapshot_commit").or snapshotCommit)).mapError
    fun _ => "finding snapshot commit is invalid"

/-- Provenance retained for every canonical finding. -/
def findingProvenance (finding : Finding) (metadata : JsonMap)
    (snapshotCommit : Option Text) : Except Text CanonicalProvenance := do
  let scannerVersion ← requiredText metadata "scanner_version"
  let parser ← requiredText metadata "parser"
  let scannerImage ← requiredText metadata "scanner_image"
  let ruleId ← nativeRuleId metadata
  let fingerprint ← nativeFingerprint metadata
  let commit ← provenanceCommit metadata snapshotCommit
  return {
    scanner := finding.scannerName.getD []
    scannerVersion := scannerVersion
    parser := parser
    scannerImage := scannerImage
    ruleId := ruleId
    nativeFingerprint := fingerprint
    snapshotCommit := commit }

/-- An optional integer of the metadata. -/
def metadataNumber (metadata : JsonMap) (key : Text) :
    Except Text (Option Int64) :=
  match metadata.get? key with
  | none => .ok none
  | some .null => .ok none
  | some value =>
      match value.asI64 with
      | some number => .ok (some number)
      | none =>
          .error (("finding metadata " : Text) ++ key ++
            (" is not an integer" : Text))

/-- The end of a range must not precede its start. -/
def checkRange (line : Int32) (startColumn endLine endColumn : Option Int64) :
    Except Text Unit :=
  match endLine with
  | none => .ok ()
  | some last =>
      if last.toInt < line.toInt then
        .error "finding end line precedes start line"
      else if last.toInt = line.toInt then
        match startColumn, endColumn with
        | some start, some last =>
            if last.toInt ≠ 0 ∧ start.toInt ≠ 0 ∧ last.toInt < start.toInt then
              .error "finding end column precedes start column"
            else .ok ()
        | _, _ => .ok ()
      else .ok ()

def isNegative : Option Int64 → Bool
  | some number => number.toInt < 0
  | none => false

/-- The repository path of a finding. -/
def findingFile (finding : Finding) : Except Text Text :=
  match finding.filePath with
  | some file =>
      (validateRepoPath file).mapError fun _ => "finding file is invalid"
  | none => .error "finding file is missing"

/-- The positive line of a finding. -/
def findingLine (finding : Finding) : Except Text Int32 :=
  match finding.lineNumber with
  | some line =>
      if 0 < line.toInt then .ok line else .error "finding line is invalid"
  | none => .error "finding line is invalid"

/-- Normalized finding location. -/
def findingLocation (finding : Finding) (metadata : JsonMap) :
    Except Text CanonicalLocation := do
  let file ← findingFile finding
  let line ← findingLine finding
  let startColumn ← metadataNumber metadata "start_column"
  let endLine ← metadataNumber metadata "end_line"
  let endColumn ← metadataNumber metadata "end_column"
  refuseIf (isNegative startColumn) "finding start column is invalid"
  refuseIf (isNegative endColumn) "finding end column is invalid"
  checkRange line startColumn endLine endColumn
  return {
    file := file
    line := line
    startColumn := startColumn
    endLine := endLine
    endColumn := endColumn }

/-- Type-specific evidence checks. -/
def checkEvidence (kind : EvidenceKind) (evidence : Text) :
    Except Text Unit :=
  if maxCanonicalEvidenceChars < evidence.length then
    .error "finding evidence exceeds the canonical bound"
  else
    match kind with
    | .secret =>
        if evidence.contains "[REDACTED]" ||
            evidence.contains "[BASE64_REDACTED]" then
          .ok ()
        else .error "secret evidence has no redaction marker"
    | _ =>
        if containsKnownCredentialAssignment evidence then
          .error "evidence contains an unredacted credential shape"
        else .ok ()

def jsonOfColumn : Option Int64 → Json
  | some column => .int (JsonInt.ofSigned column)
  | none => .null

/-- The identity payload of a detection. -/
def identityPayload (scanner ruleId fingerprint : Text)
    (location : CanonicalLocation) (metadata : JsonMap) (finding : Finding) :
    JsonMap :=
  let facts : List (Text × Json) :=
    [("v", .int (JsonInt.ofUnsigned canonicalAuditVersion)),
      ("scanner", .string scanner),
      ("rule_id", .string ruleId),
      ("native_fingerprint", .string fingerprint),
      ("file", .string location.file),
      ("line", .int (JsonInt.ofSigned32 location.line)),
      ("start_column", jsonOfColumn location.startColumn),
      ("end_line", jsonOfColumn location.endLine),
      ("end_column", jsonOfColumn location.endColumn)]
  let packageKeys : List Text :=
    ["package", "installed_version", "ecosystem", "manifest", "advisory",
      "direct"]
  let package :=
    packageKeys.map fun key => (key, (metadata.get? key).getD .null)
  let evidence : List (Text × Json) :=
    [("evidence_sha256", .string (sha256Hex (finding.evidence.getD [])))]
  SortedMap.ofList (facts ++ package ++ evidence)

/-- Deterministic canonical identity. -/
def canonicalFindingId (scanner ruleId fingerprint : Text)
    (location : CanonicalLocation) (metadata : JsonMap) (finding : Finding) :
    Text :=
  ("canonical-v1:" : Text) ++
    sha256Hex
      (Json.object
        (identityPayload scanner ruleId fingerprint location metadata
          finding).entries).render

/-- Evidence category of a scanner. -/
def evidenceKindOf (scanner : Text) : EvidenceKind :=
  if scanner = "gitleaks" then .secret
  else if scanner = "osv" then .dependency
  else if scanner = "semgrep" then .source
  else .unknown

/-- The scanner that a finding names, with its mode. -/
def scannerIdentity (finding : Finding) : Except Text (Text × Text) :=
  match finding.scannerName, finding.scannerMode with
  | some scanner, some mode => .ok (scanner, mode)
  | _, _ => .error "finding has no scanner identity"

/-- The trimmed evidence of a finding. -/
def evidenceText (finding : Finding) : Except Text Text :=
  match finding.evidence.map Text.trim with
  | some evidence =>
      if evidence.isEmpty then .error "finding evidence is empty"
      else .ok evidence
  | none => .error "finding evidence is empty"

/-- The remediation, where there is one, is bounded text. -/
def checkRemediation (finding : Finding) : Except Text Unit :=
  match finding.remediation with
  | some remediation => checkText "remediation" remediation
  | none => .ok ()

/-- Validate one finding and derive its canonical identity. -/
def normalizeFinding (finding : Finding) (snapshotCommit : Option Text) :
    Except Text NormalizedFinding := do
  let (scanner, mode) ← scannerIdentity finding
  refuseIf ((scanner, mode) ∉ knownScanners)
    "finding has an unknown scanner identity"
  refuseIf (finding.agentSource ≠ scanner) "finding scanner identity mismatch"
  refuseIf finding.title.isBlank "finding title is empty"
  refuseIf finding.description.isBlank "finding description is empty"
  checkText "title" finding.title
  checkText "description" finding.description
  checkRemediation finding
  let metadata ← parseMetadata finding
  checkMetadataSize metadata
  let ruleId ← nativeRuleId metadata
  let fingerprint ← nativeFingerprint metadata
  let provenance ← findingProvenance finding metadata snapshotCommit
  let location ← findingLocation finding metadata
  let evidence ← evidenceText finding
  checkEvidence (evidenceKindOf scanner) evidence
  return {
    finding := finding
    metadata := metadata
    canonicalId :=
      canonicalFindingId scanner ruleId fingerprint location metadata finding
    nativeId := scanner ++ ':' :: fingerprint
    provenance := provenance
    location := location
    evidenceKind := evidenceKindOf scanner
    evidenceText := evidence
    evidenceTruncated := evidence.contains "... [truncated]" }

/-- The scanner of a finding whose name is not blank. -/
def namedScanner (finding : Finding) : Except Text Text :=
  match finding.scannerName with
  | some scanner =>
      if scanner.isBlank then .error "finding has no scanner identity"
      else .ok scanner
  | none => .error "finding has no scanner identity"

/-- Stable identity for one finding, shared by pipeline deduplication. -/
def canonicalIdentity (finding : Finding) : Except Text Text := do
  let metadata ← parseMetadata finding
  let ruleId ← nativeRuleId metadata
  let fingerprint ← nativeFingerprint metadata
  let scanner ← namedScanner finding
  let location ← findingLocation finding metadata
  return canonicalFindingId scanner ruleId fingerprint location metadata finding

/-! ## Quarantined findings -/

/-- The safe failure record of a rejected finding, not yet numbered. -/
def invalidRecord (finding : Finding) (reason : Text) : InvalidFinding :=
  { id := []
    scanner := finding.scannerName
    file := finding.filePath
    reason := reason
    evidenceChars := finding.evidence.map List.length }

/-- The stable fields that rejected findings are sorted and numbered by. -/
abbrev InvalidKey := Text ×ₗ Text ×ₗ Text ×ₗ Nat

def invalidKey (item : InvalidFinding) : InvalidKey :=
  toLex (item.scanner.getD [], toLex (item.file.getD [],
    toLex (item.reason, item.evidenceChars.getD 0)))

/-- The identifier of the rejected finding with this key and number. -/
def invalidId (item : InvalidFinding) (occurrence : Nat) : Text :=
  ("invalid-v1:" : Text) ++
    sha256Hex
      (item.scanner.getD [] ++ '|' :: item.file.getD [] ++ '|' :: item.reason ++
        '|' :: Text.ofNat (item.evidenceChars.getD 0) ++
        '|' :: Text.ofNat occurrence)

/-- Number identical descriptors in order. -/
def numberInvalid :
    Option InvalidKey → Nat → List InvalidFinding → List InvalidFinding
  | _, _, [] => []
  | lastKey, occurrence, item :: rest =>
      let next := if lastKey = some (invalidKey item) then occurrence + 1 else 0
      { item with id := invalidId item next } ::
        numberInvalid (some (invalidKey item)) next rest

/-- Sort the rejected findings by their stable fields and number them. -/
def identifyInvalid (invalid : List InvalidFinding) : List InvalidFinding :=
  numberInvalid none 0 (sortBy invalidKey invalid)

/-- Record a merge on the retained row. -/
def markDuplicates (finding : Finding) (occurrences : Nat) : Finding :=
  match finding.metadataJson.bind Json.parse with
  | some (.object members) =>
      let metadata :=
        (SortedMap.ofList members).insert "duplicate_occurrences"
          (.int (JsonInt.ofUnsigned occurrences))
      { finding with
        metadataJson := some (Json.object metadata.entries).render }
  | _ => finding

/-! ## The document's findings -/

/-- The retained row of one group: the smallest storage identifier, marked
when it stands for more than one finding. -/
def representative (group : List NormalizedFinding) :
    Option NormalizedFinding :=
  let occurrences := group.length
  (sortBy (·.finding.id) group).head?.map fun first =>
    if 1 < occurrences then
      { first with finding := markDuplicates first.finding occurrences }
    else first

/-- Validate, identify, sort, and group findings without merging distinct
rows. -/
def normalizeFindings (findings : List Finding)
    (snapshotCommit : Option Text) : NormalizedFindings :=
  let valid :=
    findings.filterMap fun finding =>
      (normalizeFinding finding snapshotCommit).toOption
  let invalid :=
    findings.filterMap fun finding =>
      match normalizeFinding finding snapshotCommit with
      | .ok _ => none
      | .error reason => some (invalidRecord finding reason)
  let grouped :=
    SortedMap.groupBy (·.canonicalId) (sortBy (·.canonicalId) valid)
  let deduplicated :=
    sortBy (·.canonicalId) (grouped.values.filterMap representative)
  { valid := deduplicated
    invalid := identifyInvalid invalid
    correlations := (grouped.values.filter fun group => 1 < group.length).length
    validCountByScanner := SortedMap.countBy (·.provenance.scanner) deduplicated
    validCountBySeverity :=
      SortedMap.countBy (·.finding.severity.asStr) deduplicated }

/-! ## Canonical findings and their correlation -/

/-- A trimmed text of a reference; empty when it is missing. -/
def referenceText (reference : Json) (key : Text) : Text :=
  (((reference.get? key).bind Json.asStr).map Text.trim).getD []

/-- One reference of the metadata. -/
def canonicalReference (reference : Json) :
    Except Text CanonicalReference := do
  let referenceType := referenceText reference "type"
  refuseIf (referenceType = []) "finding reference type is invalid"
  refuseIf (32 < referenceType.length) "finding reference type is too long"
  let url := referenceText reference "url"
  refuseIf (url = []) "finding reference URL is invalid"
  refuseIf (maxCanonicalReferenceUrlChars < url.length)
    "finding reference URL is too long"
  refuseIf (!(url.startsWith "http://" || url.startsWith "https://"))
    "finding reference URL is invalid"
  return { referenceType := referenceType, url := url }

/-- Canonical references preserved from scanner metadata. -/
def canonicalReferences (metadata : JsonMap) :
    Except Text (List CanonicalReference) :=
  match metadata.get? "references" with
  | none => .ok []
  | some references =>
      match references.asArray with
      | none => .error "finding references are invalid"
      | some references =>
          if maxCanonicalReferences < references.length then
            .error "finding has too many references"
          else do
            let parsed ← references.mapM canonicalReference
            return (sortBy
              (fun reference : CanonicalReference =>
                toLex (reference.url, reference.referenceType))
              parsed).destutter (· ≠ ·)

/-- Where the confidence of a finding comes from. -/
def confidenceSourceOf (finding : Finding) : ConfidenceSource :=
  match finding.scannerName with
  | some scanner =>
      if scanner = "gitleaks" then .scannerDefault
      else if finding.confidence.isSome then .scanner
      else .absent
  | none => .absent

/-- Build one canonical finding view from validated input. -/
def canonicalFinding (normalized : NormalizedFinding) :
    CanonicalAuditFinding :=
  let finding := normalized.finding
  let metadata := (parseMetadata finding).toOption.getD ∅
  { id := normalized.canonicalId
    agentSource := finding.agentSource
    title := finding.title
    description := finding.description
    severity := finding.severity
    confidence := finding.confidence
    confidenceSource := confidenceSourceOf finding
    cweId := finding.cweId
    owaspCategory := finding.owaspCategory
    remediation := finding.remediation
    provenance := normalized.provenance
    nativeId := normalized.nativeId
    location := normalized.location
    evidence := normalized.evidenceText
    evidenceKind := normalized.evidenceKind
    evidenceTruncated := normalized.evidenceTruncated
    references := (canonicalReferences metadata).toOption.getD []
    scannerMetadata :=
      SortedMap.ofList
        (metadata.entries.map fun entry => (entry.1, entry.2.sort)) }

def jsonOfText : Option Text → Json
  | some text => .string text
  | none => .null

/-- The serialized provenance, with its fields in declaration order. -/
def provenanceText (provenance : CanonicalProvenance) : Text :=
  (Json.object
    [("scanner", .string provenance.scanner),
      ("scanner_version", .string provenance.scannerVersion),
      ("parser", .string provenance.parser),
      ("scanner_image", .string provenance.scannerImage),
      ("rule_id", .string provenance.ruleId),
      ("native_fingerprint", .string provenance.nativeFingerprint),
      ("snapshot_commit", jsonOfText provenance.snapshotCommit)]).render

/-- Deserialize a provenance. -/
def provenanceOfText (text : Text) : Option CanonicalProvenance := do
  let value ← Json.parse text
  let field (key : Text) := (value.get? key).bind Json.asStr
  let commit ←
    match value.get? "snapshot_commit" with
    | none => some none
    | some .null => some none
    | some found => found.asStr.map some
  return {
    scanner := ← field "scanner"
    scannerVersion := ← field "scanner_version"
    parser := ← field "parser"
    scannerImage := ← field "scanner_image"
    ruleId := ← field "rule_id"
    nativeFingerprint := ← field "native_fingerprint"
    snapshotCommit := commit }

/-- The merge count that a persisted representative carries. -/
def persistedOccurrences (group : List CanonicalAuditFinding) : Nat :=
  (group.head?.bind fun finding =>
    (finding.scannerMetadata.get? "duplicate_occurrences").bind
      Json.asU64).getD 0

/-- The correlation of the findings with one identity. -/
def correlation (canonicalId : Text) (group : List CanonicalAuditFinding) :
    Option FindingCorrelation :=
  let occurrences := max (max group.length (persistedOccurrences group)) 1
  if 1 < occurrences ∨ 1 < group.length then
    some {
      correlationId := canonicalId
      canonicalId := canonicalId
      basis := .exactCanonicalIdentity
      occurrences := occurrences
      provenance :=
        (SortedMap.distinct
          (group.map fun finding => provenanceText finding.provenance)).filterMap
          provenanceOfText }
  else none

/-- Correlate exact canonical duplicates without merging distinct findings. -/
def correlateFindings (findings : List CanonicalAuditFinding) :
    List FindingCorrelation :=
  (SortedMap.groupBy (·.id) findings).entries.filterMap fun entry =>
    correlation entry.1 entry.2

/-- Aggregate finding counts. -/
def canonicalSummary (coverage : CanonicalCoverage)
    (validCountByScanner validCountBySeverity : SortedMap Text Nat)
    (invalidCount duplicateGroups : Nat) (securityScore : Option ℚ) :
    CanonicalSummary :=
  let findingCount := validCountByScanner.values.sum
  { findingCount := findingCount
    validFindingCount := findingCount
    invalidFindingCount := invalidCount
    duplicateGroupCount := duplicateGroups
    findingsByScanner := SortedMap.ofList validCountByScanner.entries
    findingsBySeverity := validCountBySeverity
    securityScore := if coverage.complete then securityScore else none }

/-- Build the versioned canonical audit. -/
def canonicalAudit (request : CanonicalAuditRequest) :
    Except CanonicalAuditError CanonicalAudit := do
  refuseIf request.scanId.isBlank .missingScanId
  refuseIf request.repositoryUrl.isBlank .missingRepository
  refuseIf (request.results = []) .missingScannerRuns
  let snapshotCommit ←
    (validateSnapshotCommit request.snapshotCommit).mapError fun _ =>
      CanonicalAuditError.missingSnapshot
  let runs := canonicalScannerRuns request.results
  let coverage := canonicalCoverage runs
  refuseIf (coverage.status ≠ .complete ∧ request.securityScore.isSome)
    (.inconsistentScore request.securityScore coverage.status.asStr)
  let normalized := normalizeFindings request.findings snapshotCommit
  let findings := normalized.valid.map canonicalFinding
  return {
    schemaVersion := canonicalAuditVersion
    scanId := request.scanId
    repositoryUrl := request.repositoryUrl
    repoBranch := request.repoBranch
    repoOwner := request.repoOwner
    repoName := request.repoName
    snapshotCommit := snapshotCommit
    snapshotFileCount := request.snapshotFileCount
    snapshotTotalSize := request.snapshotTotalSize
    scannerRuns := runs
    coverage := coverage
    findings := findings
    correlations := correlateFindings findings
    invalidFindings := normalized.invalid
    limitations := coverage.limitations
    summary :=
      canonicalSummary coverage normalized.validCountByScanner
        normalized.validCountBySeverity normalized.invalid.length
        normalized.correlations request.securityScore }

/-- Usable findings are retained even when another scanner fails. -/
def aggregateScanResults (results : List ScannerResult) :
    List Finding × CanonicalCoverage × Option Text :=
  let coverage := canonicalCoverage (canonicalScannerRuns results)
  let findings := (results.filter (·.usable)).flatMap (·.findings)
  let detail :=
    if coverage.complete ∨ coverage.status = .absent then none
    else
      some (("partial coverage: " : Text) ++
        Text.join ", "
          (coverage.unsuccessfulScanners.entries.map fun entry =>
            entry.1 ++ (" (" : Text) ++ entry.2 ++ [')']))
  (findings, coverage, detail)

/-! ## The persisted rows -/

/-- Pipeline normalization output. -/
structure NormalizedPersisted where
  rawCount : Nat
  droppedCount : Nat
  valid : List Finding
  invalid : List InvalidFinding
  duplicateGroups : Nat

/-- The persisted row of one group. -/
def persistedRepresentative (group : List Finding) : Option Finding :=
  let occurrences := group.length
  (sortBy (·.id) group).head?.map fun first =>
    if 1 < occurrences then markDuplicates first occurrences else first

/-- Normalize findings for persistence: sort, validate, dedupe, quarantine. -/
def normalizeFindingsForPersist (findings : List Finding) :
    NormalizedPersisted :=
  let valid :=
    findings.filterMap fun finding =>
      (normalizeFinding finding none).toOption.map fun normalized =>
        (normalized.canonicalId, finding)
  let invalid :=
    findings.filterMap fun finding =>
      match normalizeFinding finding none with
      | .ok _ => none
      | .error reason => some (invalidRecord finding reason)
  let grouped :=
    (SortedMap.groupBy Prod.fst (sortBy Prod.fst valid)).values.map fun group =>
      group.map Prod.snd
  let deduplicated := grouped.filterMap persistedRepresentative
  { rawCount := findings.length
    droppedCount := findings.length - deduplicated.length
    valid := deduplicated
    invalid := identifyInvalid invalid
    duplicateGroups := (grouped.filter fun group => 1 < group.length).length }

end Normalization

end FireCrow.Orchestrator
