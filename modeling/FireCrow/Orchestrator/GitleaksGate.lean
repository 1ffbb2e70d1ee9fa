import FireCrow.Agents.Gitleaks
import FireCrow.Library.JsonScalars
import FireCrow.Orchestrator.CleanReport

/-!
# Gitleaks detections and the canonical gate

The adapter and the gate were written apart.  `PassesGate` is what a genuine
detection must satisfy to be accepted; the rest of the gate is met by every
row that the adapter builds.  The fingerprint of Gitleaks ends in the rule and
the line, so a rule named after a credential reads as an assignment of it.
-/

namespace FireCrow.Orchestrator

open FireCrow.Library FireCrow.Schemas FireCrow.Agents
open FireCrow.Services.Redaction

/-- A detection as the scanner reports it. -/
structure GenuineDetection (found : GitleaksFinding) : Prop where
  ruleId : found.ruleId ≠ []
  file : ∃ file, validateRepoPath (normalizeRepoPath found.file) = .ok file
  line : 1 ≤ found.startLine.toInt ∧
    found.startLine.toInt ≤ Int32.maxValue.toInt
  columns : 0 ≤ found.startColumn.toInt ∧
    found.startColumn.toInt ≤ found.endColumn.toInt
  secret : found.secret ≠ []
  matched : found.secret <:+: found.matchText
  description : found.description.length ≤ maxCanonicalTextChars
  fingerprint : found.fingerprint =
    found.file ++ ':' :: found.ruleId ++
      ':' :: Text.ofInt found.startLine.toInt

section Gate

variable [FloatFormat]

/-- The metadata of a row once the run has added its provenance. -/
def detectionMetadata (found : GitleaksFinding) (input : ScanInput) : JsonMap :=
  runProvenance Scanner.gitleaks input
    (gitleaksMetadata found (normalizeRepoPath found.file))

/-- The row of a detection. -/
def detectionRow (id : Text) (found : GitleaksFinding) (input : ScanInput) :
    Finding :=
  withRunProvenance (findingFromGitleaks id found) Scanner.gitleaks input

/-- What the gate asks of a genuine detection. -/
structure PassesGate (found : GitleaksFinding) (input : ScanInput)
    (snapshotCommit : Option Text) : Prop where
  ruleId : found.ruleId.isBlank = false
  description : (gitleaksDescription found).length ≤ maxCanonicalTextChars
  metadataSize :
    (Json.object (detectionMetadata found input).entries).render.byteLen ≤
      maxCanonicalMetadataBytes
  ruleSafe : containsKnownCredentialAssignment found.ruleId = false
  fingerprintSafe :
    containsKnownCredentialAssignment
      (("gitleaks:" : Text) ++ found.fingerprint.trim) = false
  commitSafe : found.commit.isBlank = false →
    containsKnownCredentialAssignment found.commit = false
  snapshotSafe : ∀ commit, input.commitSha = some commit →
    containsKnownCredentialAssignment commit = false
  marker : HasMarker (redactText (withoutSecret found) snippetMaxChars)
  snapshot : ∃ commit,
    validateSnapshotCommit (input.commitSha.or snapshotCommit) = .ok commit

/-! ## Metadata -/

theorem gitleaksMetadata_scalars (found : GitleaksFinding) (filePath : Text) :
    Json.Scalars (gitleaksMetadata found filePath) := by
  simp only [gitleaksMetadata]
  have facts : Json.Scalars (SortedMap.ofList
      [("rule_id".toList, Json.string found.ruleId),
        ("fingerprint".toList, .string (gitleaksFingerprint found filePath)),
        ("start_column".toList, .int (JsonInt.ofSigned found.startColumn)),
        ("end_column".toList, .int (JsonInt.ofSigned found.endColumn))]) := by
    apply Json.Scalars.ofList
    simp [Json.Scalar]
  split
  · exact facts
  · exact facts.insert _ trivial

theorem detectionMetadata_scalars (found : GitleaksFinding)
    (input : ScanInput) : Json.Scalars (detectionMetadata found input) := by
  unfold detectionMetadata runProvenance
  have scanner : Json.Scalars
      ((((gitleaksMetadata found (normalizeRepoPath found.file)).insert
        "scanner_version" (.string Scanner.gitleaks.version)).insert
        "parser" (.string Scanner.gitleaks.parser)).insert
        "scanner_image" (.string Scanner.gitleaks.image)) := by
    apply Json.Scalars.insert _ _ (by trivial)
    apply Json.Scalars.insert _ _ (by trivial)
    apply Json.Scalars.insert _ _ (by trivial)
    exact gitleaksMetadata_scalars found _
  cases input.commitSha with
  | none | some => exact scanner.insert _ (by trivial)

variable (id : Text)

section

variable (found : GitleaksFinding)
include found

theorem detectionRow_eq
    (input : ScanInput) :
    detectionRow id found input =
      { findingFromGitleaks id found with
        metadataJson := some
          (Json.object (detectionMetadata found input).entries).render } := by
  have first :=
    (gitleaksMetadata_scalars found (normalizeRepoPath found.file)).parse_render
  rw [detectionRow, withRunProvenance, findingFromGitleaks, Option.bind_some,
    first]
  simp only [SortedMap.ofList_entries]
  rfl

theorem parseMetadata_detectionRow (input : ScanInput) :
    parseMetadata (detectionRow id found input) =
      .ok (detectionMetadata found input) := by
  rw [detectionRow_eq, parseMetadata, Option.getD_some,
    (detectionMetadata_scalars found input).parse_render]
  simp only [SortedMap.ofList_entries]

theorem get?_detectionMetadata (input : ScanInput) :
    (detectionMetadata found input).get? "rule_id" =
        some (.string found.ruleId) ∧
      (detectionMetadata found input).get? "check_id" = none ∧
      (detectionMetadata found input).get? "advisory" = none ∧
      (detectionMetadata found input).get? "fingerprint" =
        some (.string
          (gitleaksFingerprint found (normalizeRepoPath found.file))) ∧
      (detectionMetadata found input).get? "start_column" =
        some (.int (JsonInt.ofSigned found.startColumn)) ∧
      (detectionMetadata found input).get? "end_column" =
        some (.int (JsonInt.ofSigned found.endColumn)) ∧
      (detectionMetadata found input).get? "end_line" = none ∧
      (detectionMetadata found input).get? "scanner_version" =
        some (.string Scanner.gitleaks.version) ∧
      (detectionMetadata found input).get? "parser" =
        some (.string Scanner.gitleaks.parser) ∧
      (detectionMetadata found input).get? "scanner_image" =
        some (.string Scanner.gitleaks.image) := by
  simp only [detectionMetadata, runProvenance, gitleaksMetadata]
  split <;> simp [SortedMap.ofList, SortedMap.get?_insert]

theorem metadataStr_snapshotCommit (input : ScanInput) :
    metadataStr (detectionMetadata found input) "snapshot_commit" =
      input.commitSha := by
  rw [metadataStr, detectionMetadata, runProvenance,
    SortedMap.get?_insert_self]
  cases input.commitSha <;> rfl

theorem nativeRuleId_detectionMetadata (input : ScanInput) :
    (∃ rule, nativeRuleId (detectionMetadata found input) = .ok rule) ↔
      found.ruleId.isBlank = false := by
  rcases get?_detectionMetadata found input with ⟨rule, check, advisory, _⟩
  simp only [nativeRuleId, metadataStr, List.filterMap_cons, rule, check,
    advisory, List.filterMap_nil, Option.bind_some, Option.bind_none,
    Json.asStr]
  cases blank : found.ruleId.isBlank <;> simp [blank]

end

omit [FloatFormat] in
/-- The fingerprint of a row is never blank. -/
theorem gitleaksFingerprint_not_blank (found : GitleaksFinding)
    (filePath : Text) :
    (gitleaksFingerprint found filePath).isBlank = false := by
  have opening : Text.isBlank ("gitleaks:" : Text) = false := by decide
  rw [gitleaksFingerprint]
  split
  · simp only [List.append_assoc, Text.isBlank_append, opening,
      Bool.false_and]
  · rw [Text.isBlank_append, opening, Bool.false_and]

theorem requiredText_of_str {metadata : JsonMap} {key text : Text}
    (found : metadata.get? key = some (.string text))
    (present : text.isBlank = false) :
    requiredText metadata key = .ok text.trim := by
  have kept : text.trim.isEmpty = false := by
    rw [Text.isEmpty_trim]
    exact present
  rw [requiredText, metadataStr, found]
  simp [Json.asStr, kept]

/-- The provenance of a row exists when its rule and its commit do. -/
theorem findingProvenance_detectionRow (found : GitleaksFinding)
    (input : ScanInput) (snapshotCommit : Option Text) :
    (∃ provenance,
      findingProvenance (detectionRow id found input)
        (detectionMetadata found input) snapshotCommit = .ok provenance) ↔
      found.ruleId.isBlank = false ∧
        ∃ commit,
          validateSnapshotCommit (input.commitSha.or snapshotCommit) =
            .ok commit := by
  rcases get?_detectionMetadata found input with
    ⟨_, _, _, fingerprint, _, _, _, version, parser, image⟩
  have native : nativeFingerprint (detectionMetadata found input) =
      .ok (gitleaksFingerprint found (normalizeRepoPath found.file)) := by
    rw [nativeFingerprint, metadataStr, fingerprint]
    simp [Json.asStr, gitleaksFingerprint_not_blank]
  have commits : ∀ commit,
      provenanceCommit (detectionMetadata found input) snapshotCommit =
          .ok commit ↔
        validateSnapshotCommit (input.commitSha.or snapshotCommit) =
          .ok commit := by
    intro commit
    rw [provenanceCommit, metadataStr_snapshotCommit, Result.mapError_eq_ok]
  rw [← nativeRuleId_detectionMetadata found input]
  constructor
  · rintro ⟨provenance, accepted⟩
    rcases findingProvenance_eq_ok.1 accepted with ⟨_, _, _, _, rule, _, commit⟩
    exact ⟨⟨_, rule⟩, _, (commits _).1 commit⟩
  · rintro ⟨⟨rule, ruleOk⟩, commit, commitOk⟩
    refine ⟨⟨_, _, _, _, rule, _, commit⟩, findingProvenance_eq_ok.2
      ⟨rfl, requiredText_of_str version (by decide),
        requiredText_of_str parser (by decide),
        requiredText_of_str image (by decide), ruleOk, native,
        (commits commit).2 commitOk⟩⟩

/-! ## Location -/

omit [FloatFormat] in
theorem lineNumber_eq_some {line : Int64} (positive : 1 ≤ line.toInt)
    (fits : line.toInt ≤ Int32.maxValue.toInt) :
    ∃ number, lineNumber line = some number ∧ 0 < number.toInt := by
  have least : Int32.minValue.toInt = -2 ^ 31 := rfl
  have most : Int32.maxValue.toInt = 2 ^ 31 - 1 := rfl
  refine ⟨Int32.ofInt line.toInt, if_pos ⟨by omega, fits⟩, ?_⟩
  rw [Int32.toInt_ofInt_of_le (by omega) (by omega)]
  omega

theorem metadataNumber_column {metadata : JsonMap} {key : Text} {column : Int64}
    (found : metadata.get? key = some (.int (JsonInt.ofSigned column))) :
    metadataNumber metadata key = .ok (some column) := by
  have small : (JsonInt.ofSigned column).value < 2 ^ 63 := column.toInt_lt
  have same : Int64.ofInt (JsonInt.ofSigned column).value = column :=
    Int64.ofInt_toInt column
  rw [metadataNumber, found]
  simp only [Json.asI64, if_pos small, same]

variable {found : GitleaksFinding}

theorem findingLocation_detectionRow
    (input : ScanInput) (genuine : GenuineDetection found) :
    ∃ location,
      findingLocation (detectionRow id found input)
        (detectionMetadata found input) = .ok location := by
  rcases genuine.file with ⟨file, fileOk⟩
  rcases lineNumber_eq_some genuine.line.1 genuine.line.2 with
    ⟨line, lineOk, positive⟩
  rcases get?_detectionMetadata found input with
    ⟨_, _, _, _, start, finish, endLine, _⟩
  have named : findingFile (detectionRow id found input) = .ok file := by
    simp only [detectionRow_eq, findingFile, findingFromGitleaks, fileOk]
    rfl
  have numbered : findingLine (detectionRow id found input) = .ok line := by
    simp only [detectionRow_eq, findingLine, findingFromGitleaks, lineOk,
      if_pos positive]
  have noEndLine :
      metadataNumber (detectionMetadata found input) "end_line" = .ok none := by
    rw [metadataNumber, endLine]
  have startPositive : ¬ isNegative (some found.startColumn) = true := by
    simpa [isNegative] using genuine.columns.1
  have finishPositive : ¬ isNegative (some found.endColumn) = true := by
    simpa [isNegative] using genuine.columns.1.trans genuine.columns.2
  simp only [findingLocation, Result.bind_eq_ok, Result.pure_eq_ok,
    Result.refuseIf_eq_ok]
  exact ⟨_, file, named, line, numbered, _, metadataNumber_column start, _,
    noEndLine, _, metadataNumber_column finish, (), startPositive, (),
    finishPositive, (), rfl, rfl⟩

/-! ## Texts of the metadata -/

/-- The texts of the metadata. -/
theorem get?_detectionMetadata_string_iff (found : GitleaksFinding)
    (input : ScanInput) (text : Text) :
    (∃ key, (detectionMetadata found input).get? key = some (.string text)) ↔
      text = found.ruleId ∨
        text = gitleaksFingerprint found (normalizeRepoPath found.file) ∨
        (found.commit.isBlank = false ∧ text = found.commit) ∨
        input.commitSha = some text ∨
        text = Scanner.gitleaks.version ∨ text = Scanner.gitleaks.parser ∨
        text = Scanner.gitleaks.image := by
  constructor
  · rintro ⟨key, inside⟩
    simp only [detectionMetadata, runProvenance, gitleaksMetadata,
      SortedMap.get?_insert] at inside
    split at inside
    · cases snapshot : input.commitSha with
      | none => simp only [snapshot, reduceCtorEq, Option.some.injEq] at inside
      | some commit =>
          simp only [snapshot, Option.some.injEq, Json.string.injEq] at inside
          exact Or.inr (Or.inr (Or.inr (Or.inl (congrArg some inside))))
    split at inside
    · simp_all
    split at inside
    · simp_all
    split at inside
    · simp_all
    split at inside
    · simp only [SortedMap.ofList, List.foldl_cons, List.foldl_nil,
        SortedMap.get?_insert, SortedMap.get?_empty] at inside
      split_ifs at inside <;> simp_all
    · simp only [SortedMap.ofList, List.foldl_cons, List.foldl_nil,
        SortedMap.get?_insert, SortedMap.get?_empty] at inside
      split_ifs at inside <;> simp_all
  · rcases get?_detectionMetadata found input with
      ⟨rule, _, _, fingerprint, _, _, _, version, parser, image⟩
    rintro (rfl | rfl | ⟨present, rfl⟩ | snapshot | rfl | rfl | rfl)
    · exact ⟨_, rule⟩
    · exact ⟨_, fingerprint⟩
    · refine ⟨"commit", ?_⟩
      simp [detectionMetadata, runProvenance, gitleaksMetadata, present,
        SortedMap.get?_insert]
    · refine ⟨"snapshot_commit", ?_⟩
      rw [detectionMetadata, runProvenance, SortedMap.get?_insert_self,
        snapshot]
    · exact ⟨_, version⟩
    · exact ⟨_, parser⟩
    · exact ⟨_, image⟩

omit [FloatFormat] in
theorem scanner_safe :
    containsKnownCredentialAssignment Scanner.gitleaks.version = false ∧
      containsKnownCredentialAssignment Scanner.gitleaks.parser = false ∧
      containsKnownCredentialAssignment Scanner.gitleaks.image = false := by
  decide +kernel

/-- The metadata is safe when the texts of the detection are. -/
theorem metadataSafe_iff (found : GitleaksFinding) (input : ScanInput) :
    (Json.object (detectionMetadata found input).entries).strings.any
        containsKnownCredentialAssignment = false ↔
      containsKnownCredentialAssignment found.ruleId = false ∧
        containsKnownCredentialAssignment
          (gitleaksFingerprint found (normalizeRepoPath found.file)) = false ∧
        (found.commit.isBlank = false →
          containsKnownCredentialAssignment found.commit = false) ∧
        ∀ commit, input.commitSha = some commit →
          containsKnownCredentialAssignment commit = false := by
  rw [List.any_eq_false]
  simp only [(detectionMetadata_scalars found input).mem_strings,
    get?_detectionMetadata_string_iff, Bool.not_eq_true]
  constructor
  · intro safe
    exact ⟨safe _ (Or.inl rfl), safe _ (Or.inr (Or.inl rfl)),
      fun present => safe _ (Or.inr (Or.inr (Or.inl ⟨present, rfl⟩))),
      fun commit named =>
        safe _ (Or.inr (Or.inr (Or.inr (Or.inl named))))⟩
  · rintro ⟨rule, fingerprint, commit, snapshot⟩ text
      (rfl | rfl | ⟨present, rfl⟩ | named | rfl | rfl | rfl)
    · exact rule
    · exact fingerprint
    · exact commit present
    · exact snapshot text named
    · exact scanner_safe.1
    · exact scanner_safe.2.1
    · exact scanner_safe.2.2

/-! ## Evidence -/

omit [FloatFormat] in
theorem length_evidence_le (text : Text) :
    (redactText text snippetMaxChars).length ≤ maxCanonicalEvidenceChars := by
  have ending : ("... [truncated]" : Text).length = 15 := rfl
  have cut := Text.byteLen_takeBytes 400 (redactPatterns text)
  have taken := Text.length_le_byteLen (Text.takeBytes 400 (redactPatterns text))
  have whole := Text.length_le_byteLen (redactPatterns text)
  unfold redactText snippetMaxChars maxCanonicalEvidenceChars
  by_cases long : 0 < 400 ∧ 400 < (redactPatterns text).byteLen
  · simp only [if_pos long, List.length_append, ending]
    omega
  · simp only [if_neg long]
    omega

omit [FloatFormat] in
theorem checkEvidence_secret_iff {evidence : Text}
    (fits : evidence.length ≤ maxCanonicalEvidenceChars) :
    checkEvidence .secret evidence = .ok () ↔ HasMarker evidence := by
  have marked : (evidence.contains "[REDACTED]" ||
      evidence.contains "[BASE64_REDACTED]") = true ↔ HasMarker evidence := by
    rw [Bool.or_eq_true, Text.contains_iff, Text.contains_iff]
    exact Iff.rfl
  simp only [checkEvidence, if_neg (not_lt.2 fits), ← marked]
  split <;> simp_all

omit [FloatFormat] in
theorem HasMarker.not_blank {text : Text} (marked : HasMarker text) :
    text.isBlank = false := by
  have trimmed := (hasMarker_trim text).2 marked
  rw [← Bool.not_eq_true, ← Text.trim_eq_nil]
  intro empty
  rw [empty] at trimmed
  rcases trimmed with inside | inside <;>
    exact absurd (List.infix_nil.1 inside) (by decide)

/-- The evidence of a row is accepted when it shows a redaction. -/
theorem evidence_detectionRow (found : GitleaksFinding) (input : ScanInput) :
    (∃ evidence, evidenceText (detectionRow id found input) = .ok evidence ∧
      checkEvidence (evidenceKindOf "gitleaks") evidence = .ok ()) ↔
      HasMarker (redactText (withoutSecret found) snippetMaxChars) := by
  have kind : evidenceKindOf "gitleaks" = .secret := by decide
  have shown : (detectionRow id found input).evidence =
      some (redactText (withoutSecret found) snippetMaxChars) := by
    rw [detectionRow_eq]
    rfl
  have bounded := length_evidence_le (withoutSecret found)
  generalize redactText (withoutSecret found) snippetMaxChars = text at *
  have fits : text.trim.length ≤ maxCanonicalEvidenceChars :=
    (Text.trim_infix text).length_le.trans bounded
  have checked := checkEvidence_secret_iff fits
  rw [hasMarker_trim] at checked
  rw [kind, evidenceText, shown, ← checked]
  simp only [Option.map_some, Text.isEmpty_trim]
  constructor
  · rintro ⟨evidence, present, accepted⟩
    split at present
    · cases present
    · cases present
      exact accepted
  · intro accepted
    have present := HasMarker.not_blank (checked.1 accepted)
    exact ⟨text.trim, by rw [present]; rfl, accepted⟩

/-! ## The gate -/

omit [FloatFormat] in
/-- A genuine detection keeps the fingerprint of Gitleaks. -/
theorem gitleaksFingerprint_genuine
    (genuine : GenuineDetection found) (filePath : Text) :
    gitleaksFingerprint found filePath =
      ("gitleaks:" : Text) ++ found.fingerprint.trim := by
  have colon : Text.isWhitespace ':' = false := by decide
  have present : found.fingerprint.isBlank = false := by
    rw [genuine.fingerprint]
    simp [colon]
  rw [gitleaksFingerprint, present]
  rfl

omit [FloatFormat] in
theorem gitleaksDescription_not_blank (found : GitleaksFinding) :
    (gitleaksDescription found).isBlank = false := by
  have opening : Text.isBlank ("gitleaks rule " : Text) = false := by decide
  unfold gitleaksDescription
  rw [List.append_assoc, List.append_assoc, Text.isBlank_append, opening,
    Bool.false_and]

omit [FloatFormat] in
theorem length_gitleaksDescription (found : GitleaksFinding) :
    (gitleaksDescription found).length =
      16 + found.ruleId.length + found.description.length := by
  have rule : ("gitleaks rule " : Text).length = 14 := rfl
  have colon : (": " : Text).length = 2 := rfl
  unfold gitleaksDescription
  rw [List.length_append, List.length_append, List.length_append, rule, colon]
  omega

omit [FloatFormat] in
theorem gitleaksTitle_checked (genuine : GenuineDetection found)
    (description :
      (gitleaksDescription found).length ≤ maxCanonicalTextChars) :
    checkText "title" (gitleaksTitle found) = .ok () := by
  have opening : Text.isBlank ("Exposed secret: " : Text) = false := by decide
  have title : ("Exposed secret: " : Text).length = 16 := rfl
  rw [length_gitleaksDescription] at description
  rw [checkText_eq_ok]
  unfold gitleaksTitle
  split
  · constructor
    · rw [Text.isBlank_append, opening, Bool.false_and]
    · rw [List.length_append, title]
      omega
  · rename_i present
    exact ⟨Bool.eq_false_of_not_eq_true present, genuine.description⟩

theorem metadata_checked_iff (found : GitleaksFinding) (input : ScanInput) :
    checkMetadataSize (detectionMetadata found input) = .ok () ↔
      (Json.object (detectionMetadata found input).entries).render.byteLen ≤
          maxCanonicalMetadataBytes ∧
        (Json.object (detectionMetadata found input).entries).strings.any
          containsKnownCredentialAssignment = false := by
  simp only [checkMetadataSize, (detectionMetadata_scalars found input).sort_eq]
  split
  · rename_i long
    simp [not_le.2 long]
  · rename_i short
    split <;> simp_all

omit [FloatFormat] in
theorem gitleaksRemediation_checked :
    checkText "remediation" gitleaksRemediation = .ok () := by
  decide +kernel

variable [TextDigest]

/-- The canonical gate keeps the row. -/
def KeepsRow (row : Finding) (snapshotCommit : Option Text) : Prop :=
  ∃ normalized, normalizeFinding row snapshotCommit = .ok normalized

theorem keepsRow_detectionRow_iff
    (input : ScanInput) (snapshotCommit : Option Text)
    (genuine : GenuineDetection found) :
    KeepsRow (detectionRow id found input) snapshotCommit ↔
      PassesGate found input snapshotCommit := by
  have fields : (detectionRow id found input).scannerName = some "gitleaks" ∧
      (detectionRow id found input).scannerMode = some "secret" ∧
      (detectionRow id found input).agentSource = "gitleaks" ∧
      (detectionRow id found input).title = gitleaksTitle found ∧
      (detectionRow id found input).description =
        gitleaksDescription found := by
    rw [detectionRow_eq]
    exact ⟨rfl, rfl, rfl, rfl, rfl⟩
  have remediation : checkRemediation (detectionRow id found input) = .ok () := by
    rw [detectionRow_eq]
    exact gitleaksRemediation_checked
  rw [KeepsRow, exists_normalized_iff snapshotCommit fields.1 fields.2.1
    (by simp [knownScanners]) fields.2.2.1
    (parseMetadata_detectionRow id found input),
    evidence_detectionRow, findingProvenance_detectionRow, metadata_checked_iff,
    metadataSafe_iff, gitleaksFingerprint_genuine genuine, fields.2.2.2.1,
    fields.2.2.2.2]
  constructor
  · rintro ⟨_, description, _, ⟨size, rule, fingerprint, commit, snapshot⟩,
      ⟨present, bound⟩, _, marker⟩
    exact {
      ruleId := present
      description := ((checkText_eq_ok _ _).1 description).2
      metadataSize := size
      ruleSafe := rule
      fingerprintSafe := fingerprint
      commitSafe := commit
      snapshotSafe := snapshot
      marker := marker
      snapshot := bound }
  · intro passes
    exact ⟨gitleaksTitle_checked genuine passes.description,
      (checkText_eq_ok _ _).2
        ⟨gitleaksDescription_not_blank found, passes.description⟩,
      remediation,
      ⟨passes.metadataSize, passes.ruleSafe, passes.fingerprintSafe,
        passes.commitSafe, passes.snapshotSafe⟩,
      ⟨passes.ruleId, passes.snapshot⟩,
      findingLocation_detectionRow id input genuine, passes.marker⟩

omit [FloatFormat] [TextDigest] in
/-- The text of a positive number is a word. -/
theorem ofInt_word {number : Int} (positive : 1 ≤ number) :
    Text.ofInt number ≠ [] ∧ ∀ character ∈ Text.ofInt number,
      Text.isWhitespace character = false := by
  rcases Int.eq_ofNat_of_zero_le (by omega : 0 ≤ number) with ⟨natural, rfl⟩
  refine ⟨Text.ofNat_ne_nil natural, ?_⟩
  intro character member
  have digit := List.all_eq_true.1 (Text.ofNat_digits natural) character member
  exact Text.isWhitespace_of_isAsciiDigit digit

omit [FloatFormat] [TextDigest] in
theorem credentialKeywords_word :
    ∀ keyword ∈ credentialKeywords, ∀ character ∈ keyword,
      Text.isWhitespace character = false := by
  decide

omit [TextDigest] in
/-- The fingerprint of a rule named after a credential reads as one. -/
theorem keyword_rule_refused (genuine : GenuineDetection found) {keyword : Text}
    (known : keyword ∈ credentialKeywords) (ends : keyword <:+ found.ruleId)
    (input : ScanInput) (snapshotCommit : Option Text) :
    ¬ PassesGate found input snapshotCommit := by
  intro passes
  let line := Text.ofInt found.startLine.toInt
  have digits := ofInt_word genuine.line.1
  have inside : keyword ++ ':' :: line <:+: found.fingerprint := by
    rw [genuine.fingerprint]
    rcases ends with ⟨before, equal⟩
    exact ⟨found.file ++ ':' :: before, [], by simp [← equal, line]⟩
  have word : ∀ character ∈ keyword ++ ':' :: line,
      Text.isWhitespace character = false := by
    intro character member
    rcases List.mem_append.1 member with inKeyword | inRest
    · exact credentialKeywords_word keyword known character inKeyword
    · rcases List.mem_cons.1 inRest with rfl | inLine
      · decide
      · exact digits.2 character inLine
  have credential := containsKnownCredentialAssignment_of_infix
    ((Text.infix_trim word inside).trans
      (List.suffix_append ("gitleaks:" : Text) _).isInfix)
    (containsKnownCredentialAssignment_keyword known digits.1 digits.2)
  rw [passes.fingerprintSafe] at credential
  exact Bool.noConfusion credential

/-- A genuine detection is kept exactly when it passes the gate, which no rule
that ends in a credential keyword does. -/
theorem detection_kept_iff (id : Text) {found : GitleaksFinding}
    (input : ScanInput) (snapshotCommit : Option Text)
    (genuine : GenuineDetection found) :
    (KeepsRow (detectionRow id found input) snapshotCommit ↔
      PassesGate found input snapshotCommit) ∧
      ∀ keyword ∈ credentialKeywords, keyword <:+ found.ruleId →
        ¬ KeepsRow (detectionRow id found input) snapshotCommit := by
  have gate := keepsRow_detectionRow_iff id input snapshotCommit genuine
  refine ⟨gate, fun keyword known ends kept => ?_⟩
  exact keyword_rule_refused genuine known ends input snapshotCommit
    (gate.1 kept)

end Gate

section Samples

attribute [local instance] FloatFormat.integersOnly TextDigest.sha256

/-- A detection of the rule for generic API keys. -/
def apiKeyDetection : GitleaksFinding where
  ruleId := "generic-api-key"
  description := "Detected a Generic API Key"
  file := "app.py"
  startLine := 3
  startColumn := 1
  endColumn := 24
  matchText := "key = 0a1b2c3d4e5f6071"
  secret := "0a1b2c3d4e5f6071"
  commit := []
  fingerprint := "app.py:generic-api-key:3"

theorem apiKeyDetection_genuine : GenuineDetection apiKeyDetection where
  ruleId := by decide
  file := ⟨"app.py", by decide +kernel⟩
  line := by decide
  columns := by decide
  secret := by decide
  matched := by decide
  description := by decide
  fingerprint := by decide

def sampleInput : ScanInput where
  commitSha := none
  fileCount := 1
  totalSize := 10

theorem detection_kept_iff_apiKeyDetection :
    (KeepsRow (detectionRow "row-1" apiKeyDetection sampleInput) none ↔
      PassesGate apiKeyDetection sampleInput none) ∧
      ∀ keyword ∈ credentialKeywords, keyword <:+ apiKeyDetection.ruleId →
        ¬ KeepsRow (detectionRow "row-1" apiKeyDetection sampleInput) none :=
  detection_kept_iff "row-1" sampleInput none apiKeyDetection_genuine

/-- Not every genuine detection is kept. -/
theorem apiKeyDetection_quarantined :
    ¬ ∀ (id : Text) (found : GitleaksFinding) (input : ScanInput)
      (snapshotCommit : Option Text), GenuineDetection found →
        KeepsRow (detectionRow id found input) snapshotCommit := by
  intro claim
  have kept := claim "row-1" apiKeyDetection sampleInput none
    apiKeyDetection_genuine
  have known : ("api-key" : Text) ∈ credentialKeywords := by decide
  have ends : ("api-key" : Text) <:+ apiKeyDetection.ruleId := by decide
  exact keyword_rule_refused apiKeyDetection_genuine known ends sampleInput none
    ((keepsRow_detectionRow_iff _ _ _ apiKeyDetection_genuine).1 kept)

end Samples

end FireCrow.Orchestrator
