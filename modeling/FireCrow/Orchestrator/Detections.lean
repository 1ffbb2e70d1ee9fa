import FireCrow.Library.JsonInjective
import FireCrow.Orchestrator.Conservation
import FireCrow.Orchestrator.QuarantineIds

/-!
# What an identity identifies

The identity of an accepted finding is the digest of its identity payload.  The
payload lists the facts of the detection under fixed keys, so two findings
have one identity exactly when they agree in these facts.  A package field that
is missing and one that is null are one fact.
-/

namespace FireCrow.Orchestrator

open FireCrow.Library FireCrow.Schemas

section Detections

variable [format : FloatFormat]

/-- The optional integers of a location. -/
def rangeKeys : List Text := ["start_column", "end_line", "end_column"]

/-- Two findings, with their metadata, are one detection. -/
structure SameDetection (first second : Finding) (metadata other : JsonMap) :
    Prop where
  scanner : first.scannerName = second.scannerName
  ruleId : nativeRuleId metadata = nativeRuleId other
  fingerprint : nativeFingerprint metadata = nativeFingerprint other
  file : first.filePath.map Text.trim = second.filePath.map Text.trim
  line : first.lineNumber = second.lineNumber
  range : ∀ key ∈ rangeKeys,
    metadataNumber metadata key = metadataNumber other key
  package : ∀ key ∈ packageKeys,
    (metadata.get? key).getD .null = (other.get? key).getD .null
  evidence : first.evidence = second.evidence

/-! ## Locations -/

omit format in
theorem trim_of_validateRepoPath {path validated : Text}
    (valid : validateRepoPath path = .ok validated) : path.trim = validated := by
  simp only [validateRepoPath] at valid
  repeat
    split at valid
    · cases valid
  cases valid
  rfl

variable {location : CanonicalLocation}

/-- What a location says of the finding. -/
theorem findingLocation_eq_ok {finding : Finding} {metadata : JsonMap}
    (located : findingLocation finding metadata = .ok location) :
    finding.filePath.map Text.trim = some location.file ∧
      finding.lineNumber = some location.line ∧
      metadataNumber metadata "start_column" = .ok location.startColumn ∧
      metadataNumber metadata "end_line" = .ok location.endLine ∧
      metadataNumber metadata "end_column" = .ok location.endColumn := by
  simp only [findingLocation, Result.bind_eq_ok, Result.pure_eq_ok] at located
  rcases located with ⟨file, found, line, positive, start, startOk, last, lastOk,
    stop, stopOk, _, _, _, _, _, _, rfl⟩
  refine ⟨?_, ?_, startOk, lastOk, stopOk⟩
  · unfold findingFile at found
    split at found
    · rename_i path same
      rw [Result.mapError_eq_ok] at found
      rw [same, Option.map_some, trim_of_validateRepoPath found]
    · cases found
  · unfold findingLine at positive
    split at positive
    · rename_i number same
      split at positive
      · cases positive
        exact same
      · cases positive
    · cases positive

variable {first second : Finding} {metadata other : JsonMap}

variable {elsewhere : CanonicalLocation}

theorem location_eq_iff
    (located : findingLocation first metadata = .ok location)
    (found : findingLocation second other = .ok elsewhere) :
    location = elsewhere ↔
      first.filePath.map Text.trim = second.filePath.map Text.trim ∧
        first.lineNumber = second.lineNumber ∧
        ∀ key ∈ rangeKeys,
          metadataNumber metadata key = metadataNumber other key := by
  rcases findingLocation_eq_ok located with ⟨file, line, start, last, stop⟩
  rcases findingLocation_eq_ok found with ⟨file', line', start', last', stop'⟩
  rw [file, file', line, line']
  simp only [rangeKeys, List.forall_mem_cons, start, start', last, last', stop,
    stop']
  cases location
  cases elsewhere
  simp

/-! ## Payloads -/

omit format in
theorem ofSigned_injective : Function.Injective JsonInt.ofSigned := by
  intro first second same
  exact Int64.toInt_inj.1 (congrArg JsonInt.value same)

omit format in
theorem ofSigned32_injective : Function.Injective JsonInt.ofSigned32 := by
  intro first second same
  exact Int32.toInt_inj.1 (congrArg JsonInt.value same)

theorem jsonOfColumn_injective : Function.Injective jsonOfColumn := by
  intro first second same
  cases first with
  | none =>
      cases second with
      | none => rfl
      | some column => cases same
  | some column =>
      cases second with
      | none => cases same
      | some other =>
          injection same with same
          rw [ofSigned_injective same]

variable [TextDigest]

/-- The keys of a payload. -/
def payloadKeys : List Text :=
  ["v", "scanner", "rule_id", "native_fingerprint", "file", "line",
    "start_column", "end_line", "end_column", "package", "installed_version",
    "ecosystem", "manifest", "advisory", "direct", "evidence_sha256"]

omit format [TextDigest] in
theorem payloadKeys_nodup : payloadKeys.Nodup := by
  decide +kernel

/-- The values of a payload, in the order of its keys. -/
def payloadValues (scanner rule fingerprint : Text)
    (location : CanonicalLocation) (metadata : JsonMap) (finding : Finding) :
    List Json :=
  [.int (JsonInt.ofUnsigned canonicalAuditVersion), .string scanner,
    .string rule, .string fingerprint, .string location.file,
    .int (JsonInt.ofSigned32 location.line), jsonOfColumn location.startColumn,
    jsonOfColumn location.endLine, jsonOfColumn location.endColumn] ++
  packageKeys.map (fun key => (metadata.get? key).getD .null) ++
  [.string (sha256Hex (finding.evidence.getD []))]

theorem identityPayload_eq_ofList (scanner rule fingerprint : Text)
    (location : CanonicalLocation) (metadata : JsonMap) (finding : Finding) :
    identityPayload scanner rule fingerprint location metadata finding =
      SortedMap.ofList (payloadKeys.zip
        (payloadValues scanner rule fingerprint location metadata finding)) :=
  rfl

theorem length_payloadValues (scanner rule fingerprint : Text)
    (location : CanonicalLocation) (metadata : JsonMap) (finding : Finding) :
    (payloadValues scanner rule fingerprint location metadata finding).length =
      payloadKeys.length := by
  simp [payloadValues, payloadKeys, packageKeys]

theorem identityPayload_buildable
    (built : ∀ member ∈ metadata.entries, Json.Buildable 126 member.2)
    (scanner rule fingerprint : Text) (location : CanonicalLocation)
    (finding : Finding) :
    Json.Buildable 127 (.object
      (identityPayload scanner rule fingerprint location metadata
        finding).entries) := by
  have values : ∀ value ∈ payloadValues scanner rule fingerprint location
      metadata finding, Json.Buildable 126 value := by
    have column (column : Option Int64) :
        Json.Buildable 126 (jsonOfColumn column) := by
      cases column
      · exact ⟨trivial, Nat.zero_le _⟩
      · exact ⟨trivial, Nat.zero_le _⟩
    have package (key : Text) :
        Json.Buildable 126 ((metadata.get? key).getD .null) := by
      cases found : metadata.get? key with
      | none => exact ⟨trivial, Nat.zero_le _⟩
      | some value =>
          exact built _ ((SortedMap.mem_entries_iff _ _ _).2 found)
    intro value member
    simp only [payloadValues, packageKeys, List.map_cons, List.map_nil,
      List.cons_append, List.nil_append, List.mem_cons, List.not_mem_nil,
      or_false] at member
    rcases member with rfl | rfl | rfl | rfl | rfl | rfl | rfl | rfl | rfl |
      rfl | rfl | rfl | rfl | rfl | rfl | rfl
    all_goals first
      | exact column _
      | exact package _
      | exact ⟨trivial, Nat.zero_le _⟩
  rw [identityPayload_eq_ofList]
  apply Json.buildable_object
  apply Json.buildable_ofList
  rintro ⟨key, value⟩ member
  exact values value (List.of_mem_zip member).2

/-- Two payloads are equal exactly when they list the same facts. -/
theorem identityPayload_eq_iff (digest : Function.Injective sha256Hex)
    {scanner scanner' rule rule' fingerprint fingerprint' : Text} :
    identityPayload scanner rule fingerprint location metadata first =
        identityPayload scanner' rule' fingerprint' elsewhere other second ↔
      scanner = scanner' ∧ rule = rule' ∧ fingerprint = fingerprint' ∧
        location = elsewhere ∧
        (∀ key ∈ packageKeys,
          (metadata.get? key).getD .null = (other.get? key).getD .null) ∧
        first.evidence.getD [] = second.evidence.getD [] := by
  constructor
  · intro same
    rw [identityPayload_eq_ofList, identityPayload_eq_ofList] at same
    have keys (values : List Json) (all : values.length = payloadKeys.length) :
        (payloadKeys.zip values).map Prod.fst = payloadKeys :=
      List.map_fst_zip all.ge
    have left := keys _ (length_payloadValues scanner rule fingerprint location
      metadata first)
    have right := keys _ (length_payloadValues scanner' rule' fingerprint'
      elsewhere other second)
    have entries := ofList_injective
      (left.symm ▸ payloadKeys_nodup) (left.trans right.symm) same
    have listed := congrArg (List.map Prod.snd) entries
    rw [List.map_snd_zip (length_payloadValues _ _ _ _ _ _).le,
      List.map_snd_zip (length_payloadValues _ _ _ _ _ _).le] at listed
    simp only [payloadValues, packageKeys, List.map_cons, List.map_nil,
      List.cons_append, List.nil_append, List.cons.injEq, Json.string.injEq,
      Json.int.injEq, ofSigned32_injective.eq_iff,
      jsonOfColumn_injective.eq_iff, digest.eq_iff, true_and, and_true] at listed
    rcases listed with ⟨scanners, rules, fingerprints, file, line, start, last,
      stop, package, version, ecosystem, manifest, advisory, direct, evidence⟩
    refine ⟨scanners, rules, fingerprints, ?_, ?_, evidence⟩
    · cases location
      cases elsewhere
      simp only [CanonicalLocation.mk.injEq]
      exact ⟨file, line, start, last, stop⟩
    · simp only [packageKeys, List.forall_mem_cons]
      exact ⟨package, version, ecosystem, manifest, advisory, direct,
        List.forall_mem_nil _⟩
  · rintro ⟨rfl, rfl, rfl, rfl, package, evidence⟩
    have fields : (packageKeys.map fun key => (metadata.get? key).getD .null) =
        packageKeys.map fun key => (other.get? key).getD .null :=
      List.map_congr_left package
    rw [identityPayload_eq_ofList, identityPayload_eq_ofList, payloadValues,
      fields, evidence, payloadValues]

/-! ## Identities -/

theorem marked_digest_eq_iff (digest : Function.Injective sha256Hex)
    (floats : Function.Injective format.write) (opening : Text)
    {payload payload' : JsonMap}
    (built : Json.Buildable 127 (.object payload.entries))
    (built' : Json.Buildable 127 (.object payload'.entries)) :
    opening ++ sha256Hex (Json.object payload.entries).render =
        opening ++ sha256Hex (Json.object payload'.entries).render ↔
      payload = payload' := by
  rw [List.append_cancel_left_eq, digest.eq_iff]
  constructor
  · intro same
    have objects := Json.render_injective floats built built' same
    injection objects with entries
    rw [← SortedMap.ofList_entries payload, entries, SortedMap.ofList_entries]
  · intro same
    rw [same]

theorem canonicalFindingId_eq_iff (digest : Function.Injective sha256Hex)
    (floats : Function.Injective format.write)
    (built : ∀ member ∈ metadata.entries, Json.Buildable 126 member.2)
    (built' : ∀ member ∈ other.entries, Json.Buildable 126 member.2)
    {scanner scanner' rule rule' fingerprint fingerprint' : Text} :
    canonicalFindingId scanner rule fingerprint location metadata first =
        canonicalFindingId scanner' rule' fingerprint' elsewhere other second ↔
      identityPayload scanner rule fingerprint location metadata first =
        identityPayload scanner' rule' fingerprint' elsewhere other second := by
  unfold canonicalFindingId
  exact marked_digest_eq_iff digest floats _
    (identityPayload_buildable built _ _ _ _ _)
    (identityPayload_buildable built' _ _ _ _ _)

theorem evidence_of_accepts {finding : Finding} {commit : Option Text}
    {normalized : NormalizedFinding}
    (accepts : Accepts finding commit normalized) :
    ∃ evidence, finding.evidence = some evidence := by
  have present := accepts.evidence
  unfold evidenceText at present
  cases found : finding.evidence with
  | none =>
      rw [found] at present
      cases present
  | some evidence => exact ⟨evidence, rfl⟩

/-- Two accepted findings have one identity exactly when they are one
detection. -/
theorem canonicalId_eq_iff (digest : Function.Injective sha256Hex)
    (floats : Function.Injective format.write)
    {commit commit' : Option Text} {normalized normalized' : NormalizedFinding}
    (accepted : normalizeFinding first commit = .ok normalized)
    (accepted' : normalizeFinding second commit' = .ok normalized') :
    normalized.canonicalId = normalized'.canonicalId ↔
      SameDetection first second normalized.metadata normalized'.metadata := by
  have accepts := (normalizeFinding_eq_ok_iff _ _ _).1 accepted
  have accepts' := (normalizeFinding_eq_ok_iff _ _ _).1 accepted'
  have fields := findingProvenance_eq_ok.1 accepts.provenance
  have fields' := findingProvenance_eq_ok.1 accepts'.provenance
  rcases evidence_of_accepts accepts with ⟨evidence, found⟩
  rcases evidence_of_accepts accepts' with ⟨evidence', found'⟩
  rw [accepts.canonicalId, accepts'.canonicalId,
    canonicalFindingId_eq_iff digest floats
      (parseMetadata_eq_ok accepts.metadata).2
      (parseMetadata_eq_ok accepts'.metadata).2,
    identityPayload_eq_iff digest,
    location_eq_iff accepts.location accepts'.location, found, found',
    Option.getD_some, Option.getD_some]
  constructor
  · rintro ⟨scanner, rule, fingerprint, ⟨file, line, range⟩, package, text⟩
    constructor
    · rw [accepts.scanner, accepts'.scanner, scanner]
    · rw [fields.2.2.2.2.1, fields'.2.2.2.2.1, rule]
    · rw [fields.2.2.2.2.2.1, fields'.2.2.2.2.2.1, fingerprint]
    · exact file
    · exact line
    · exact range
    · exact package
    · rw [found, found', text]
  · intro same
    have scanner := same.scanner
    have rule := same.ruleId
    have fingerprint := same.fingerprint
    have text := same.evidence
    rw [accepts.scanner, accepts'.scanner, Option.some.injEq] at scanner
    rw [fields.2.2.2.2.1, fields'.2.2.2.2.1, Except.ok.injEq] at rule
    rw [fields.2.2.2.2.2.1, fields'.2.2.2.2.2.1, Except.ok.injEq] at fingerprint
    rw [found, found', Option.some.injEq] at text
    exact ⟨scanner, rule, fingerprint, ⟨same.file, same.line, same.range⟩,
      same.package, text⟩

/-- The metadata that an identity reads. -/
def detectionKeys : List Text :=
  (["rule_id", "check_id", "advisory", "fingerprint"] : List Text) ++ rangeKeys ++
    packageKeys

omit [TextDigest] in
/-- Findings that agree in what an identity reads are one detection, whatever
else they and their metadata say. -/
theorem SameDetection.of_agree
    (scanner : first.scannerName = second.scannerName)
    (file : first.filePath = second.filePath)
    (line : first.lineNumber = second.lineNumber)
    (evidence : first.evidence = second.evidence)
    (agree : ∀ key ∈ detectionKeys, metadata.get? key = other.get? key) :
    SameDetection first second metadata other := by
  simp only [detectionKeys, List.forall_mem_append, List.forall_mem_cons] at agree
  rcases agree with ⟨⟨⟨rule, check, advisory, fingerprint, _⟩, range⟩, package⟩
  constructor
  · exact scanner
  · simp only [nativeRuleId, metadataStr, List.filterMap_cons, rule, check,
      advisory, List.filterMap_nil]
  · simp only [nativeFingerprint, metadataStr, fingerprint]
  · rw [file]
  · exact line
  · intro key member
    rw [metadataNumber, metadataNumber, range key member]
  · intro key member
    rw [package key member]
  · exact evidence

/-- For every two accepted findings: their identities are equal exactly when
they are one detection; findings of different scanners have different ones; and
findings that agree in what an identity reads have the same one. -/
theorem identity_of_detection (digest : Function.Injective sha256Hex)
    (floats : Function.Injective format.write) {first second : Finding}
    {commit commit' : Option Text} {normalized normalized' : NormalizedFinding}
    (accepted : normalizeFinding first commit = .ok normalized)
    (accepted' : normalizeFinding second commit' = .ok normalized') :
    (normalized.canonicalId = normalized'.canonicalId ↔
      SameDetection first second normalized.metadata normalized'.metadata) ∧
    (first.scannerName ≠ second.scannerName →
      normalized.canonicalId ≠ normalized'.canonicalId) ∧
    (first.scannerName = second.scannerName →
      first.filePath = second.filePath →
      first.lineNumber = second.lineNumber → first.evidence = second.evidence →
      (∀ key ∈ detectionKeys,
        normalized.metadata.get? key = normalized'.metadata.get? key) →
      normalized.canonicalId = normalized'.canonicalId) := by
  have identity := canonicalId_eq_iff digest floats accepted accepted'
  refine ⟨identity, ?_, ?_⟩
  · intro different same
    exact different (identity.1 same).scanner
  · intro scanner file line evidence agree
    exact identity.2 (.of_agree scanner file line evidence agree)

end Detections

section Samples

attribute [local instance] FloatFormat.integersOnly plainDigest

/-- A row whose package is null rather than missing. -/
def nullPackageRow : Finding :=
  { storedRow with
    metadataJson := some
      "\x7b\"fingerprint\":\"gitleaks:app.py:private-key:3\",\"package\":null,\"parser\":\"gitleaks-json-v1\",\"rule_id\":\"private-key\",\"scanner_image\":\"gitleaks:8\",\"scanner_version\":\"8\"\x7d" }

theorem nullPackage_compared :
    ((normalizeFinding storedRow none).toOption.bind fun normalized =>
      (normalizeFinding nullPackageRow none).toOption.map fun normalized' =>
        (decide (normalized.canonicalId = normalized'.canonicalId),
          (normalized.metadata.get? "package").isSome,
          (normalized'.metadata.get? "package").isSome)) =
      some (true, false, true) := by
  rw [nullPackageRow, storedRow]
  repeat rw [String.toList_ofList]
  decide +kernel

/-- The row without a package and the row with a null package are accepted. -/
theorem nullPackage_accepted :
    ∃ normalized normalized',
      normalizeFinding storedRow none = .ok normalized ∧
        normalizeFinding nullPackageRow none = .ok normalized' ∧
        normalized.canonicalId = normalized'.canonicalId ∧
        (normalized.metadata.get? "package").isSome = false ∧
        (normalized'.metadata.get? "package").isSome = true := by
  have compared := nullPackage_compared
  simp only [Option.bind_eq_some_iff, Option.map_eq_some_iff,
    Result.toOption_eq_some, Prod.mk.injEq, decide_eq_true_eq] at compared
  rcases compared with ⟨normalized, accepted, normalized', accepted', same,
    missing, null⟩
  exact ⟨normalized, normalized', accepted, accepted', same, missing, null⟩

theorem identity_of_detection_storedRow :
    ∃ normalized normalized',
      normalizeFinding storedRow none = .ok normalized ∧
        normalizeFinding nullPackageRow none = .ok normalized' ∧
        (normalized.canonicalId = normalized'.canonicalId ↔
          SameDetection storedRow nullPackageRow normalized.metadata
            normalized'.metadata) := by
  rcases nullPackage_accepted with ⟨normalized, normalized', accepted, accepted',
    _⟩
  exact ⟨normalized, normalized', accepted, accepted',
    (identity_of_detection (fun _ _ same => same)
      (fun value _ _ => Empty.elim value) accepted accepted').1⟩

/-- A missing package and a null package are one identity. -/
theorem nullPackage_identity :
    ∃ normalized normalized',
      normalizeFinding storedRow none = .ok normalized ∧
        normalizeFinding nullPackageRow none = .ok normalized' ∧
        normalized.canonicalId = normalized'.canonicalId ∧
        normalized.metadata.get? "package" ≠
          normalized'.metadata.get? "package" := by
  rcases nullPackage_accepted with ⟨normalized, normalized', accepted, accepted',
    same, missing, null⟩
  refine ⟨normalized, normalized', accepted, accepted', same, ?_⟩
  intro equal
  rw [equal, null] at missing
  cases missing

end Samples

end FireCrow.Orchestrator
