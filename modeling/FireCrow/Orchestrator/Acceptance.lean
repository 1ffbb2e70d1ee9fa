import FireCrow.Orchestrator.CanonicalAudit

/-!
# What normalization accepts

`normalizeFinding` is a sequence of checks, so its meaning is the conjunction
of them.  `Accepts` names the checks and relates the finding to the normalized
record that it becomes; everything proved about normalization goes through it
and never through the sequence.
-/

namespace FireCrow.Orchestrator

open FireCrow.Library FireCrow.Schemas FireCrow.Services.Redaction

variable [FloatFormat] [TextDigest]

/-- The checks that a finding passes on its way to a normalized record. -/
structure Accepts (finding : Finding) (snapshotCommit : Option Text)
    (normalized : NormalizedFinding) : Prop where
  scanner : finding.scannerName = some normalized.provenance.scanner
  known : ∃ mode, finding.scannerMode = some mode ∧
    (normalized.provenance.scanner, mode) ∈ knownScanners
  agent : finding.agentSource = normalized.provenance.scanner
  title : checkText "title" finding.title = .ok ()
  description : checkText "description" finding.description = .ok ()
  remediation : checkRemediation finding = .ok ()
  metadata : parseMetadata finding = .ok normalized.metadata
  metadataSize : checkMetadataSize normalized.metadata = .ok ()
  provenance :
    findingProvenance finding normalized.metadata snapshotCommit =
      .ok normalized.provenance
  location :
    findingLocation finding normalized.metadata = .ok normalized.location
  evidence : evidenceText finding = .ok normalized.evidenceText
  evidenceChecked :
    checkEvidence (evidenceKindOf normalized.provenance.scanner)
      normalized.evidenceText = .ok ()
  row : normalized.finding = finding
  canonicalId :
    normalized.canonicalId =
      canonicalFindingId normalized.provenance.scanner
        normalized.provenance.ruleId normalized.provenance.nativeFingerprint
        normalized.location normalized.metadata finding
  nativeId :
    normalized.nativeId =
      normalized.provenance.scanner ++
        ':' :: normalized.provenance.nativeFingerprint
  evidenceKind :
    normalized.evidenceKind = evidenceKindOf normalized.provenance.scanner
  evidenceTruncated :
    normalized.evidenceTruncated =
      normalized.evidenceText.contains "... [truncated]"

omit [FloatFormat] [TextDigest] in
theorem checkText_eq_ok (field value : Text) :
    checkText field value = .ok () ↔
      value.isBlank = false ∧ value.length ≤ maxCanonicalTextChars := by
  unfold checkText
  split
  · simp_all
  · split <;> simp_all

variable {snapshotCommit : Option Text}

variable {finding : Finding}

omit [TextDigest] in
theorem findingProvenance_eq_ok {metadata : JsonMap}
    {provenance : CanonicalProvenance} :
    findingProvenance finding metadata snapshotCommit = .ok provenance ↔
      provenance.scanner = finding.scannerName.getD [] ∧
        requiredText metadata "scanner_version" =
          .ok provenance.scannerVersion ∧
        requiredText metadata "parser" = .ok provenance.parser ∧
        requiredText metadata "scanner_image" = .ok provenance.scannerImage ∧
        nativeRuleId metadata = .ok provenance.ruleId ∧
        nativeFingerprint metadata = .ok provenance.nativeFingerprint ∧
        provenanceCommit metadata snapshotCommit =
          .ok provenance.snapshotCommit := by
  simp only [findingProvenance, Result.bind_eq_ok, Result.pure_eq_ok]
  constructor
  · rintro ⟨_, version, _, parser, _, image, _, rule, _, fingerprint, _,
      commit, rfl⟩
    exact ⟨rfl, version, parser, image, rule, fingerprint, commit⟩
  · rintro ⟨scanner, version, parser, image, rule, fingerprint, commit⟩
    refine ⟨_, version, _, parser, _, image, _, rule, _, fingerprint, _,
      commit, ?_⟩
    rw [← scanner]

/-- Normalization succeeds exactly on the findings that pass its checks. -/
theorem normalizeFinding_eq_ok_iff (finding : Finding)
    (snapshotCommit : Option Text) (normalized : NormalizedFinding) :
    normalizeFinding finding snapshotCommit = .ok normalized ↔
      Accepts finding snapshotCommit normalized := by
  simp only [normalizeFinding, Result.bind_eq_ok, Result.pure_eq_ok,
    Result.refuseIf_eq_ok, not_not]
  constructor
  · rintro ⟨⟨scanner, mode⟩, identity, _, known, _, agent, _, title, _,
      description, _, titleText, _, descriptionText, _, remediation, metadata,
      parsed, _, size, ruleId, rule, fingerprint, native, provenance,
      provenanceOk, location, locationOk, evidence, evidenceOk, _,
      evidenceChecked, rfl⟩
    have names : finding.scannerName = some scanner ∧
        finding.scannerMode = some mode := by
      unfold scannerIdentity at identity
      split at identity
      · cases identity
        exact ⟨by assumption, by assumption⟩
      · cases identity
    have fields := findingProvenance_eq_ok.1 provenanceOk
    have scannerField : provenance.scanner = scanner := by
      rw [fields.1, names.1]
      rfl
    have ruleField : provenance.ruleId = ruleId := by
      have same := fields.2.2.2.2.1.symm.trans rule
      exact Except.ok.inj same
    have nativeField : provenance.nativeFingerprint = fingerprint := by
      have same := fields.2.2.2.2.2.1.symm.trans native
      exact Except.ok.inj same
    subst scannerField ruleField nativeField
    exact {
      scanner := names.1
      known := ⟨mode, names.2, known⟩
      agent := agent
      title := titleText
      description := descriptionText
      remediation := remediation
      metadata := parsed
      metadataSize := size
      provenance := provenanceOk
      location := locationOk
      evidence := evidenceOk
      evidenceChecked := evidenceChecked
      row := rfl
      canonicalId := rfl
      nativeId := rfl
      evidenceKind := rfl
      evidenceTruncated := rfl }
  · intro accepts
    rcases accepts.known with ⟨mode, modeName, known⟩
    have identity :
        scannerIdentity finding =
          .ok (normalized.provenance.scanner, mode) := by
      rw [scannerIdentity, accepts.scanner, modeName]
    have title := (checkText_eq_ok _ _).1 accepts.title
    have description := (checkText_eq_ok _ _).1 accepts.description
    have fields := findingProvenance_eq_ok.1 accepts.provenance
    refine ⟨_, identity, (), known, (), accepts.agent, (), by simp [title], (),
      by simp [description], (), accepts.title, (), accepts.description, (),
      accepts.remediation, _, accepts.metadata, (), accepts.metadataSize, _,
      fields.2.2.2.2.1, _, fields.2.2.2.2.2.1, _, accepts.provenance, _,
      accepts.location, _, accepts.evidence, (), accepts.evidenceChecked, ?_⟩
    rw [← accepts.canonicalId, ← accepts.nativeId, ← accepts.evidenceKind,
      ← accepts.evidenceTruncated]
    cases normalized
    congr
    exact accepts.row.symm

/-- A finding of a known scanner is accepted when the remaining checks pass. -/
theorem exists_normalized_iff
    (snapshotCommit : Option Text) {scanner mode : Text} {metadata : JsonMap}
    (name : finding.scannerName = some scanner)
    (modeName : finding.scannerMode = some mode)
    (known : (scanner, mode) ∈ knownScanners)
    (agent : finding.agentSource = scanner)
    (parsed : parseMetadata finding = .ok metadata) :
    (∃ normalized, normalizeFinding finding snapshotCommit = .ok normalized) ↔
      checkText "title" finding.title = .ok () ∧
        checkText "description" finding.description = .ok () ∧
        checkRemediation finding = .ok () ∧
        checkMetadataSize metadata = .ok () ∧
        (∃ provenance,
          findingProvenance finding metadata snapshotCommit =
            .ok provenance) ∧
        (∃ location, findingLocation finding metadata = .ok location) ∧
        ∃ evidence, evidenceText finding = .ok evidence ∧
          checkEvidence (evidenceKindOf scanner) evidence = .ok () := by
  simp only [normalizeFinding_eq_ok_iff]
  constructor
  · rintro ⟨normalized, accepts⟩
    have sameScanner : normalized.provenance.scanner = scanner :=
      Option.some.inj (accepts.scanner.symm.trans name)
    have sameMetadata : normalized.metadata = metadata :=
      Except.ok.inj (accepts.metadata.symm.trans parsed)
    subst sameScanner sameMetadata
    exact ⟨accepts.title, accepts.description, accepts.remediation,
      accepts.metadataSize, ⟨_, accepts.provenance⟩, ⟨_, accepts.location⟩,
      _, accepts.evidence, accepts.evidenceChecked⟩
  · rintro ⟨title, description, remediation, size, ⟨provenance, provenanceOk⟩,
      ⟨location, locationOk⟩, evidence, evidenceOk, evidenceChecked⟩
    have named : provenance.scanner = scanner := by
      rw [(findingProvenance_eq_ok.1 provenanceOk).1, name]
      rfl
    subst named
    let normalized : NormalizedFinding :=
      { finding := finding
        metadata := metadata
        canonicalId :=
          canonicalFindingId provenance.scanner provenance.ruleId
            provenance.nativeFingerprint location metadata finding
        nativeId := provenance.scanner ++ ':' :: provenance.nativeFingerprint
        provenance := provenance
        location := location
        evidenceKind := evidenceKindOf provenance.scanner
        evidenceText := evidence
        evidenceTruncated := evidence.contains "... [truncated]" }
    exact ⟨normalized, {
      scanner := name
      known := ⟨mode, modeName, known⟩
      agent := agent
      title := title
      description := description
      remediation := remediation
      metadata := parsed
      metadataSize := size
      provenance := provenanceOk
      location := locationOk
      evidence := evidenceOk
      evidenceChecked := evidenceChecked
      row := rfl
      canonicalId := rfl
      nativeId := rfl
      evidenceKind := rfl
      evidenceTruncated := rfl }⟩

/-! ## Identity -/

omit [FloatFormat] [TextDigest] in
theorem known_not_blank {scanner mode : Text}
    (known : (scanner, mode) ∈ knownScanners) : scanner.isBlank = false := by
  simp only [knownScanners, List.mem_cons, Prod.mk.injEq, List.not_mem_nil,
    or_false] at known
  rcases known with ⟨rfl, _⟩ | ⟨rfl, _⟩ | ⟨rfl, _⟩ <;> decide

/-- The identity path agrees with normalization on accepted findings. -/
theorem Accepts.canonicalIdentity_eq {normalized : NormalizedFinding}
    (accepts : Accepts finding snapshotCommit normalized) :
    canonicalIdentity finding = .ok normalized.canonicalId := by
  rcases accepts.known with ⟨mode, _, known⟩
  have fields := findingProvenance_eq_ok.1 accepts.provenance
  have named : namedScanner finding = .ok normalized.provenance.scanner := by
    rw [namedScanner, accepts.scanner]
    simp [known_not_blank known]
  simp only [canonicalIdentity, Result.bind_eq_ok, Result.pure_eq_ok]
  exact ⟨_, accepts.metadata, _, fields.2.2.2.2.1, _, fields.2.2.2.2.2.1, _,
    named, _, accepts.location, accepts.canonicalId.symm⟩

/-! ## The snapshot commit -/

/-- A commit that `validateSnapshotCommit` can return. -/
def ValidCommit (commit : Option Text) : Prop :=
  validateSnapshotCommit commit = .ok commit

omit [FloatFormat] [TextDigest] in
theorem validCommit_none : ValidCommit none := rfl

omit [FloatFormat] [TextDigest] in
theorem validateSnapshotCommit_valid {commit validated : Option Text}
    (valid : validateSnapshotCommit commit = .ok validated) :
    ValidCommit validated := by
  unfold validateSnapshotCommit at valid
  split at valid
  · cases valid
    rfl
  · split at valid
    · cases valid
      rfl
    · split at valid
      · cases valid
        rename_i notBlank digest
        simp [ValidCommit, validateSnapshotCommit, notBlank, digest]
      · cases valid

/-- The commit recorded under a default. -/
def recordedCommit (snapshotCommit : Option Text) (metadata : JsonMap) :
    Option Text :=
  (provenanceCommit metadata snapshotCommit).toOption.getD none

/-- The record of the same finding under another default commit. -/
def NormalizedFinding.recommit (snapshotCommit : Option Text)
    (normalized : NormalizedFinding) : NormalizedFinding :=
  { normalized with
    provenance := { normalized.provenance with
      snapshotCommit := recordedCommit snapshotCommit normalized.metadata } }

omit [TextDigest] in
theorem provenanceCommit_valid
    (valid : ValidCommit snapshotCommit) (metadata : JsonMap) :
    provenanceCommit metadata snapshotCommit =
      (provenanceCommit metadata none).map fun _ =>
        recordedCommit snapshotCommit metadata := by
  unfold ValidCommit at valid
  unfold recordedCommit provenanceCommit
  cases metadataStr metadata "snapshot_commit" with
  | none =>
      simp only [Option.none_or, valid]
      rfl
  | some commit =>
      simp only [Option.some_or]
      cases validateSnapshotCommit (some commit) <;> rfl

omit [TextDigest] in
theorem findingProvenance_valid
    (valid : ValidCommit snapshotCommit) (finding : Finding)
    (metadata : JsonMap) :
    findingProvenance finding metadata snapshotCommit =
      (findingProvenance finding metadata none).map fun provenance =>
        { provenance with
          snapshotCommit := recordedCommit snapshotCommit metadata } := by
  unfold findingProvenance
  rw [provenanceCommit_valid valid]
  cases requiredText metadata "scanner_version" with
  | error reason => rfl
  | ok version =>
  cases requiredText metadata "parser" with
  | error reason => rfl
  | ok parser =>
  cases requiredText metadata "scanner_image" with
  | error reason => rfl
  | ok image =>
  cases nativeRuleId metadata with
  | error reason => rfl
  | ok rule =>
  cases nativeFingerprint metadata with
  | error reason => rfl
  | ok fingerprint =>
  cases provenanceCommit metadata none <;> rfl

/-- A valid default commit changes the recorded commit and nothing else: the
same findings are refused for the same reasons. -/
theorem normalizeFinding_valid
    (valid : ValidCommit snapshotCommit) (finding : Finding) :
    normalizeFinding finding snapshotCommit =
      (normalizeFinding finding none).map
        (NormalizedFinding.recommit snapshotCommit) := by
  have sequence : ∀ {α β γ : Type} (first : Except Text α)
      (next : α → Except Text β) (change : β → γ),
      (first >>= next).map change =
        first >>= fun value => (next value).map change := by
    intro α β γ first next change
    cases first <;> rfl
  unfold normalizeFinding
  simp only [sequence, findingProvenance_valid valid]
  refine bind_congr fun identity => ?_
  rcases identity with ⟨scanner, mode⟩
  iterate 7 refine bind_congr fun _ => ?_
  -- the metadata, its size, the rule and the fingerprint
  refine bind_congr fun metadata => ?_
  iterate 3 refine bind_congr fun _ => ?_
  cases findingProvenance finding metadata none with
  | error reason => rfl
  | ok provenance =>
      cases findingLocation finding metadata with
      | error reason => rfl
      | ok location =>
      cases evidenceText finding with
      | error reason => rfl
      | ok evidence =>
      cases checkEvidence (evidenceKindOf scanner) evidence <;> rfl

end FireCrow.Orchestrator
