import FireCrow.Orchestrator.StorableRows

/-!
# Which audits can be stored

The condition looks at the findings that are kept, one of each identity, at
the findings that are quarantined, and at what the scanners' results say of
themselves.  The document repeats nothing else: its identifiers are digests
and its reasons are fixed texts.
-/

namespace FireCrow.Orchestrator

open FireCrow.Library FireCrow.Library.Table FireCrow.Schemas FireCrow.Agents

section Document

variable [FloatFormat] [TextDigest]

/-! ## Correlations -/

omit [TextDigest] in
theorem clean_correlateFindings {findings : List CanonicalAuditFinding}
    (clean : ∀ finding ∈ findings, CleanTexts (findingTexts finding)) :
    ∀ correlated ∈ correlateFindings findings,
      CleanTexts (correlationTexts correlated) := by
  intro correlated inside
  rcases List.mem_filterMap.1 inside with ⟨⟨wanted, group⟩, entry, found⟩
  rcases SortedMap.groupBy_group entry with ⟨nonempty, members⟩
  have identity : '\x00' ∉ wanted := by
    rcases List.exists_mem_of_ne_nil _ nonempty with ⟨finding, member⟩
    rw [← (members finding member).2]
    apply clean finding (members finding member).1
    simp [findingTexts]
  dsimp only at found
  unfold correlation at found
  dsimp only at found
  split at found
  · cases found
    simp only [correlationTexts, cleanTexts_append, cleanTexts_cons,
      cleanTexts_flatMap]
    refine ⟨⟨identity, identity, cleanTexts_nil⟩, ?_⟩
    intro provenance shown
    rcases List.mem_filterMap.1 shown with ⟨text, written, read⟩
    rcases List.mem_map.1 (SortedMap.mem_distinct_iff.1 written) with
      ⟨finding, member, rfl⟩
    rw [provenanceOfText_provenanceText] at read
    cases read
    intro text part
    apply clean finding (members finding member).1
    simp only [findingTexts, List.mem_append]
    tauto
  · cases found

/-! ## Quarantined findings -/

omit [FloatFormat] in
theorem mem_numberInvalid {lastKey : Option InvalidKey} {occurrence : Nat}
    {items : List InvalidFinding} {item : InvalidFinding}
    (inside : item ∈ numberInvalid lastKey occurrence items) :
    ∃ original ∈ items, ∃ number,
      item = { original with id := invalidId original number } := by
  induction items generalizing lastKey occurrence with
  | nil => exact absurd inside List.not_mem_nil
  | cons first rest ih =>
      rw [numberInvalid, List.mem_cons] at inside
      rcases inside with rfl | inside
      · exact ⟨first, List.mem_cons_self, _, rfl⟩
      · rcases ih inside with ⟨original, member, number, numbered⟩
        exact ⟨original, List.mem_cons_of_mem _ member, number, numbered⟩

omit [FloatFormat] in
theorem numberInvalid_keeps (lastKey : Option InvalidKey) (occurrence : Nat)
    {items : List InvalidFinding} {original : InvalidFinding}
    (inside : original ∈ items) :
    ∃ id, { original with id := id } ∈
      numberInvalid lastKey occurrence items := by
  induction items generalizing lastKey occurrence with
  | nil => exact absurd inside List.not_mem_nil
  | cons first rest ih =>
      rw [numberInvalid]
      rcases List.mem_cons.1 inside with rfl | inside
      · exact ⟨_, List.mem_cons_self⟩
      · rcases ih _ _ inside with ⟨id, member⟩
        exact ⟨id, List.mem_cons_of_mem _ member⟩

/-- The records of the quarantined findings are clean when their scanners and
their paths are. -/
theorem cleanTexts_identifyInvalid_iff
    (digest : ∀ text, '\x00' ∉ sha256Hex text) (findings : List Finding)
    (snapshotCommit : Option Text) :
    (∀ item ∈ identifyInvalid (rejected findings snapshotCommit),
        CleanTexts (invalidTexts item)) ↔
      ∀ finding ∈ findings,
        (∀ normalized,
          normalizeFinding finding snapshotCommit ≠ .ok normalized) →
          (∀ scanner ∈ finding.scannerName, '\x00' ∉ scanner) ∧
            ∀ file ∈ finding.filePath, '\x00' ∉ file := by
  constructor
  · intro clean finding member refused
    rcases Result.exists_error_of_forall_ne_ok refused with ⟨reason, failed⟩
    have record := mem_rejected.2 ⟨finding, member, reason, failed, rfl⟩
    have sorted : invalidRecord finding reason ∈
        sortBy invalidKey (rejected findings snapshotCommit) :=
      mem_sortBy.2 record
    rcases numberInvalid_keeps none 0 sorted with ⟨id, kept⟩
    have shown := clean _ kept
    simp only [invalidTexts, invalidRecord, cleanTexts_append,
      cleanTexts_toList] at shown
    exact ⟨shown.1.1.2, shown.1.2⟩
  · intro clean item inside
    rcases mem_numberInvalid inside with ⟨original, sorted, number, rfl⟩
    rcases mem_rejected.1 (mem_sortBy.1 sorted) with
      ⟨finding, member, reason, failed, rfl⟩
    have refused : ∀ normalized,
        normalizeFinding finding snapshotCommit ≠ .ok normalized := by
      intro normalized accepted
      rw [failed] at accepted
      cases accepted
    have identity : '\x00' ∉ invalidId (invalidRecord finding reason) number :=
      clean_append.2 ⟨by decide, digest _⟩
    simp only [invalidTexts, cleanTexts_append, cleanTexts_toList,
      cleanTexts_singleton]
    exact ⟨⟨⟨identity, (clean finding member refused).1⟩,
      (clean finding member refused).2⟩,
      cleanErrors_normalizeFinding finding snapshotCommit reason failed⟩

/-! ## Scanner runs -/

omit [FloatFormat] [TextDigest] in
theorem clean_asStr (status : CanonicalScannerStatus) :
    '\x00' ∉ status.asStr := by
  cases status with
  | successClean => decide
  | successFindings findingCount =>
      show '\x00' ∉ ("success_findings" : Text)
      decide
  | failed reason =>
      show '\x00' ∉ ("failed" : Text)
      decide
  | timeout limitSecs =>
      show '\x00' ∉ ("timeout" : Text)
      decide
  | cancelled => decide
  | noFilesAnalyzed reason =>
      show '\x00' ∉ ("no_files_analyzed" : Text)
      decide

omit [TextDigest] in
theorem cleanTexts_run_iff (result : ScannerResult) :
    CleanTexts (runTexts (canonicalScannerRun result)) ↔
      CleanResult result := by
  have limitations : '\x00' ∉ result.scanner →
      CleanTexts (canonicalScannerRun result).limitations := by
    intro scanner
    show CleanTexts (coverageLimitation result ++ rejectedLimitation result)
    rw [cleanTexts_append]
    constructor
    · unfold coverageLimitation
      dsimp only
      split
      · exact cleanTexts_nil
      · simp only [cleanTexts_singleton, clean_append]
        exact ⟨⟨⟨⟨by decide, scanner⟩, by decide⟩, clean_asStr _⟩, by decide⟩
    · unfold rejectedLimitation
      split
      · split
        · split
          · simp only [cleanTexts_singleton, clean_append]
            exact ⟨⟨by decide, clean_ofNat _⟩, by decide⟩
          · exact cleanTexts_nil
        · exact cleanTexts_nil
      · exact cleanTexts_nil
  have status :
      CleanTexts (statusTexts (canonicalStatus result)) ∧
          CleanTexts (statusDetail (canonicalStatus result)).toList ↔
        ∀ reason, result.outcome = .failed reason → '\x00' ∉ reason := by
    unfold canonicalStatus
    cases result.outcome with
    | success findingCount =>
        dsimp only
        split <;> simp [statusTexts, statusDetail, cleanTexts_nil]
    | failed reason =>
        dsimp only
        split <;>
          simp [statusTexts, statusDetail, cleanTexts_singleton]
    | timeout limitSecs =>
        simp only [statusTexts, statusDetail, cleanTexts_nil, true_and,
          Option.toList_some, cleanTexts_singleton, clean_append]
        simp only [clean_ofNat, not_false_eq_true, and_true, reduceCtorEq,
          false_implies, implies_true, iff_true]
        exact ⟨by decide, by decide⟩
    | cancelled =>
        simp only [statusTexts, statusDetail, cleanTexts_nil, true_and,
          Option.toList_some, cleanTexts_singleton, reduceCtorEq,
          false_implies, implies_true, iff_true]
        decide
  constructor
  · intro clean
    simp only [runTexts, cleanTexts_append, cleanTexts_cons] at clean
    rcases clean with ⟨⟨⟨⟨scanner, version, parser, mode, image, _⟩, shown⟩,
      detail⟩, _⟩
    exact {
      scanner := scanner
      version := version
      parser := parser
      mode := mode
      image := image
      reason := status.1 ⟨shown, detail⟩ }
  · intro clean
    have shown := status.2 clean.reason
    simp only [runTexts, cleanTexts_append, cleanTexts_cons]
    exact ⟨⟨⟨⟨clean.scanner, clean.version, clean.parser, clean.mode,
      clean.image, cleanTexts_nil⟩, shown.1⟩, shown.2⟩,
      limitations clean.scanner⟩

omit [FloatFormat] [TextDigest] in
/-- The coverage repeats the names, the states and the limitations of runs. -/
theorem clean_canonicalCoverage {runs : List CanonicalScannerRun}
    (clean : ∀ run ∈ runs, CleanTexts (runTexts run)) :
    CleanTexts (coverageTexts (canonicalCoverage runs)) := by
  have scanner : ∀ run ∈ runs, '\x00' ∉ run.scanner := by
    intro run member
    apply clean run member
    simp [runTexts]
  have limitations : ∀ run ∈ runs, CleanTexts run.limitations := by
    intro run member text inside
    apply clean run member
    simp only [runTexts, List.mem_append]
    exact Or.inr inside
  have unsuccessful : ∀ entry ∈
      (canonicalCoverage runs).unsuccessfulScanners.entries,
      '\x00' ∉ entry.1 ∧ '\x00' ∉ entry.2 := by
    intro entry inside
    rcases SortedMap.mem_foldl_insert
      (fun run : CanonicalScannerRun => (run.scanner, run.status.asStr)) _
      inside with none | ⟨run, member, rfl⟩
    · exact absurd none List.not_mem_nil
    · exact ⟨scanner run (List.mem_of_mem_filter member), clean_asStr _⟩
  simp only [coverageTexts, cleanTexts_append]
  refine ⟨⟨⟨?_, ?_⟩, ?_⟩, ?_⟩
  · intro text inside
    rcases List.mem_map.1 (mem_sortBy.1 inside) with ⟨run, member, rfl⟩
    exact scanner run (List.mem_of_mem_filter member)
  · intro text inside
    rcases List.mem_map.1 inside with ⟨entry, member, rfl⟩
    exact (unsuccessful entry member).1
  · intro text inside
    rcases List.mem_map.1 inside with ⟨entry, member, rfl⟩
    exact (unsuccessful entry member).2
  · intro text inside
    rcases List.mem_flatMap.1 (SortedMap.mem_distinct_iff.1 inside) with
      ⟨run, member, found⟩
    exact limitations run member text found

/-! ## Counts -/

/-- The counts are kept by the names of known scanners and of severities. -/
theorem clean_summary {request : CanonicalAuditRequest} (commit : Option Text) :
    CleanTexts (summaryTexts (auditDocument request commit).summary) := by
  simp only [summaryTexts, cleanTexts_append]
  constructor
  · intro text inside
    have counted : text ∈ (SortedMap.countBy
        (fun normalized : NormalizedFinding => normalized.provenance.scanner)
        (normalizeFindings request.findings commit).valid).keys := by
      rw [← SortedMap.ofList_entries (SortedMap.countBy _ _)]
      exact inside
    rcases SortedMap.exists_of_mem_countBy counted with ⟨kept, member, rfl⟩
    rcases kept_from_accepted member with
      ⟨group, _, normalized, _, rfl, _, _, accepts⟩
    rcases accepts.known with ⟨mode, _, known⟩
    rw [provenance_retain]
    exact (fits_known known).1.2
  · intro text inside
    have counted : text ∈ (SortedMap.countBy
        (fun normalized : NormalizedFinding =>
          normalized.finding.severity.asStr)
        (normalizeFindings request.findings commit).valid).keys := inside
    rcases SortedMap.exists_of_mem_countBy counted with ⟨kept, _, rfl⟩
    exact (fits_severity _).2

/-! ## Kept findings -/

theorem exists_retained {findings : List Finding} {kept : NormalizedFinding}
    (member : kept ∈ (normalizeFindings findings none).valid) :
    ∃ finding ∈ findings, ∃ normalized occurrences,
      Accepts finding none normalized ∧
        Retained findings finding occurrences ∧
        kept = normalized.retain occurrences := by
  rw [normalizeFindings_valid, List.mem_filterMap] at member
  rcases member with ⟨group, inside, found⟩
  rw [representative_eq] at found
  rcases Option.map_eq_some_iff.1 found with ⟨normalized, first, rfl⟩
  have inGroup : normalized ∈ group :=
    mem_sortBy.1 (List.mem_of_mem_head? first)
  rcases List.mem_map.1 inside with ⟨⟨wanted, rows⟩, entry, rfl⟩
  rcases mem_accepted.1 ((SortedMap.groupBy_group entry).2 normalized
    inGroup).1 with ⟨finding, member, accepts⟩
  exact ⟨finding, member, normalized, rows.length, accepts,
    ⟨rows, inside, rfl, normalized, first, accepts.row⟩, rfl⟩

theorem Retained.exists_kept {findings : List Finding} {finding : Finding}
    {occurrences : Nat} (retained : Retained findings finding occurrences) :
    ∃ normalized, Accepts finding none normalized ∧ finding ∈ findings ∧
      normalized.retain occurrences ∈
        (normalizeFindings findings none).valid := by
  rcases retained with ⟨group, inside, rfl, normalized, first, rfl⟩
  have inGroup : normalized ∈ group :=
    mem_sortBy.1 (List.mem_of_mem_head? first)
  rcases List.mem_map.1 inside with ⟨⟨wanted, rows⟩, entry, rfl⟩
  rcases mem_accepted.1 ((SortedMap.groupBy_group entry).2 normalized
    inGroup).1 with ⟨finding, member, accepts⟩
  have row := accepts.row
  subst row
  refine ⟨normalized, accepts, member, ?_⟩
  rw [normalizeFindings_valid, List.mem_filterMap]
  refine ⟨rows, inside, ?_⟩
  rw [representative_eq, first]
  rfl

/-- A record under a valid commit is accepted under it. -/
theorem Accepts.recommit {finding : Finding} {normalized : NormalizedFinding}
    {commit : Option Text} (valid : ValidCommit commit)
    (accepts : Accepts finding none normalized) :
    Accepts finding commit (normalized.recommit commit) := by
  rw [← normalizeFinding_eq_ok_iff] at accepts ⊢
  rw [normalizeFinding_valid valid, accepts]
  rfl

omit [TextDigest] in
theorem recommit_retain (commit : Option Text) (occurrences : Nat)
    (normalized : NormalizedFinding) :
    (normalized.retain occurrences).recommit commit =
      (normalized.recommit commit).retain occurrences := by
  unfold NormalizedFinding.retain
  split <;> rfl

/-! ## The whole audit -/

theorem storable_auditDocument_iff (digest : ∀ text, '\x00' ∉ sha256Hex text)
    {request : CanonicalAuditRequest} {commit : Option Text}
    (valid : ValidCommit commit)
    (serialized : ∀ finding ∈ request.findings, Serialized finding) :
    Storable (normalizeFindingsForPersist request.findings).valid
        (auditDocument request commit) ↔
      FittingRequest request := by
  have quarantined := cleanTexts_identifyInvalid_iff digest request.findings
    none
  have invalid : (auditDocument request commit).invalidFindings =
      identifyInvalid (rejected request.findings none) := by
    rw [← rejected_valid valid]
    rfl
  constructor
  · rintro ⟨rows, document⟩
    simp only [documentTexts, cleanTexts_append, cleanTexts_cons,
      cleanTexts_flatMap] at document
    rcases document with ⟨⟨⟨⟨⟨⟨⟨⟨⟨scanId, repositoryUrl, repoBranch, repoOwner,
      repoName, _⟩, _⟩, runs⟩, _⟩, _⟩, _⟩, refused⟩, _⟩, _⟩
    rw [invalid] at refused
    exact {
      scanId := scanId
      repositoryUrl := repositoryUrl
      repoBranch := repoBranch
      repoOwner := repoOwner
      repoName := repoName
      results := fun result member =>
        (cleanTexts_run_iff result).1 (runs _
          (mem_canonicalScannerRuns.2 ⟨result, member, rfl⟩))
      retained := by
        intro finding occurrences retained
        rcases retained.exists_kept with
          ⟨normalized, accepts, member, kept⟩
        apply (storableRow_iff accepts (serialized finding member)
          occurrences).1
        apply rows
        rw [normalizeFindingsForPersist_valid]
        exact List.mem_map_of_mem kept
      quarantined := quarantined.1 refused }
  · intro fitting
    have runs : ∀ run ∈ (auditDocument request commit).scannerRuns,
        CleanTexts (runTexts run) := by
      intro run member
      rcases mem_canonicalScannerRuns.1 member with ⟨result, inside, rfl⟩
      exact (cleanTexts_run_iff result).2 (fitting.results result inside)
    have coverage := clean_canonicalCoverage runs
    have findings : ∀ finding ∈ (auditDocument request commit).findings,
        CleanTexts (findingTexts finding) := by
      intro shown member
      rcases List.mem_map.1 member with ⟨kept, inside, rfl⟩
      rw [normalizeFindings_valid_commit valid] at inside
      rcases List.mem_map.1 inside with ⟨record, origin, rfl⟩
      rcases exists_retained origin with
        ⟨finding, _, normalized, occurrences, accepts, retained, rfl⟩
      rw [recommit_retain]
      exact clean_canonicalFinding digest (accepts.recommit valid)
        (fitting.retained finding occurrences retained)
    constructor
    · intro row member
      rw [normalizeFindingsForPersist_valid] at member
      rcases List.mem_map.1 member with ⟨kept, inside, rfl⟩
      rcases exists_retained inside with
        ⟨finding, origin, normalized, occurrences, accepts, retained, rfl⟩
      exact (storableRow_iff accepts (serialized finding origin)
        occurrences).2 (fitting.retained finding occurrences retained)
    · simp only [documentTexts, cleanTexts_append, cleanTexts_cons,
        cleanTexts_flatMap, cleanTexts_toList]
      have limitations :
          CleanTexts (auditDocument request commit).limitations := by
        simp only [coverageTexts, cleanTexts_append] at coverage
        exact coverage.2
      have refused : ∀ item ∈
          (auditDocument request commit).invalidFindings,
          CleanTexts (invalidTexts item) := by
        rw [invalid]
        exact quarantined.2 fitting.quarantined
      exact ⟨⟨⟨⟨⟨⟨⟨⟨⟨fitting.scanId, fitting.repositoryUrl, fitting.repoBranch,
        fitting.repoOwner, fitting.repoName, cleanTexts_nil⟩,
        clean_of_validCommit valid⟩, runs⟩, coverage⟩, findings⟩,
        clean_correlateFindings findings⟩, refused⟩, limitations⟩,
        clean_summary commit⟩

end Document

/-! ## The digest of the program -/

theorem hexDigits_clean : ∀ digit < 16,
    Char.ofNat (if digit < 10 then 48 + digit else 87 + digit) ≠ '\x00' := by
  decide

theorem clean_hexDigest (text : Text) : '\x00' ∉ Sha256.hexDigest text := by
  intro inside
  rcases List.mem_flatMap.1 inside with ⟨word, _, digits⟩
  rcases List.mem_map.1 digits with ⟨index, _, digit⟩
  exact hexDigits_clean _ (Nat.mod_lt _ (by decide)) digit

section Program

variable [FloatFormat]

attribute [local instance] TextDigest.sha256

/-- An audit of findings from adapters can be stored exactly when its request
fits. -/
theorem audit_storable_iff {request : CanonicalAuditRequest}
    {audit : CanonicalAudit} (success : canonicalAudit request = .ok audit)
    (serialized : ∀ finding ∈ request.findings, Serialized finding) :
    Storable (normalizeFindingsForPersist request.findings).valid audit ↔
      FittingRequest request := by
  rcases (canonicalAudit_eq_ok_iff _ _).1 success with
    ⟨commit, admissible, rfl⟩
  exact storable_auditDocument_iff clean_hexDigest admissible.validCommit
    serialized

end Program

section Samples

attribute [local instance] FloatFormat.integersOnly TextDigest.sha256

/-- A row with this evidence, as its adapter hands it over. -/
def scannedRow (evidence : Text) : Finding :=
  withRunProvenance
    { attestedRow "row-1" "8" with evidence := some evidence } .gitleaks
    ⟨none, 1, 10⟩

theorem serialized_scannedRow (evidence : Text) :
    ∀ finding ∈ [scannedRow evidence], Serialized finding := by
  intro finding member
  rw [List.mem_singleton.1 member, scannedRow]
  exact serialized_withRunProvenance _ _ _

/-- The request of a run with one finding. -/
def scannedRequest (evidence : Text) : CanonicalAuditRequest :=
  gitleaksRequest [scannedRow evidence]
    (Nat.lt_of_lt_of_le (Nat.lt_succ_self 1) (by decide))

theorem scannedRequest_audit (evidence : Text) :
    canonicalAudit (scannedRequest evidence) =
      .ok (auditDocument (scannedRequest evidence) none) :=
  gitleaksRequest_audit _ _

theorem audit_storable_iff_scannedRow :
    ∃ audit,
      canonicalAudit (scannedRequest "key = [REDACTED]") = .ok audit ∧
        (Storable
            (normalizeFindingsForPersist
              (scannedRequest "key = [REDACTED]").findings).valid audit ↔
          FittingRequest (scannedRequest "key = [REDACTED]")) :=
  ⟨_, scannedRequest_audit "key = [REDACTED]",
    audit_storable_iff (scannedRequest_audit "key = [REDACTED]")
      (serialized_scannedRow "key = [REDACTED]")⟩

/-- The matched line contains U+0000. -/
def nulEvidence : Text := "k\x00ey = [REDACTED]"

theorem nulEvidence_kept :
    ((normalizeFindingsForPersist [scannedRow nulEvidence]).valid.map
      fun row => row.evidence) = [some nulEvidence] := by
  rw [scannedRow, attestedRow]
  repeat rw [String.toList_ofList]
  decide +kernel

/-- The row is accepted and its evidence is no value of a column `TEXT`. -/
theorem nulEvidence_unstorable :
    ¬ ∀ (request : CanonicalAuditRequest) (audit : CanonicalAudit),
      canonicalAudit request = .ok audit →
        (∀ finding ∈ request.findings, Serialized finding) →
          Storable (normalizeFindingsForPersist request.findings).valid
            audit := by
  intro claim
  have stored := claim _ _ (scannedRequest_audit nulEvidence)
    (serialized_scannedRow nulEvidence)
  rcases List.map_eq_cons_iff.1 nulEvidence_kept with
    ⟨row, _, kept, evidence, _⟩
  have inside : row ∈
      (normalizeFindingsForPersist [scannedRow nulEvidence]).valid := by
    rw [kept]
    exact List.mem_cons_self
  have column : (Column.text, row.evidence) ∈ findingColumns row := by
    simp [findingColumns]
  have clean := (stores_text_iff _).1
    (stored.rows row inside _ column nulEvidence evidence)
  exact clean (by decide)

end Samples

end FireCrow.Orchestrator
