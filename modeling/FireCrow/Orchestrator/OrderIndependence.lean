import FireCrow.Orchestrator.CleanReport

/-!
# Order of the input

Every list of the document is sorted by a key, and the sorts are stable.  For
scanner runs and kept findings distinct entries have distinct keys, so the
order of the input is lost.  A refused finding is sorted by its scanner, its
file, its reason and the length of its evidence, and there an absent field has
the key of an empty one: two records that differ only in that keep the order
of the input.
-/

namespace FireCrow.Orchestrator

open FireCrow.Library FireCrow.Schemas FireCrow.Agents

section Order

variable [FloatFormat] [TextDigest]

/-- The same request with its results and its findings in another order. -/
structure Reorders (reordered request : CanonicalAuditRequest) : Prop where
  results : reordered.results.Perm request.results
  findings : reordered.findings.Perm request.findings
  rest :
    reordered =
      { request with
        results := reordered.results
        findings := reordered.findings
        findingsFit := reordered.findingsFit }

/-- No two findings are refused for one reason with the same descriptors while
one of them lacks a field that is empty in the other. -/
def RefusalsSeparated (findings : List Finding) : Prop :=
  ∀ first ∈ findings, ∀ second ∈ findings, ∀ reason,
    normalizeFinding first none = .error reason →
    normalizeFinding second none = .error reason →
    first.scannerName.getD [] = second.scannerName.getD [] →
    first.filePath.getD [] = second.filePath.getD [] →
    (first.evidence.getD []).length = (second.evidence.getD []).length →
      first.scannerName = second.scannerName ∧
        first.filePath = second.filePath ∧
        first.evidence.isSome = second.evidence.isSome

/-! ## Refused findings -/

omit [FloatFormat] in
theorem map_numberInvalid (lastKey : Option InvalidKey) (occurrence : Nat)
    (items : List InvalidFinding) :
    (numberInvalid lastKey occurrence items).map
        (fun item => { item with id := [] }) =
      items.map fun item => { item with id := [] } := by
  induction items generalizing lastKey occurrence with
  | nil => rfl
  | cons item rest ih =>
      rw [numberInvalid, List.map_cons, List.map_cons, ih]

/-- The numbered records determine the sorted records. -/
theorem map_identifyInvalid_rejected (findings : List Finding)
    (snapshotCommit : Option Text) :
    (identifyInvalid (rejected findings snapshotCommit)).map
        (fun item => { item with id := [] }) =
      sortBy invalidKey (rejected findings snapshotCommit) := by
  rw [identifyInvalid, map_numberInvalid]
  conv_rhs => rw [← List.map_id (sortBy invalidKey _)]
  apply List.map_congr_left
  intro item member
  rcases mem_rejected.1 (mem_sortBy.1 member) with ⟨finding, _, _, _, rfl⟩
  rfl

omit [FloatFormat] [TextDigest] in
theorem invalidRecord_eq_iff (first second : Finding) (reason : Text) :
    invalidRecord first reason = invalidRecord second reason ↔
      first.scannerName = second.scannerName ∧
        first.filePath = second.filePath ∧
        first.evidence.map List.length = second.evidence.map List.length := by
  simp [invalidRecord]

omit [FloatFormat] [TextDigest] in
theorem invalidKey_invalidRecord_eq_iff (first second : Finding)
    (firstReason secondReason : Text) :
    invalidKey (invalidRecord first firstReason) =
        invalidKey (invalidRecord second secondReason) ↔
      first.scannerName.getD [] = second.scannerName.getD [] ∧
        first.filePath.getD [] = second.filePath.getD [] ∧
        firstReason = secondReason ∧
        (first.evidence.getD []).length = (second.evidence.getD []).length := by
  have chars : ∀ evidence : Option Text,
      (evidence.map List.length).getD 0 = (evidence.getD []).length := by
    intro evidence
    cases evidence <;> rfl
  simp only [invalidKey, invalidRecord, chars, toLex_inj, Prod.mk.injEq]

omit [FloatFormat] [TextDigest] in
theorem isSome_eq_iff_of_length_eq {first second : Option Text}
    (length : (first.getD []).length = (second.getD []).length) :
    first.isSome = second.isSome ↔
      first.map List.length = second.map List.length := by
  cases first <;> cases second <;> simp_all

/-- Separation says that the sort key determines the record. -/
theorem refusalsSeparated_iff (findings : List Finding) :
    RefusalsSeparated findings ↔
      ∀ first ∈ rejected findings none, ∀ second ∈ rejected findings none,
        invalidKey first = invalidKey second → first = second := by
  constructor
  · intro separated first firstMem second secondMem sameKey
    rcases mem_rejected.1 firstMem with
      ⟨left, leftMem, leftReason, leftRefused, rfl⟩
    rcases mem_rejected.1 secondMem with
      ⟨right, rightMem, rightReason, rightRefused, rfl⟩
    rcases (invalidKey_invalidRecord_eq_iff _ _ _ _).1 sameKey with
      ⟨scanner, file, rfl, chars⟩
    rcases separated left leftMem right rightMem leftReason leftRefused
      rightRefused scanner file chars with ⟨sameScanner, sameFile, sameEvidence⟩
    exact (invalidRecord_eq_iff _ _ _).2
      ⟨sameScanner, sameFile, (isSome_eq_iff_of_length_eq chars).1 sameEvidence⟩
  · intro determined left leftMem right rightMem reason leftRefused
      rightRefused scanner file chars
    have equal := determined _
      (mem_rejected.2 ⟨left, leftMem, reason, leftRefused, rfl⟩) _
      (mem_rejected.2 ⟨right, rightMem, reason, rightRefused, rfl⟩)
      ((invalidKey_invalidRecord_eq_iff _ _ _ _).2
        ⟨scanner, file, rfl, chars⟩)
    rcases (invalidRecord_eq_iff _ _ _).1 equal with
      ⟨sameScanner, sameFile, sameChars⟩
    exact ⟨sameScanner, sameFile, (isSome_eq_iff_of_length_eq chars).2 sameChars⟩

variable {left right : List Finding}

theorem rejected_perm
    (permuted : left.Perm right) (snapshotCommit : Option Text) :
    (rejected left snapshotCommit).Perm (rejected right snapshotCommit) :=
  permuted.filterMap _

theorem identifyInvalid_perm
    (permuted : left.Perm right) (separated : RefusalsSeparated left) :
    identifyInvalid (rejected left none) =
      identifyInvalid (rejected right none) := by
  unfold identifyInvalid
  congr 1
  exact sortBy_eq_of_perm (rejected_perm permuted none)
    ((refusalsSeparated_iff left).1 separated)

variable {findings : List Finding}

/-- If every order is numbered the same, the refusals are separated. -/
theorem refusalsSeparated_of_perm
    (same : ∀ reordered : List Finding, reordered.Perm findings →
      identifyInvalid (rejected reordered none) =
        identifyInvalid (rejected findings none)) :
    RefusalsSeparated findings := by
  intro left leftMem right rightMem reason leftRefused rightRefused scanner
    file chars
  by_cases equal : left = right
  · subst equal
    exact ⟨rfl, rfl, rfl⟩
  rcases List.mem_iff_append.1 leftMem with ⟨before, after, rfl⟩
  have rightOther : right ∈ before ++ after := by
    rw [List.mem_append, List.mem_cons] at rightMem
    rw [List.mem_append]
    rcases rightMem with inside | rfl | inside
    · exact Or.inl inside
    · exact absurd rfl equal
    · exact Or.inr inside
  rcases List.mem_iff_append.1 rightOther with ⟨start, rest, split⟩
  have moved : (left :: right :: (start ++ rest)).Perm
      (before ++ left :: after) := by
    refine (List.Perm.cons left ?_).trans List.perm_middle.symm
    rw [split]
    exact List.perm_middle.symm
  have first := same _ moved
  have second := same _ ((List.Perm.swap left right _).trans moved)
  have sorted := congrArg
    (List.map fun item : InvalidFinding => { item with id := [] })
    (first.trans second.symm)
  rw [map_identifyInvalid_rejected, map_identifyInvalid_rejected,
    rejected_cons_of_refused leftRefused, rejected_cons_of_refused rightRefused,
    rejected_cons_of_refused rightRefused,
    rejected_cons_of_refused leftRefused] at sorted
  have equal := eq_of_sortBy_swap_eq
    ((invalidKey_invalidRecord_eq_iff _ _ _ _).2 ⟨scanner, file, rfl, chars⟩)
    sorted
  rcases (invalidRecord_eq_iff _ _ _).1 equal with
    ⟨sameScanner, sameFile, sameChars⟩
  exact ⟨sameScanner, sameFile, (isSome_eq_iff_of_length_eq chars).2 sameChars⟩

/-! ## Kept findings -/

theorem accepted_perm
    (permuted : left.Perm right) (snapshotCommit : Option Text) :
    (accepted left snapshotCommit).Perm (accepted right snapshotCommit) :=
  permuted.filterMap _

theorem accepted_separated
    (ids : (findings.map (·.id)).Nodup) (snapshotCommit : Option Text) :
    ∀ first ∈ accepted findings snapshotCommit,
      ∀ second ∈ accepted findings snapshotCommit,
        first.finding.id = second.finding.id → first = second := by
  intro first firstMem second secondMem sameId
  rcases mem_accepted.1 firstMem with ⟨left, leftMem, leftAccepts⟩
  rcases mem_accepted.1 secondMem with ⟨right, rightMem, rightAccepts⟩
  rw [leftAccepts.row, rightAccepts.row] at sameId
  have sameRow := List.inj_on_of_nodup_map ids leftMem rightMem sameId
  subst sameRow
  have firstNormal := (normalizeFinding_eq_ok_iff _ _ _).2 leftAccepts
  have secondNormal := (normalizeFinding_eq_ok_iff _ _ _).2 rightAccepts
  exact Except.ok.inj (firstNormal.symm.trans secondNormal)

theorem representative_perm
    (ids : (findings.map (·.id)).Nodup) {snapshotCommit : Option Text}
    {first second : List NormalizedFinding}
    (inside : first.Sublist (accepted findings snapshotCommit))
    (permuted : first.Perm second) :
    representative first = representative second := by
  have separated := accepted_separated ids snapshotCommit
  have sorted : sortBy (fun row : NormalizedFinding => row.finding.id) first =
      sortBy (fun row : NormalizedFinding => row.finding.id) second :=
    sortBy_eq_of_perm permuted fun left leftMem right rightMem =>
      separated left (inside.subset leftMem) right (inside.subset rightMem)
  rw [representative_eq, representative_eq, first?, first?, sorted,
    permuted.length_eq]

theorem valid_perm (permuted : left.Perm right)
    (ids : (left.map (·.id)).Nodup) (snapshotCommit : Option Text) :
    (normalizeFindings left snapshotCommit).valid =
      (normalizeFindings right snapshotCommit).valid := by
  have summaries :
      (groups left snapshotCommit).mapValues representative =
        (groups right snapshotCommit).mapValues representative :=
    SortedMap.mapValues_groupBy_eq_of_perm
      (accepted_perm permuted snapshotCommit)
      fun _ _ inside => representative_perm ids inside
  have kept := congrArg (fun map => map.values.filterMap id) summaries
  simp only [SortedMap.values_mapValues, List.filterMap_map] at kept
  rw [normalizeFindings_valid, normalizeFindings_valid]
  exact kept

theorem correlations_perm
    (permuted : left.Perm right) (snapshotCommit : Option Text) :
    (normalizeFindings left snapshotCommit).correlations =
      (normalizeFindings right snapshotCommit).correlations := by
  have summaries :
      (groups left snapshotCommit).mapValues List.length =
        (groups right snapshotCommit).mapValues List.length :=
    SortedMap.mapValues_groupBy_eq_of_perm
      (accepted_perm permuted snapshotCommit)
      fun _ _ _ same => same.length_eq
  have values := congrArg SortedMap.values summaries
  rw [SortedMap.values_mapValues, SortedMap.values_mapValues] at values
  have sizes := congrArg
    (fun lengths : List Nat => (lengths.filter fun size => 1 < size).length)
    values
  simpa [normalizeFindings_correlations, List.filter_map, Function.comp_def]
    using sizes

theorem normalizeFindings_eq {snapshotCommit : Option Text}
    (valid : (normalizeFindings left snapshotCommit).valid =
      (normalizeFindings right snapshotCommit).valid)
    (invalid : (normalizeFindings left snapshotCommit).invalid =
      (normalizeFindings right snapshotCommit).invalid)
    (correlations : (normalizeFindings left snapshotCommit).correlations =
      (normalizeFindings right snapshotCommit).correlations) :
    normalizeFindings left snapshotCommit =
      normalizeFindings right snapshotCommit := by
  have scanners := congrArg
    (SortedMap.countBy fun row : NormalizedFinding => row.provenance.scanner)
    valid
  have severities := congrArg
    (SortedMap.countBy fun row : NormalizedFinding =>
      row.finding.severity.asStr) valid
  unfold normalizeFindings at *
  simp only [NormalizedFindings.mk.injEq] at *
  exact ⟨valid, invalid, correlations, scanners, severities⟩

/-! ## Scanner runs -/

omit [TextDigest] in
theorem canonicalScannerRuns_perm {left right : List ScannerResult}
    (permuted : left.Perm right) (scanners : (left.map (·.scanner)).Nodup) :
    canonicalScannerRuns left = canonicalScannerRuns right := by
  apply sortBy_eq_of_perm (permuted.map canonicalScannerRun)
  intro first firstMem second secondMem sameScanner
  rcases List.mem_map.1 firstMem with ⟨firstResult, firstIn, rfl⟩
  rcases List.mem_map.1 secondMem with ⟨secondResult, secondIn, rfl⟩
  rw [List.inj_on_of_nodup_map scanners firstIn secondIn sameScanner]

/-! ## The whole document -/

/-- The checks of a request, up to its validated commit. -/
def checkRequest (request : CanonicalAuditRequest) :
    Except CanonicalAuditError (Option Text) := do
  refuseIf request.scanId.isBlank .missingScanId
  refuseIf request.repositoryUrl.isBlank .missingRepository
  refuseIf (request.results = []) .missingScannerRuns
  let snapshotCommit ←
    (validateSnapshotCommit request.snapshotCommit).mapError fun _ =>
      CanonicalAuditError.missingSnapshot
  let coverage := coverageOf request.results
  refuseIf (coverage.status ≠ .complete ∧ request.securityScore.isSome)
    (.inconsistentScore request.securityScore coverage.status.asStr)
  return snapshotCommit

theorem canonicalAudit_eq_checkRequest (request : CanonicalAuditRequest) :
    canonicalAudit request = do
      let commit ← checkRequest request
      return auditDocument request commit := by
  simp only [canonicalAudit, checkRequest, bind_assoc, pure_bind]
  rfl

variable {reordered request : CanonicalAuditRequest}

omit [TextDigest] in
theorem checkRequest_reorders (reorders : Reorders reordered request)
    (scanners : (request.results.map (·.scanner)).Nodup) :
    checkRequest reordered = checkRequest request := by
  have runs := canonicalScannerRuns_perm reorders.results.symm scanners
  have empty : reordered.results = [] ↔ request.results = [] := by
    rw [← List.length_eq_zero_iff, ← List.length_eq_zero_iff,
      reorders.results.length_eq]
  rw [reorders.rest]
  simp only [checkRequest, coverageOf, ← runs]
  rw [Result.refuseIf_congr empty]
  rfl

variable {commit : Option Text}

theorem canonicalAudit_reorders (reorders : Reorders reordered request)
    (scanners : (request.results.map (·.scanner)).Nodup)
    (checked : checkRequest request = .ok commit) :
    canonicalAudit reordered = .ok (auditDocument reordered commit) := by
  rw [canonicalAudit_eq_checkRequest, checkRequest_reorders reorders scanners,
    checked]
  rfl

theorem auditDocument_reorders (valid : ValidCommit commit)
    (reorders : Reorders reordered request)
    (scanners : (request.results.map (·.scanner)).Nodup)
    (ids : (request.findings.map (·.id)).Nodup)
    (separated : RefusalsSeparated request.findings) :
    auditDocument reordered commit = auditDocument request commit := by
  have runs := canonicalScannerRuns_perm reorders.results.symm scanners
  have invalid : (normalizeFindings request.findings commit).invalid =
      (normalizeFindings reordered.findings commit).invalid := by
    rw [normalizeFindings_invalid, normalizeFindings_invalid,
      rejected_valid valid, rejected_valid valid]
    exact identifyInvalid_perm reorders.findings.symm separated
  have normalized := normalizeFindings_eq
    (valid_perm reorders.findings.symm ids commit) invalid
    (correlations_perm reorders.findings.symm commit)
  rw [reorders.rest]
  simp only [auditDocument, coverageOf, ← runs, ← normalized]

/-- Requests with the same document have the same quarantine. -/
theorem identifyInvalid_eq_of_auditDocument {left right : CanonicalAuditRequest}
    (valid : ValidCommit commit)
    (same : auditDocument left commit = auditDocument right commit) :
    identifyInvalid (rejected left.findings none) =
      identifyInvalid (rejected right.findings none) := by
  have invalid := congrArg CanonicalAudit.invalidFindings same
  simp only [auditDocument, normalizeFindings_invalid, rejected_valid valid]
    at invalid
  exact invalid

end Order

/-! ## An absent and an empty scanner name -/

/-- A row that names no scanner. -/
def namelessRow : Finding :=
  { apiKeyRow with scannerName := none, scannerMode := none }

/-- The same row, with the empty scanner name. -/
def emptyNameRow : Finding :=
  { namelessRow with id := "row-2", scannerName := some [] }

section Samples

attribute [local instance] FloatFormat.integersOnly TextDigest.sha256

end Samples

end FireCrow.Orchestrator
