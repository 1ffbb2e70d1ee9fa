import FireCrow.Orchestrator.CleanReport
import FireCrow.Orchestrator.StoredRows

/-!
# Conservation of findings

Every input finding is either quarantined or a member of the group of one kept
finding.  For a finding that is alone in its group it shows the merge count
that the finding's own metadata carries, because a persisted representative
stands for more findings than the one row that was read back.
-/

namespace FireCrow.Orchestrator

open FireCrow.Library FireCrow.Schemas

section Counts

variable [FloatFormat] [TextDigest]

/-- The occurrences of a finding's correlation, one when it has none. -/
def occurrencesIn (audit : CanonicalAudit) (finding : CanonicalAuditFinding) :
    Nat :=
  ((audit.correlations.find? fun correlation =>
    correlation.canonicalId = finding.id).map (·.occurrences)).getD 1

/-- How many accepted findings have an identity. -/
def groupSize (findings : List Finding) (snapshotCommit : Option Text)
    (canonicalId : Text) : Nat :=
  ((accepted findings snapshotCommit).filter
    fun normalized => normalized.canonicalId = canonicalId).length

/-- No finding that is alone in its identity carries a merge count of two or
more. -/
def NoCarriedCount (findings : List Finding)
    (snapshotCommit : Option Text) : Prop :=
  ∀ normalized ∈ accepted findings snapshotCommit,
    groupSize findings snapshotCommit normalized.canonicalId = 1 →
      metadataOccurrences normalized.metadata ≤ 1

/-- The counts that hold for every document. -/
structure CountsAgree (request : CanonicalAuditRequest)
    (audit : CanonicalAudit) : Prop where
  ids : audit.findings.Pairwise fun left right => left.id < right.id
  findingCount : audit.summary.findingCount = audit.findings.length
  byScanner :
    audit.summary.findingsByScanner.values.sum = audit.findings.length
  bySeverity :
    audit.summary.findingsBySeverity.values.sum = audit.findings.length
  invalidCount :
    audit.summary.invalidFindingCount = audit.invalidFindings.length
  members :
    request.findings.length =
      audit.invalidFindings.length +
        (audit.findings.map fun finding =>
          groupSize request.findings audit.snapshotCommit finding.id).sum
  score : audit.summary.securityScore.isSome = true →
    audit.coverage.complete = true

/-- The correlations account for every input finding. -/
structure Conserved (request : CanonicalAuditRequest)
    (audit : CanonicalAudit) : Prop where
  counts : CountsAgree request audit
  duplicateGroups :
    audit.summary.duplicateGroupCount = audit.correlations.length
  occurrences :
    request.findings.length =
      audit.invalidFindings.length +
        (audit.findings.map (occurrencesIn audit)).sum

/-! ## Kept findings and their groups -/

/-- The merge count that the kept record of a group shows. -/
def shownCount (group : List NormalizedFinding) : Nat :=
  if 1 < group.length then group.length
  else
    max 1
      (((first? group).map fun normalized =>
        metadataOccurrences normalized.metadata).getD 1)

omit [TextDigest] in
theorem length_le_shownCount (group : List NormalizedFinding) :
    group.length ≤ shownCount group := by
  unfold shownCount
  split
  · exact le_rfl
  · exact le_trans (by omega) (le_max_left _ _)

variable {snapshotCommit : Option Text}

variable {group : List NormalizedFinding}

theorem mem_groups_iff {findings : List Finding} {canonicalId : Text} :
    (canonicalId, group) ∈ (groups findings snapshotCommit).entries ↔
      group ≠ [] ∧
        group = (accepted findings snapshotCommit).filter
          fun normalized => normalized.canonicalId = canonicalId := by
  unfold groups
  convert SortedMap.mem_groupBy_iff NormalizedFinding.canonicalId
    (accepted findings snapshotCommit) canonicalId group

theorem mem_values_groups {findings : List Finding}
    (member : group ∈ (groups findings snapshotCommit).values) :
    ∃ canonicalId, group ≠ [] ∧
      group = (accepted findings snapshotCommit).filter
        fun normalized => normalized.canonicalId = canonicalId := by
  rcases List.mem_map.1 member with ⟨⟨canonicalId, rows⟩, entry, rfl⟩
  exact ⟨canonicalId, mem_groups_iff.1 entry⟩

/-- Each group keeps a record that shows its size and its count. -/
theorem kept_of_group {findings : List Finding} (fit : findings.length < 2 ^ 64)
    (member : group ∈ (groups findings snapshotCommit).values) :
    ∃ kept, representative group = some kept ∧
      groupSize findings snapshotCommit (canonicalFinding kept).id =
        group.length ∧
      max 1 (persistedOccurrences [canonicalFinding kept]) =
        shownCount group := by
  rcases mem_values_groups member with ⟨canonicalId, nonempty, equal⟩
  rcases first?_isSome nonempty with ⟨normalized, inGroup, first⟩
  have inFilter := inGroup
  rw [equal, List.mem_filter, decide_eq_true_eq] at inFilter
  rcases mem_accepted.1 inFilter.1 with ⟨original, inside, accepts⟩
  have fields := findingProvenance_eq_ok.1 accepts.provenance
  have parsed := accepts.metadata
  rw [← accepts.row] at parsed
  refine ⟨normalized.retain group.length, ?_, ?_, ?_⟩
  · rw [representative_eq, first]
    rfl
  · show ((accepted findings snapshotCommit).filter fun other =>
      other.canonicalId = (normalized.retain group.length).canonicalId).length =
        _
    rw [canonicalId_retain, inFilter.2, ← equal]
  · unfold shownCount NormalizedFinding.retain
    split
    · have small : group.length < 2 ^ 64 := by
        have total := length_accepted_add_rejected findings snapshotCommit
        have part :
            group.length ≤ (accepted findings snapshotCommit).length := by
          rw [equal]
          exact List.length_filter_le _ _
        omega
      have stored : parseMetadata
          (markDuplicates normalized.finding group.length) =
            .ok (storedMetadata normalized.metadata group.length) :=
        parseMetadata_markDuplicates parsed fields.2.2.2.2.1 group.length
      rw [persistedOccurrences_single stored,
        metadataOccurrences_stored _ small]
      omega
    · rw [persistedOccurrences_single parsed, first]
      rfl

/-- A view of the document's findings is a view of the groups. -/
theorem map_findings_eq {request : CanonicalAuditRequest}
    {commit : Option Text} {view : CanonicalAuditFinding → Nat}
    {shown : List NormalizedFinding → Nat}
    (same : ∀ group ∈ (groups request.findings commit).values, ∀ kept,
      representative group = some kept →
        view (canonicalFinding kept) = shown group) :
    (auditDocument request commit).findings.map view =
      (groups request.findings commit).values.map shown := by
  show ((normalizeFindings request.findings commit).valid.map
    canonicalFinding).map view = _
  rw [normalizeFindings_valid, List.map_map]
  apply SortedMap.map_filterMap_of_forall_some
  intro group member
  rcases kept_of_group request.findingsFit member with ⟨kept, found, _⟩
  exact ⟨kept, found, same group member kept found⟩

variable (request : CanonicalAuditRequest)

theorem map_groupSize_eq (commit : Option Text) :
    ((auditDocument request commit).findings.map fun finding =>
        groupSize request.findings commit finding.id) =
      (groups request.findings commit).values.map List.length := by
  apply map_findings_eq
  intro group member kept found
  rcases kept_of_group request.findingsFit member with
    ⟨other, otherFound, size, _⟩
  cases Option.some.inj (found.symm.trans otherFound)
  exact size

theorem map_shown_eq (commit : Option Text) :
    ((auditDocument request commit).findings.map fun finding =>
        max 1 (persistedOccurrences [finding])) =
      (groups request.findings commit).values.map shownCount := by
  apply map_findings_eq
  intro group member kept found
  rcases kept_of_group request.findingsFit member with
    ⟨other, otherFound, _, shown⟩
  cases Option.some.inj (found.symm.trans otherFound)
  exact shown

/-! ## Correlations -/

variable (findings : List Finding)

theorem keptFindings_sorted (commit : Option Text) :
    ((normalizeFindings findings commit).valid.map canonicalFinding).Pairwise
      fun left right => left.id < right.id := by
  rw [normalizeFindings_valid, List.pairwise_map]
  exact representatives_sorted findings commit

/-- So each kept finding is its own group. -/
theorem correlateFindings_kept (commit : Option Text) :
    correlateFindings
        ((normalizeFindings findings commit).valid.map canonicalFinding) =
      ((normalizeFindings findings commit).valid.map canonicalFinding).filterMap
        fun finding => correlation finding.id [finding] := by
  have entries :=
    SortedMap.entries_groupBy_of_sorted (keptFindings_sorted findings commit)
  unfold correlateFindings
  rw [entries, List.filterMap_map]
  rfl

theorem findings_sorted (commit : Option Text) :
    (auditDocument request commit).findings.Pairwise
      fun left right => left.id < right.id :=
  keptFindings_sorted request.findings commit

theorem correlations_eq (commit : Option Text) :
    (auditDocument request commit).correlations =
      (auditDocument request commit).findings.filterMap fun finding =>
        correlation finding.id [finding] :=
  correlateFindings_kept request.findings commit

omit [TextDigest] in
theorem correlation_single (finding : CanonicalAuditFinding) :
    (correlation finding.id [finding]).isSome =
      decide (1 < max 1 (persistedOccurrences [finding])) ∧
    ∀ found, correlation finding.id [finding] = some found →
      found.canonicalId = finding.id ∧
        found.occurrences = max 1 (persistedOccurrences [finding]) := by
  have count :
      max (max 1 (persistedOccurrences [finding])) 1 =
        max 1 (persistedOccurrences [finding]) := by
    omega
  unfold correlation
  simp only [List.length_singleton, count, lt_irrefl, or_false]
  constructor
  · split <;> simp_all
  · intro found equal
    split at equal
    · cases equal
      exact ⟨rfl, rfl⟩
    · cases equal

/-- The occurrences that a document's finding shows. -/
theorem occurrencesIn_eq {request : CanonicalAuditRequest}
    {commit : Option Text} {finding : CanonicalAuditFinding}
    (member : finding ∈ (auditDocument request commit).findings) :
    occurrencesIn (auditDocument request commit) finding =
      max 1 (persistedOccurrences [finding]) := by
  have distinct :=
    (findings_sorted request commit).imp fun below => ne_of_lt below
  have labelled : ∀ (other : CanonicalAuditFinding) found,
      correlation other.id [other] = some found →
        found.canonicalId = other.id :=
    fun other found equal => ((correlation_single other).2 found equal).1
  have found : ((auditDocument request commit).findings.filterMap
      fun other => correlation other.id [other]).find?
        (fun kept => kept.canonicalId = finding.id) =
      correlation finding.id [finding] := by
    convert SortedMap.find?_filterMap labelled distinct member
  rw [occurrencesIn, correlations_eq, found]
  have single := correlation_single finding
  cases kept : correlation finding.id [finding] with
  | some found =>
      rw [Option.map_some, Option.getD_some]
      exact (single.2 found kept).2
  | none =>
      have none := single.1
      rw [kept, Option.isSome_none] at none
      have small := of_decide_eq_false none.symm
      rw [Option.map_none, Option.getD_none]
      omega

theorem correlations_length (commit : Option Text) :
    (auditDocument request commit).correlations.length =
      ((groups request.findings commit).values.filter
        fun group => 1 < shownCount group).length := by
  have counted :
      (auditDocument request commit).correlations.length =
        (((auditDocument request commit).findings.map fun finding =>
          max 1 (persistedOccurrences [finding])).filter
            fun count => 1 < count).length := by
    rw [correlations_eq, List.length_filterMap_eq_countP, List.filter_map,
      List.length_map, ← List.countP_eq_length_filter]
    congr 1
    funext finding
    exact (correlation_single finding).1
  rw [counted, map_shown_eq, List.filter_map, List.length_map]
  rfl

/-! ## The counts add up -/

theorem noCarriedCount_valid
    (valid : ValidCommit snapshotCommit) (findings : List Finding) :
    NoCarriedCount findings snapshotCommit ↔ NoCarriedCount findings none := by
  have size : ∀ canonicalId,
      groupSize findings snapshotCommit canonicalId =
        groupSize findings none canonicalId := by
    intro canonicalId
    rw [groupSize, accepted_valid valid, List.filter_map, List.length_map]
    rfl
  simp only [NoCarriedCount, size, accepted_valid valid, List.forall_mem_map]
  exact Iff.rfl

/-- Lone findings carry no count exactly when every group shows its size. -/
theorem noCarriedCount_iff (snapshotCommit : Option Text) :
    NoCarriedCount findings snapshotCommit ↔
      ∀ group ∈ (groups findings snapshotCommit).values,
        group.length = shownCount group := by
  constructor
  · intro honest group member
    rcases mem_values_groups member with ⟨canonicalId, nonempty, equal⟩
    unfold shownCount
    split
    · rfl
    · rename_i small
      have positive := List.length_pos_iff.2 nonempty
      rcases first?_isSome nonempty with ⟨normalized, inGroup, first⟩
      have inFilter := inGroup
      rw [equal, List.mem_filter, decide_eq_true_eq] at inFilter
      have alone :
          groupSize findings snapshotCommit normalized.canonicalId = 1 := by
        rw [groupSize, inFilter.2, ← equal]
        omega
      have carried := honest normalized inFilter.1 alone
      rw [first, Option.map_some, Option.getD_some]
      omega
  · intro sizes normalized member alone
    have entry :
        (normalized.canonicalId,
          (accepted findings snapshotCommit).filter fun other =>
            other.canonicalId = normalized.canonicalId) ∈
          (groups findings snapshotCommit).entries := by
      refine mem_groups_iff.2 ⟨?_, rfl⟩
      intro empty
      rw [groupSize, empty] at alone
      exact absurd alone Nat.zero_ne_one
    have single : (accepted findings snapshotCommit).filter
        (fun other => other.canonicalId = normalized.canonicalId) =
          [normalized] := by
      rcases List.length_eq_one_iff.1 alone with ⟨only, equal⟩
      have inside : normalized ∈
          (accepted findings snapshotCommit).filter fun other =>
            other.canonicalId = normalized.canonicalId :=
        List.mem_filter.2 ⟨member, by simp⟩
      rw [equal, List.mem_singleton] at inside
      rw [equal, inside]
    have size := sizes _ (List.mem_map_of_mem entry)
    rw [single] at size
    unfold shownCount at size
    have first : first? [normalized] = some normalized := rfl
    rw [first] at size
    simp only [List.length_singleton, lt_irrefl, if_false, Option.map_some,
      Option.getD_some] at size
    omega

theorem sum_shown_eq (commit : Option Text) :
    ((auditDocument request commit).findings.map
        (occurrencesIn (auditDocument request commit))).sum =
      ((groups request.findings commit).values.map shownCount).sum := by
  rw [← map_shown_eq]
  congr 1
  apply List.map_congr_left
  intro finding member
  exact occurrencesIn_eq member

theorem input_length_eq (commit : Option Text) :
    request.findings.length =
      (auditDocument request commit).invalidFindings.length +
        ((groups request.findings commit).values.map List.length).sum := by
  have total := length_accepted_add_rejected request.findings commit
  have invalid :
      (auditDocument request commit).invalidFindings.length =
        (rejected request.findings commit).length := by
    show (normalizeFindings request.findings commit).invalid.length = _
    rw [normalizeFindings_invalid, length_identifyInvalid]
  rw [invalid, groups, SortedMap.sum_length_groupBy]
  omega

theorem countsAgree
    (commit : Option Text) :
    CountsAgree request (auditDocument request commit) where
  ids := findings_sorted request commit
  findingCount := finding_count_eq request commit
  byScanner := by
    have counted :=
      SortedMap.sum_countBy
        (fun normalized : NormalizedFinding => normalized.provenance.scanner)
        (normalizeFindings request.findings commit).valid
    simp only [auditDocument, canonicalSummary, SortedMap.ofList_entries,
      List.length_map]
    exact counted
  bySeverity := by
    have counted :=
      SortedMap.sum_countBy
        (fun normalized : NormalizedFinding =>
          normalized.finding.severity.asStr)
        (normalizeFindings request.findings commit).valid
    simp only [auditDocument, canonicalSummary, List.length_map]
    exact counted
  invalidCount := rfl
  members := by
    have sizes := map_groupSize_eq request commit
    have total := input_length_eq request commit
    rw [← sizes] at total
    exact total
  score := by
    intro present
    by_contra incomplete
    have absent :
        (auditDocument request commit).summary.securityScore = none :=
      if_neg incomplete
    rw [absent] at present
    exact Bool.noConfusion present

theorem conserved_iff (commit : Option Text) :
    Conserved request (auditDocument request commit) ↔
      NoCarriedCount request.findings commit := by
  rw [noCarriedCount_iff,
    ← SortedMap.sum_map_eq_iff_of_le
      fun group _ => length_le_shownCount group]
  have total := input_length_eq request commit
  have shown := sum_shown_eq request commit
  constructor
  · intro conserved
    have occurrences := conserved.occurrences
    omega
  · intro equal
    have sizes := (SortedMap.sum_map_eq_iff_of_le
      fun group _ => length_le_shownCount group).1 equal
    exact {
      counts := countsAgree request commit
      duplicateGroups := by
        rw [correlations_length]
        show (normalizeFindings request.findings commit).correlations = _
        rw [normalizeFindings_correlations]
        congr 1
        apply List.filter_congr
        intro group member
        rw [sizes group member]
      occurrences := by omega }

/--
The counts of a document agree, every input finding is quarantined or in the
group of one kept finding, and each kept finding shows the size of its merged
group or else the count that it carries.  Without carried counts the
correlations account for every input finding.
-/
theorem audit_counts_agree {request : CanonicalAuditRequest}
    {audit : CanonicalAudit} (success : canonicalAudit request = .ok audit) :
    CountsAgree request audit ∧
      (∀ finding ∈ audit.findings,
        occurrencesIn audit finding =
          if 1 < groupSize request.findings audit.snapshotCommit finding.id
          then groupSize request.findings audit.snapshotCommit finding.id
          else
            max 1 (((finding.scannerMetadata.get? duplicateKey).bind
              Json.asU64).getD 0)) ∧
      (NoCarriedCount request.findings none → Conserved request audit) := by
  rcases (canonicalAudit_eq_ok_iff _ _).1 success with
    ⟨commit, admissible, rfl⟩
  refine ⟨countsAgree request commit, ?_, ?_⟩
  · intro finding member
    rw [occurrencesIn_eq member]
    have member' : finding ∈
        (normalizeFindings request.findings commit).valid.map
          canonicalFinding := member
    rw [normalizeFindings_valid, List.mem_map] at member'
    rcases member' with ⟨kept, inValid, rfl⟩
    rcases List.mem_filterMap.1 inValid with ⟨group, inside, found⟩
    rcases kept_of_group request.findingsFit inside with
      ⟨other, otherFound, size, shown⟩
    cases Option.some.inj (found.symm.trans otherFound)
    have sameSize :
        groupSize request.findings (auditDocument request commit).snapshotCommit
          (canonicalFinding kept).id = group.length := size
    rw [sameSize]
    split
    · rename_i merged
      rw [shown, shownCount, if_pos merged]
    · rfl
  · intro honest
    exact (conserved_iff request commit).2
      ((noCarriedCount_valid admissible.validCommit _).2 honest)

end Counts

/-! ## A row that was read back -/

/-- A persisted representative of five merged findings. -/
def storedRow : Finding :=
  { apiKeyRow with
    metadataJson := some
      "\x7b\"duplicate_occurrences\":5,\"fingerprint\":\"gitleaks:app.py:private-key:3\",\"parser\":\"gitleaks-json-v1\",\"rule_id\":\"private-key\",\"scanner_image\":\"gitleaks:8\",\"scanner_version\":\"8\"\x7d" }

section Samples

attribute [local instance] FloatFormat.integersOnly TextDigest.sha256

theorem storedRow_accepted :
    ((normalizeFinding storedRow none).toOption.map fun normalized =>
      metadataOccurrences normalized.metadata) = some 5 := by
  rw [storedRow]
  repeat rw [String.toList_ofList]
  decide +kernel

theorem audit_counts_agree_storedRow :
    ∃ audit,
      canonicalAudit (gitleaksRequest [storedRow] (by decide)) = .ok audit ∧
        CountsAgree (gitleaksRequest [storedRow] (by decide)) audit :=
  ⟨_, gitleaksRequest_audit [storedRow] (by decide),
    (audit_counts_agree (gitleaksRequest_audit [storedRow] (by decide))).1⟩

/-- One stored row alone shows five occurrences of one input finding. -/
theorem storedRow_not_conserved :
    ¬ ∀ (request : CanonicalAuditRequest) (audit : CanonicalAudit),
      canonicalAudit request = .ok audit → Conserved request audit := by
  intro claim
  have conserved := claim _ _ (gitleaksRequest_audit [storedRow] (by decide))
  have honest := (conserved_iff _ _).1 conserved
  rcases Option.map_eq_some_iff.1 storedRow_accepted with
    ⟨normalized, normal, carried⟩
  have only : accepted [storedRow] none = [normalized] := by
    simp [accepted, normal]
  have small := honest normalized
    (by
      show normalized ∈ accepted [storedRow] none
      rw [only]
      exact List.mem_singleton_self normalized)
    (by
      show groupSize [storedRow] none normalized.canonicalId = 1
      rw [groupSize, only]
      simp)
  rw [carried] at small
  exact absurd small (by decide)

end Samples

end FireCrow.Orchestrator
