import FireCrow.Library.JsonScalars
import FireCrow.Orchestrator.Conservation

/-!
# Attestations in correlations

A merged group is reduced to its representative before the correlations are
built.  The size of the group survives in a counter of the representative's
metadata; the provenance of the other members survives only if it is the
representative's own.
-/

namespace FireCrow.Orchestrator

open FireCrow.Library FireCrow.Schemas

section Attestations

variable [FloatFormat] [TextDigest]

/-- The correlations of the findings that a document keeps. -/
def findingCorrelations (findings : List Finding)
    (snapshotCommit : Option Text) : List FindingCorrelation :=
  correlateFindings
    ((normalizeFindings findings snapshotCommit).valid.map canonicalFinding)

/-- The correlation counts the group and holds the provenance of every
member. -/
structure Attests (findings : List Finding) (snapshotCommit : Option Text)
    (canonicalId : Text) (correlation : FindingCorrelation) : Prop where
  occurrences :
    correlation.occurrences = groupSize findings snapshotCommit canonicalId
  provenance : ∀ normalized ∈ accepted findings snapshotCommit,
    normalized.canonicalId = canonicalId →
      normalized.provenance ∈ correlation.provenance

/-- Every group of two or more findings has one correlation, which attests to
all of them. -/
def AttestationsKept (findings : List Finding)
    (snapshotCommit : Option Text) : Prop :=
  ∀ canonicalId, 2 ≤ groupSize findings snapshotCommit canonicalId →
    ∃ correlation,
      (∀ other, other ∈ findingCorrelations findings snapshotCommit ∧
        other.canonicalId = canonicalId ↔ other = correlation) ∧
      Attests findings snapshotCommit canonicalId correlation

/-- Accepted findings with one identity have one provenance. -/
def SharedProvenance (findings : List Finding)
    (snapshotCommit : Option Text) : Prop :=
  ∀ first ∈ accepted findings snapshotCommit,
    ∀ second ∈ accepted findings snapshotCommit,
      first.canonicalId = second.canonicalId →
        first.provenance = second.provenance

/-! ## The serialized provenance -/

/-- The fields of a provenance, in declaration order. -/
def provenanceMembers (provenance : CanonicalProvenance) :
    List (Text × Json) :=
  [("scanner", .string provenance.scanner),
    ("scanner_version", .string provenance.scannerVersion),
    ("parser", .string provenance.parser),
    ("scanner_image", .string provenance.scannerImage),
    ("rule_id", .string provenance.ruleId),
    ("native_fingerprint", .string provenance.nativeFingerprint),
    ("snapshot_commit", jsonOfText provenance.snapshotCommit)]

omit [TextDigest] in
theorem parse_provenanceText (provenance : CanonicalProvenance) :
    Json.parse (provenanceText provenance) =
      some (.object
        (SortedMap.ofList (provenanceMembers provenance)).entries) := by
  have commit : (jsonOfText provenance.snapshotCommit).Scalar := by
    cases provenance.snapshotCommit <;> trivial
  apply Json.parse_render_of_scalar
  intro member inside
  simp only [List.mem_cons, List.not_mem_nil, or_false] at inside
  rcases inside with rfl | rfl | rfl | rfl | rfl | rfl | rfl
  iterate 6 trivial
  exact commit

omit [TextDigest] in
theorem provenanceOfText_provenanceText (provenance : CanonicalProvenance) :
    provenanceOfText (provenanceText provenance) = some provenance := by
  have member : ∀ key,
      (Json.object (SortedMap.ofList (provenanceMembers provenance)).entries).get?
          key =
        (SortedMap.ofList (provenanceMembers provenance)).get? key :=
    fun key => rfl
  rw [provenanceOfText, parse_provenanceText, Option.bind_eq_bind,
    Option.bind_some]
  simp only [member]
  simp only [provenanceMembers, SortedMap.ofList, List.foldl_cons,
    List.foldl_nil, SortedMap.get?_insert]
  rcases provenance with ⟨_, _, _, _, _, _, commit⟩
  cases commit <;> simp [jsonOfText, Json.asStr]

/-! ## The correlation of a group -/

variable {snapshotCommit : Option Text} {findings : List Finding}

section

variable (fit : findings.length < 2 ^ 64)
include fit

/-- The one correlation of a group of two or more findings. -/
theorem findingCorrelations_group
    {canonicalId : Text}
    (merged : 2 ≤ groupSize findings snapshotCommit canonicalId) :
    ∃ kept ∈ accepted findings snapshotCommit,
      kept.canonicalId = canonicalId ∧
        ∀ other, other ∈ findingCorrelations findings snapshotCommit ∧
          other.canonicalId = canonicalId ↔
            other =
              { correlationId := canonicalId
                canonicalId := canonicalId
                basis := .exactCanonicalIdentity
                occurrences := groupSize findings snapshotCommit canonicalId
                provenance := [kept.provenance] } := by
  let group := (accepted findings snapshotCommit).filter
    fun normalized => normalized.canonicalId = canonicalId
  have size : group.length = groupSize findings snapshotCommit canonicalId := rfl
  have nonempty : group ≠ [] := by
    intro empty
    rw [empty] at size
    simp only [List.length_nil] at size
    omega
  have entry : (canonicalId, group) ∈
      (groups findings snapshotCommit).entries :=
    mem_groups_iff.2 ⟨nonempty, rfl⟩
  have inValues : group ∈ (groups findings snapshotCommit).values :=
    List.mem_map_of_mem entry
  rcases first?_isSome nonempty with ⟨first, inGroup, found⟩
  have inFilter := inGroup
  rw [List.mem_filter, decide_eq_true_eq] at inFilter
  rcases kept_of_group fit inValues with ⟨kept, represents, _, shown⟩
  have equal : kept = first.retain group.length := by
    rw [representative_eq, found] at represents
    exact (Option.some.inj represents).symm
  have keptId : kept.canonicalId = canonicalId := by
    rw [equal, canonicalId_retain, inFilter.2]
  have inFindings : canonicalFinding kept ∈
      (normalizeFindings findings snapshotCommit).valid.map canonicalFinding := by
    rw [normalizeFindings_valid]
    exact List.mem_map_of_mem (List.mem_filterMap.2 ⟨group, inValues, represents⟩)
  rw [shownCount, if_pos (by omega)] at shown
  have single : correlation canonicalId [canonicalFinding kept] =
      some
        { correlationId := canonicalId
          canonicalId := canonicalId
          basis := .exactCanonicalIdentity
          occurrences := groupSize findings snapshotCommit canonicalId
          provenance := [first.provenance] } := by
    have count : max (max 1 (persistedOccurrences [canonicalFinding kept])) 1 =
        groupSize findings snapshotCommit canonicalId := by
      omega
    have provenance : (canonicalFinding kept).provenance = first.provenance := by
      show kept.provenance = _
      rw [equal, provenance_retain]
    unfold correlation
    simp only [List.length_singleton, List.map_cons, List.map_nil, provenance]
    rw [if_pos (Or.inl (by omega)), count]
    have distinct : SortedMap.distinct [provenanceText first.provenance] =
        [provenanceText first.provenance] := rfl
    rw [distinct, List.filterMap_cons_some
      (provenanceOfText_provenanceText first.provenance), List.filterMap_nil]
  refine ⟨first, inFilter.1, inFilter.2, fun other => ?_⟩
  have sorted := keptFindings_sorted findings snapshotCommit
  rw [findingCorrelations, correlateFindings_kept, List.mem_filterMap]
  constructor
  · rintro ⟨⟨finding, inside, made⟩, named⟩
    have label := ((correlation_single finding).2 other made).1
    have distinct := List.pairwise_map.2 (sorted.imp fun below => ne_of_lt below)
    have same : finding = canonicalFinding kept := by
      apply List.inj_on_of_nodup_map distinct inside inFindings
      rw [← label, named]
      exact keptId.symm
    rw [same, show (canonicalFinding kept).id = canonicalId from keptId,
      single] at made
    exact (Option.some.inj made).symm
  · rintro rfl
    exact ⟨⟨canonicalFinding kept, inFindings, by
      rw [show (canonicalFinding kept).id = canonicalId from keptId, single]⟩,
      rfl⟩

theorem AttestationsKept.shared
    (kept : AttestationsKept findings snapshotCommit) :
    SharedProvenance findings snapshotCommit := by
  intro first inFirst second inSecond same
  by_cases merged :
      2 ≤ groupSize findings snapshotCommit second.canonicalId
  · rcases kept second.canonicalId merged with ⟨correlation, only, attests⟩
    rcases findingCorrelations_group fit merged with ⟨single, _, _, exact_⟩
    have equal := (exact_ correlation).1 ((only correlation).2 rfl)
    have holdsFirst := attests.provenance first inFirst same
    have holdsSecond := attests.provenance second inSecond rfl
    rw [equal, List.mem_singleton] at holdsFirst holdsSecond
    rw [holdsFirst, holdsSecond]
  · have inGroup : ∀ normalized ∈ accepted findings snapshotCommit,
        normalized.canonicalId = second.canonicalId →
          normalized ∈ (accepted findings snapshotCommit).filter
            fun other => other.canonicalId = second.canonicalId := by
      intro normalized inside equal
      exact List.mem_filter.2 ⟨inside, decide_eq_true equal⟩
    have holdsSecond := inGroup second inSecond rfl
    have alone : ((accepted findings snapshotCommit).filter fun other =>
        other.canonicalId = second.canonicalId).length = 1 := by
      have positive := List.length_pos_of_mem holdsSecond
      unfold groupSize at merged
      omega
    rcases List.length_eq_one_iff.1 alone with ⟨only, equal⟩
    have holdsFirst := inGroup first inFirst same
    rw [equal, List.mem_singleton] at holdsFirst holdsSecond
    rw [holdsFirst, holdsSecond]

theorem SharedProvenance.kept
    (shared : SharedProvenance findings snapshotCommit) :
    AttestationsKept findings snapshotCommit := by
  intro canonicalId merged
  rcases findingCorrelations_group fit merged with
    ⟨single, inSingle, named, exact_⟩
  refine ⟨_, exact_, rfl, fun normalized inside same => ?_⟩
  rw [shared normalized inside single inSingle (same.trans named.symm)]
  exact List.mem_singleton_self _

end

/-- The attestations of every merged group are kept exactly when its members
share one provenance. -/
theorem attestations_kept_iff {findings : List Finding}
    (snapshotCommit : Option Text) (fit : findings.length < 2 ^ 64) :
    AttestationsKept findings snapshotCommit ↔
      SharedProvenance findings snapshotCommit :=
  ⟨AttestationsKept.shared fit, SharedProvenance.kept fit⟩

end Attestations

section Samples

attribute [local instance] FloatFormat.integersOnly TextDigest.sha256

/-- One detection, attested to by a run of this version of the scanner. -/
def attestedRow (id version : Text) : Finding :=
  { apiKeyRow with
    id := id
    metadataJson := some
      (("\x7b\"fingerprint\":\"gitleaks:app.py:private-key:3\",\"parser\":\"gitleaks-json-v1\",\"rule_id\":\"private-key\",\"scanner_image\":\"gitleaks:8\",\"scanner_version\":\"" : Text) ++
        version ++ ("\"\x7d" : Text)) }

def attestedRows : List Finding :=
  [attestedRow "row-1" "8", attestedRow "row-2" "9"]

theorem attestedRows_fit : attestedRows.length < 2 ^ 64 := by decide

/-- What the identity and the attestation of an accepted row rest on. -/
def attestation (normalized : NormalizedFinding) :
    CanonicalProvenance × Bool × Bool :=
  (normalized.provenance,
    normalized.location == ⟨"app.py", 3, none, none, none⟩,
    packageKeys.all fun key => (normalized.metadata.get? key).isNone)

theorem attestedRows_accepted :
    (accepted attestedRows none).map attestation =
      ["8", "9"].map fun version : String =>
        (⟨"gitleaks", version.toList, "gitleaks-json-v1", "gitleaks:8",
          "private-key", "gitleaks:app.py:private-key:3", none⟩, true, true) := by
  rw [attestedRows, attestedRow, attestedRow]
  repeat rw [String.toList_ofList]
  decide +kernel

theorem attestations_kept_iff_attestedRows :
    AttestationsKept attestedRows none ↔ SharedProvenance attestedRows none :=
  attestations_kept_iff none attestedRows_fit

theorem attestedRows_identity {first second : NormalizedFinding}
    (inFirst : first ∈ accepted attestedRows none)
    (inSecond : second ∈ accepted attestedRows none) :
    first.canonicalId = second.canonicalId := by
  have facts : ∀ normalized ∈ accepted attestedRows none,
      normalized.provenance.scanner = "gitleaks" ∧
        normalized.provenance.ruleId = "private-key" ∧
        normalized.provenance.nativeFingerprint =
          "gitleaks:app.py:private-key:3" ∧
        normalized.location = ⟨"app.py", 3, none, none, none⟩ ∧
        ∀ key ∈ packageKeys, normalized.metadata.get? key = none := by
    intro normalized inside
    have shown : attestation normalized ∈
        (accepted attestedRows none).map attestation :=
      List.mem_map_of_mem inside
    rw [attestedRows_accepted] at shown
    simp only [attestation, List.map_cons, List.map_nil, List.mem_cons, List.not_mem_nil,
      or_false, Prod.mk.injEq, beq_iff_eq, List.all_eq_true,
      Option.isNone_iff_eq_none] at shown
    rcases shown with ⟨provenance, location, package⟩ |
        ⟨provenance, location, package⟩ <;>
      exact ⟨by rw [provenance], by rw [provenance], by rw [provenance],
        location, package⟩
  have evidence : ∀ row ∈ attestedRows, row.evidence = apiKeyRow.evidence := by
    simp [attestedRows, attestedRow]
  rcases mem_accepted.1 inFirst with ⟨row, inRows, accepts⟩
  rcases mem_accepted.1 inSecond with ⟨other, inOthers, acceptsOther⟩
  rcases facts first inFirst with ⟨scanner, rule, print, location, package⟩
  rcases facts second inSecond with
    ⟨scanner', rule', print', location', package'⟩
  rw [accepts.canonicalId, acceptsOther.canonicalId, scanner, rule, print,
    location, scanner', rule', print', location']
  unfold canonicalFindingId
  rw [identityPayload_congr]
  · intro key member
    rw [package key member, package' key member]
  · rw [evidence row inRows, evidence other inOthers]

/-- One detection attested to by two versions of the scanner. -/
theorem attestedRows_lost :
    ¬ ∀ (findings : List Finding) (snapshotCommit : Option Text),
      findings.length < 2 ^ 64 → AttestationsKept findings snapshotCommit := by
  intro claim
  have shared := (claim attestedRows none attestedRows_fit).shared
    attestedRows_fit
  have rows := attestedRows_accepted
  rcases List.map_eq_cons_iff.1 rows with ⟨first, rest, split, shown, others⟩
  rcases List.map_eq_cons_iff.1 others with ⟨second, _, split', shown', _⟩
  have inFirst : first ∈ accepted attestedRows none := by simp [split]
  have inSecond : second ∈ accepted attestedRows none := by
    simp [split, split']
  have same := shared first inFirst second inSecond
    (attestedRows_identity inFirst inSecond)
  have version : first.provenance.scannerVersion = "8" :=
    congrArg (fun shown => shown.1.scannerVersion) shown
  have version' : second.provenance.scannerVersion = "9" :=
    congrArg (fun shown => shown.1.scannerVersion) shown'
  rw [same, version'] at version
  exact absurd version (by decide)

end Samples

end FireCrow.Orchestrator
