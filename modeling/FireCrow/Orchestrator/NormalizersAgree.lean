import FireCrow.Orchestrator.CleanReport
import FireCrow.Orchestrator.StoredRows

/-!
# The document and the persisted rows

The document's normalizer works under the snapshot commit of the request and
the persisting one under none.  Under every valid commit both keep the records
of the same groups, so the two outputs correspond entry by entry.
-/

namespace FireCrow.Orchestrator

open FireCrow.Library FireCrow.Schemas

section Agreement

variable [FloatFormat] [TextDigest]

/--
A finding of the document and a persisted row that come from one accepted
finding, under its canonical identity.  The stored row has that identity as
well when its package fields survive their text.
-/
def Represents (findings : List Finding) (snapshotCommit : Option Text)
    (shown : CanonicalAuditFinding) (row : Finding) : Prop :=
  ∃ original ∈ findings, ∃ normalized occurrences,
    normalizeFinding original snapshotCommit = .ok normalized ∧
      shown = canonicalFinding (normalized.retain occurrences) ∧
      row = (normalized.retain occurrences).finding ∧
      canonicalIdentity original = .ok shown.id ∧
      (PackageStable normalized.metadata →
        canonicalIdentity row = .ok shown.id)

/-- The document and the persisted rows describe the same audit. -/
structure DescribeSameAudit (findings : List Finding)
    (audit : CanonicalAudit) (persisted : NormalizedPersisted) : Prop where
  rows :
    List.Forall₂ (Represents findings audit.snapshotCommit) audit.findings
      persisted.valid
  invalid : audit.invalidFindings = persisted.invalid
  duplicateGroups :
    audit.summary.duplicateGroupCount = persisted.duplicateGroups

theorem kept_from_accepted {findings : List Finding}
    {snapshotCommit : Option Text} {kept : NormalizedFinding}
    (member : kept ∈ (normalizeFindings findings snapshotCommit).valid) :
    ∃ group, group ∈ (groups findings snapshotCommit).values ∧
      ∃ normalized ∈ group, kept = normalized.retain group.length ∧
        ∃ original ∈ findings,
          Accepts original snapshotCommit normalized := by
  rw [normalizeFindings_valid, List.mem_filterMap] at member
  rcases member with ⟨group, inside, found⟩
  rcases List.mem_map.1 inside with ⟨⟨wanted, rows⟩, entry, rfl⟩
  rcases SortedMap.groupBy_group entry with ⟨nonempty, from_⟩
  rcases first?_isSome nonempty with ⟨normalized, inGroup, first⟩
  rw [representative_eq, first, Option.map_some, Option.some.injEq] at found
  rcases mem_accepted.1 (from_ normalized inGroup).1 with
    ⟨original, inFindings, accepts⟩
  exact ⟨rows, inside, normalized, inGroup, found.symm, original, inFindings,
    accepts⟩

/-- Each kept record shows one finding and stores one row. -/
theorem represents_of_kept {findings : List Finding}
    {snapshotCommit : Option Text} {kept : NormalizedFinding}
    (member : kept ∈ (normalizeFindings findings snapshotCommit).valid) :
    Represents findings snapshotCommit (canonicalFinding kept)
      kept.finding := by
  rcases kept_from_accepted member with
    ⟨group, _, normalized, _, rfl, original, inside, accepts⟩
  have identity := accepts.canonicalIdentity_eq
  have shownId :
      (canonicalFinding (normalized.retain group.length)).id =
        normalized.canonicalId :=
    canonicalId_retain group.length normalized
  refine ⟨original, inside, normalized, group.length,
    (normalizeFinding_eq_ok_iff _ _ _).2 accepts, rfl, rfl, ?_, ?_⟩
  · rw [shownId]
    exact identity
  · intro stable
    rw [shownId]
    unfold NormalizedFinding.retain
    split
    · show canonicalIdentity
        (markDuplicates normalized.finding group.length) = _
      rw [accepts.row]
      exact canonicalIdentity_markDuplicates accepts stable group.length
    · rw [accepts.row]
      exact identity

end Agreement

section Samples

attribute [local instance] FloatFormat.integersOnly TextDigest.sha256

end Samples

end FireCrow.Orchestrator
