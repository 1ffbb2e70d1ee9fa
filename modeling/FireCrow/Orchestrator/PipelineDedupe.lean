import FireCrow.Library.FirstOccurrences
import FireCrow.Orchestrator.CleanReport

/-!
# Deduplication in the pipeline

`dedupe_findings` sorts findings by their fingerprint and keeps the first of
each.  The sort is stable, so of two findings with one fingerprint the earlier
one of the input is kept.
-/

namespace FireCrow.Orchestrator

open FireCrow.Library FireCrow.Schemas

section Dedupe

variable [FloatFormat] [TextDigest]

/-- The rule that a finding names, or its title. -/
def legacyRule (finding : Finding) : Text :=
  (((finding.metadataJson.bind Json.parse).bind (·.get? "rule_id")).bind
    Json.asStr).getD finding.title

/-- The fingerprint of a finding without a canonical identity. -/
def legacyFingerprint (finding : Finding) : Text :=
  ("legacy|" : Text) ++ legacyRule finding ++ '|' ::
    finding.filePath.getD [] ++ '|' ::
    Text.ofInt (finding.lineNumber.getD 0).toInt ++ '|' ::
    finding.scannerName.getD [] ++ '|' :: finding.id

/-- Stable identity for a finding: canonical scanner identity. -/
def findingFingerprint (finding : Finding) : Text :=
  match canonicalIdentity finding with
  | .ok identity => identity
  | .error _ => legacyFingerprint finding

/-- Collapse findings that share a fingerprint. -/
def dedupeFindings (findings : List Finding) : List Finding :=
  representatives findingFingerprint findings

theorem findingFingerprint_id {finding : Finding}
    (identified : (canonicalIdentity finding).isOk = true) (id : Text) :
    findingFingerprint finding =
      findingFingerprint { finding with id := id } := by
  have same : canonicalIdentity { finding with id := id } =
      canonicalIdentity finding := rfl
  unfold findingFingerprint
  rw [same]
  cases found : canonicalIdentity finding with
  | ok identity => rfl
  | error reason =>
      rw [found] at identified
      cases identified

/-- Every order of the findings gives the same representatives, in the same
order. -/
def OrderLost (findings : List Finding) : Prop :=
  ∀ reordered, reordered.Perm findings →
    (∀ finding, finding ∈ dedupeFindings reordered ↔
      finding ∈ dedupeFindings findings) ∧
      dedupeFindings reordered = dedupeFindings findings

/-- Two findings with one fingerprint: the order decides which one is kept. -/
theorem OrderLost.eq_of_fingerprint {first second : Finding}
    {rest : List Finding} (lost : OrderLost (first :: second :: rest))
    (same : findingFingerprint first = findingFingerprint second) :
    first = second := by
  have swapped := lost (second :: first :: rest)
    (List.Perm.swap first second rest)
  have kept := (swapped.1 second).1
    (mem_representatives_cons findingFingerprint second (first :: rest))
  exact (eq_of_mem_representatives kept same.symm).symm

theorem OrderLost.of_perm {findings reordered : List Finding}
    (lost : OrderLost findings) (permuted : reordered.Perm findings) :
    OrderLost reordered := by
  intro other again
  have here := lost reordered permuted
  have there := lost other (again.trans permuted)
  constructor
  · intro finding
    rw [there.1 finding, here.1 finding]
  · rw [there.2, here.2]

/-- For findings with distinct storage identifiers the order is lost exactly
when their fingerprints are distinct. -/
theorem order_lost_iff {findings : List Finding}
    (stored : (findings.map Finding.id).Nodup) :
    OrderLost findings ↔ (findings.map findingFingerprint).Nodup := by
  constructor
  · intro lost
    apply List.Nodup.map_on
    · intro first firstInside second secondInside same
      by_contra different
      have permuted : (first :: second ::
          (findings.erase first).erase second).Perm findings := by
        have later : second ∈ findings.erase first :=
          (List.mem_erase_of_ne (Ne.symm different)).2 secondInside
        exact ((List.perm_cons_erase later).symm.cons first).trans
          (List.perm_cons_erase firstInside).symm
      exact different ((lost.of_perm permuted).eq_of_fingerprint same)
    · exact stored.of_map _
  · intro distinct reordered permuted
    have same : dedupeFindings reordered = dedupeFindings findings := by
      rw [dedupeFindings, dedupeFindings, representatives_eq_sortBy distinct,
        representatives_eq_sortBy ((permuted.map _).nodup_iff.2 distinct)]
      apply sortBy_eq_of_perm permuted
      intro first firstInside second secondInside equal
      exact List.inj_on_of_nodup_map distinct (permuted.subset firstInside)
        (permuted.subset secondInside) equal
    exact ⟨fun finding => by rw [same], same⟩

end Dedupe

section Samples

attribute [local instance] FloatFormat.integersOnly TextDigest.sha256

/-- One detection under two storage identifiers. -/
def storedTwice : List Finding := [apiKeyRow, { apiKeyRow with id := "row-2" }]

theorem storedTwice_ids : (storedTwice.map Finding.id).Nodup := by
  apply List.nodup_cons.2
  constructor
  · show ¬ ("row-1" : Text) ∈ [("row-2" : Text)]
    decide
  · exact List.nodup_singleton _

theorem order_lost_iff_storedTwice :
    OrderLost storedTwice ↔ (storedTwice.map findingFingerprint).Nodup :=
  order_lost_iff storedTwice_ids

theorem apiKeyRow_identified : (canonicalIdentity apiKeyRow).isOk = true := by
  rw [apiKeyRow]
  repeat rw [String.toList_ofList]
  decide +kernel

/-- The earlier of the two rows is kept. -/
theorem storedTwice_order_kept :
    ¬ ∀ findings : List Finding, (findings.map Finding.id).Nodup →
      OrderLost findings := by
  intro claim
  have same := (claim storedTwice storedTwice_ids).eq_of_fingerprint
    (findingFingerprint_id apiKeyRow_identified "row-2")
  have ids : ("row-1" : Text) = ("row-2" : Text) := congrArg Finding.id same
  exact absurd ids (by decide)

end Samples

end FireCrow.Orchestrator
