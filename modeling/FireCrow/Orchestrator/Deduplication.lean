import FireCrow.Library.Grouping
import FireCrow.Library.JsonRoundTrip
import FireCrow.Orchestrator.Acceptance

/-!
# Grouping and representatives

Both normalizers group the accepted findings by canonical identity and keep
the row with the smallest storage identifier of each group.  `groups` is that
grouping; the kept records of the document and the persisted rows are both
read off it, which is how they are compared.
-/

namespace FireCrow.Orchestrator

open FireCrow.Library FireCrow.Schemas

variable [FloatFormat] [TextDigest]

/-- The records of the findings that normalization accepts. -/
def accepted (findings : List Finding) (snapshotCommit : Option Text) :
    List NormalizedFinding :=
  findings.filterMap fun finding =>
    (normalizeFinding finding snapshotCommit).toOption

/-- The failure records of the findings that normalization refuses. -/
def rejected (findings : List Finding) (snapshotCommit : Option Text) :
    List InvalidFinding :=
  findings.filterMap fun finding =>
    match normalizeFinding finding snapshotCommit with
    | .ok _ => none
    | .error reason => some (invalidRecord finding reason)

/-- The accepted findings grouped by canonical identity. -/
def groups (findings : List Finding) (snapshotCommit : Option Text) :
    SortedMap Text (List NormalizedFinding) :=
  SortedMap.groupBy (·.canonicalId) (accepted findings snapshotCommit)

variable {snapshotCommit : Option Text}

theorem mem_accepted {findings : List Finding}
    {normalized : NormalizedFinding} :
    normalized ∈ accepted findings snapshotCommit ↔
      ∃ finding ∈ findings, Accepts finding snapshotCommit normalized := by
  simp only [accepted, List.mem_filterMap, Result.toOption_eq_some,
    normalizeFinding_eq_ok_iff]

theorem mem_rejected {findings : List Finding} {item : InvalidFinding} :
    item ∈ rejected findings snapshotCommit ↔
      ∃ finding ∈ findings, ∃ reason,
        normalizeFinding finding snapshotCommit = .error reason ∧
          item = invalidRecord finding reason := by
  simp only [rejected, List.mem_filterMap]
  constructor
  · rintro ⟨finding, member, found⟩
    cases normal : normalizeFinding finding snapshotCommit with
    | ok normalized => simp [normal] at found
    | error reason =>
        simp only [normal, Option.some.injEq] at found
        exact ⟨finding, member, reason, normal, found.symm⟩
  · rintro ⟨finding, member, reason, refused, rfl⟩
    exact ⟨finding, member, by simp [refused]⟩

theorem rejected_cons_of_refused {finding : Finding} {findings : List Finding}
    {reason : Text}
    (refused : normalizeFinding finding snapshotCommit = .error reason) :
    rejected (finding :: findings) snapshotCommit =
      invalidRecord finding reason :: rejected findings snapshotCommit := by
  simp [rejected, refused]

variable (findings : List Finding)

theorem length_accepted_add_rejected (snapshotCommit : Option Text) :
    (accepted findings snapshotCommit).length +
        (rejected findings snapshotCommit).length =
      findings.length := by
  induction findings with
  | nil => rfl
  | cons finding findings ih =>
      cases normal : normalizeFinding finding snapshotCommit with
      | error reason =>
          have kept :
              accepted (finding :: findings) snapshotCommit =
                accepted findings snapshotCommit := by
            simp [accepted, normal, Except.toOption]
          rw [kept, rejected_cons_of_refused normal, List.length_cons, List.length_cons, ← ih]
          omega
      | ok normalized =>
          have kept :
              accepted (finding :: findings) snapshotCommit =
                normalized :: accepted findings snapshotCommit := by
            simp [accepted, normal, Except.toOption]
          have refused :
              rejected (finding :: findings) snapshotCommit =
                rejected findings snapshotCommit := by
            simp [rejected, normal]
          rw [kept, refused, List.length_cons, List.length_cons, ← ih]
          omega

/-! ## Representatives -/

/-- The record kept for a group of this size. -/
def NormalizedFinding.retain (occurrences : Nat)
    (normalized : NormalizedFinding) : NormalizedFinding :=
  if 1 < occurrences then
    { normalized with
      finding := markDuplicates normalized.finding occurrences }
  else normalized

omit [TextDigest] in
@[simp]
theorem canonicalId_retain (occurrences : Nat)
    (normalized : NormalizedFinding) :
    (normalized.retain occurrences).canonicalId = normalized.canonicalId := by
  unfold NormalizedFinding.retain
  split <;> rfl

omit [TextDigest] in
@[simp]
theorem provenance_retain (occurrences : Nat) (normalized : NormalizedFinding) :
    (normalized.retain occurrences).provenance = normalized.provenance := by
  unfold NormalizedFinding.retain
  split <;> rfl

/-- The record of a group with the smallest storage identifier. -/
def first? (group : List NormalizedFinding) : Option NormalizedFinding :=
  (sortBy (·.finding.id) group).head?

omit [TextDigest] in
theorem representative_eq (group : List NormalizedFinding) :
    representative group =
      (first? group).map (NormalizedFinding.retain group.length) := rfl

omit [TextDigest] in
theorem first?_isSome {group : List NormalizedFinding} (nonempty : group ≠ []) :
    ∃ normalized ∈ group, first? group = some normalized := by
  have sortedNonempty : sortBy (·.finding.id) group ≠ [] := by
    intro empty
    have size := length_sortBy (fun row : NormalizedFinding => row.finding.id)
      group
    rw [empty] at size
    exact nonempty (List.length_eq_zero_iff.1 size.symm)
  refine ⟨(sortBy (·.finding.id) group).head sortedNonempty, ?_, ?_⟩
  · exact mem_sortBy.1 (List.head_mem sortedNonempty)
  · exact List.head?_eq_some_head sortedNonempty

omit [TextDigest] in
theorem representative_keeps (wanted : Text)
    (group : List NormalizedFinding) (nonempty : group ≠ [])
    (same : ∀ normalized ∈ group, normalized.canonicalId = wanted) :
    ∃ kept, representative group = some kept ∧ kept.canonicalId = wanted := by
  rcases first?_isSome nonempty with ⟨normalized, member, found⟩
  refine ⟨normalized.retain group.length, ?_, ?_⟩
  · rw [representative_eq, found]
    rfl
  · rw [canonicalId_retain]
    exact same normalized member

theorem map_canonicalId_representatives (snapshotCommit : Option Text) :
    ((groups findings snapshotCommit).values.filterMap representative).map
        (·.canonicalId) =
      (groups findings snapshotCommit).keys :=
  SortedMap.map_filterMap_values representative_keeps

theorem representatives_sorted (snapshotCommit : Option Text) :
    ((groups findings snapshotCommit).values.filterMap representative).Pairwise
      fun left right => left.canonicalId < right.canonicalId := by
  have keys := (groups findings snapshotCommit).keys_sorted
  rw [← map_canonicalId_representatives] at keys
  exact List.pairwise_map.1 keys

/-- The kept records are the representatives of the groups, in order. -/
theorem normalizeFindings_valid (snapshotCommit : Option Text) :
    (normalizeFindings findings snapshotCommit).valid =
      (groups findings snapshotCommit).values.filterMap representative := by
  have sorted :=
    (representatives_sorted findings snapshotCommit).imp
      fun below => le_of_lt below
  simp only [normalizeFindings, SortedMap.groupBy_sortBy]
  exact sortBy_eq_self sorted

theorem normalizeFindings_invalid
    (snapshotCommit : Option Text) :
    (normalizeFindings findings snapshotCommit).invalid =
      identifyInvalid (rejected findings snapshotCommit) := rfl

theorem normalizeFindings_correlations (snapshotCommit : Option Text) :
    (normalizeFindings findings snapshotCommit).correlations =
      ((groups findings snapshotCommit).values.filter
        fun group => 1 < group.length).length := by
  simp only [normalizeFindings, SortedMap.groupBy_sortBy]
  rfl

/-! ## The same audit under every valid commit -/

theorem accepted_valid
    (valid : ValidCommit snapshotCommit) (findings : List Finding) :
    accepted findings snapshotCommit =
      (accepted findings none).map
        (NormalizedFinding.recommit snapshotCommit) := by
  unfold accepted
  rw [List.map_filterMap]
  apply List.filterMap_congr
  intro finding _
  rw [normalizeFinding_valid valid]
  cases normalizeFinding finding none <;> rfl

theorem rejected_valid
    (valid : ValidCommit snapshotCommit) (findings : List Finding) :
    rejected findings snapshotCommit = rejected findings none := by
  unfold rejected
  apply List.filterMap_congr
  intro finding _
  rw [normalizeFinding_valid valid]
  cases normalizeFinding finding none <;> rfl

theorem groups_valid
    (valid : ValidCommit snapshotCommit) (findings : List Finding) :
    groups findings snapshotCommit =
      (groups findings none).mapValues
        (List.map (NormalizedFinding.recommit snapshotCommit)) := by
  unfold groups
  rw [accepted_valid valid, SortedMap.groupBy_map]
  rfl

omit [TextDigest] in
theorem representative_recommit (snapshotCommit : Option Text)
    (group : List NormalizedFinding) :
    representative
        (group.map (NormalizedFinding.recommit snapshotCommit)) =
      (representative group).map
        (NormalizedFinding.recommit snapshotCommit) := by
  have retained : ∀ normalized : NormalizedFinding,
      (normalized.recommit snapshotCommit).retain group.length =
        (normalized.retain group.length).recommit snapshotCommit := by
    intro normalized
    unfold NormalizedFinding.retain
    split <;> rfl
  rw [representative_eq, representative_eq, first?, first?, sortBy_map,
    List.head?_map, List.length_map, Option.map_map, Option.map_map]
  congr 1
  funext normalized
  exact retained normalized

/-- The document keeps the same rows under every valid commit. -/
theorem normalizeFindings_valid_commit
    (valid : ValidCommit snapshotCommit) (findings : List Finding) :
    (normalizeFindings findings snapshotCommit).valid =
      (normalizeFindings findings none).valid.map
        (NormalizedFinding.recommit snapshotCommit) := by
  rw [normalizeFindings_valid, normalizeFindings_valid, groups_valid valid,
    SortedMap.values_mapValues, List.filterMap_map, List.map_filterMap]
  apply List.filterMap_congr
  intro group _
  exact representative_recommit snapshotCommit group

/-! ## The persisted rows -/

theorem persisted_groups :
    (SortedMap.groupBy Prod.fst
        (sortBy Prod.fst
          (findings.filterMap fun finding =>
            (normalizeFinding finding none).toOption.map fun normalized =>
              (normalized.canonicalId, finding)))).values.map
        (fun group => group.map Prod.snd) =
      (groups findings none).values.map
        (List.map fun normalized => normalized.finding) := by
  have identified :
      (findings.filterMap fun finding =>
          (normalizeFinding finding none).toOption.map fun normalized =>
            (normalized.canonicalId, finding)) =
        (accepted findings none).map fun normalized =>
          (normalized.canonicalId, normalized.finding) := by
    unfold accepted
    rw [List.map_filterMap]
    apply List.filterMap_congr
    intro finding _
    cases normal : normalizeFinding finding none with
    | error reason => rfl
    | ok normalized =>
        have accepts := (normalizeFinding_eq_ok_iff _ _ _).1 normal
        simp [Except.toOption, accepts.row]
  rw [identified, SortedMap.groupBy_sortBy, SortedMap.groupBy_map,
    SortedMap.values_mapValues, List.map_map]
  unfold groups
  congr 1
  funext group
  simp

omit [TextDigest] in
theorem persistedRepresentative_map (group : List NormalizedFinding) :
    persistedRepresentative (group.map fun normalized => normalized.finding) =
      (representative group).map fun normalized => normalized.finding := by
  rw [representative_eq, first?, persistedRepresentative]
  simp only [sortBy_map, List.head?_map, List.length_map, Option.map_map]
  congr 1
  funext normalized
  simp only [Function.comp_apply, NormalizedFinding.retain]
  split <;> rfl

/-- The persisted rows are the rows of the kept records. -/
theorem normalizeFindingsForPersist_valid :
    (normalizeFindingsForPersist findings).valid =
      (normalizeFindings findings none).valid.map
        fun normalized => normalized.finding := by
  simp only [normalizeFindingsForPersist, persisted_groups]
  rw [normalizeFindings_valid, List.filterMap_map, List.map_filterMap]
  apply List.filterMap_congr
  intro group _
  exact persistedRepresentative_map group

theorem normalizeFindingsForPersist_invalid :
    (normalizeFindingsForPersist findings).invalid =
      identifyInvalid (rejected findings none) := rfl

theorem normalizeFindingsForPersist_duplicateGroups :
    (normalizeFindingsForPersist findings).duplicateGroups =
      ((groups findings none).values.filter
        fun group => 1 < group.length).length := by
  simp only [normalizeFindingsForPersist, persisted_groups, List.filter_map,
    List.length_map, Function.comp_def]

end FireCrow.Orchestrator
