import FireCrow.Orchestrator.Deduplication

/-!
# Rows that carry a merge count

`markDuplicates` rewrites the metadata text of a row.  Reading the text again
gives the old metadata with the count added, every other value having made one
trip through its text.  The trip keeps texts and integers, so the identity of
the row is kept as well unless one of its package fields holds a float.
-/

namespace FireCrow.Orchestrator

open FireCrow.Library FireCrow.Schemas

variable [FloatFormat]

/-- The metadata key of the merge count. -/
def duplicateKey : Text := "duplicate_occurrences"

/-- The metadata of a row after its merge count was stored. -/
def storedMetadata (metadata : JsonMap) (occurrences : Nat) : JsonMap :=
  (metadata.insert duplicateKey
    (.int (JsonInt.ofUnsigned occurrences))).mapValues Json.reread

theorem rereadMembers_eq (members : List (Text × Json)) :
    Json.rereadMembers members =
      members.map fun member => (member.1, member.2.reread) := by
  induction members with
  | nil => rfl
  | cons member members ih => rw [Json.rereadMembers, ih]; rfl

variable {metadata : JsonMap}

theorem parse_render_map
    (built : ∀ member ∈ metadata.entries, Json.Buildable 126 member.2) :
    Json.parse (Json.object metadata.entries).render =
      some (.object (metadata.mapValues Json.reread).entries) := by
  rw [(Json.buildable_object built).parse_render, Json.reread,
    rereadMembers_eq]
  rfl

variable {finding : Finding}

/-- Metadata is what the text of the row, or the empty object, parses to. -/
theorem parseMetadata_eq_ok (parsed : parseMetadata finding = .ok metadata) :
    Json.parse (finding.metadataJson.getD ("\x7b\x7d" : Text)) =
      some (.object metadata.entries) ∧
      ∀ member ∈ metadata.entries, Json.Buildable 126 member.2 := by
  unfold parseMetadata at parsed
  split at parsed
  · cases parsed
  · rename_i members found
    cases parsed
    have built := Json.buildable_of_parse found
    have entries : SortedMap.ofList members = ⟨members, built.1.1⟩ :=
      SortedMap.ofList_entries ⟨members, built.1.1⟩
    rw [entries]
    refine ⟨found, ?_⟩
    intro member inside
    have sorted := (Json.sortedMembers_iff members).1 built.1.2 member inside
    have shallow : Json.membersDepth members ≤ 126 :=
      Nat.le_of_succ_le_succ built.2
    exact ⟨sorted, (Json.membersDepth_le_iff members 126).1 shallow member
      inside⟩
  · cases parsed

theorem parse_emptyObject :
    Json.parse ("\x7b\x7d" : Text) = some (.object []) := by
  have none : ∀ member ∈ (∅ : JsonMap).entries,
      Json.Buildable 126 member.2 :=
    fun member inside => absurd inside List.not_mem_nil
  exact parse_render_map none

/-- A row with a rule identity has a metadata text. -/
theorem metadataJson_isSome
    {rule : Text} (parsed : parseMetadata finding = .ok metadata)
    (identified : nativeRuleId metadata = .ok rule) :
    ∃ raw, finding.metadataJson = some raw ∧
      Json.parse raw = some (.object metadata.entries) := by
  have found := (parseMetadata_eq_ok parsed).1
  cases text : finding.metadataJson with
  | none =>
      rw [text, Option.getD_none, parse_emptyObject] at found
      have entries : metadata.entries = [] := by
        injection found with found
        injection found with found
        exact found.symm
      have empty : metadata = ∅ := by
        ext1 key
        rw [SortedMap.get?, entries]
        rfl
      rw [empty] at identified
      simp [nativeRuleId, metadataStr] at identified
  | some raw =>
      rw [text, Option.getD_some] at found
      exact ⟨raw, rfl, found⟩

theorem parseMetadata_markDuplicates {rule : Text}
    (parsed : parseMetadata finding = .ok metadata)
    (identified : nativeRuleId metadata = .ok rule) (occurrences : Nat) :
    parseMetadata (markDuplicates finding occurrences) =
      .ok (storedMetadata metadata occurrences) := by
  rcases metadataJson_isSome parsed identified with ⟨raw, text, found⟩
  have built := (parseMetadata_eq_ok parsed).2
  have count :
      Json.Buildable 126 (.int (JsonInt.ofUnsigned occurrences)) :=
    ⟨trivial, Nat.zero_le _⟩
  have stored := parse_render_map
    (Json.buildable_insert built count :
      ∀ member ∈ (metadata.insert duplicateKey
        (.int (JsonInt.ofUnsigned occurrences))).entries,
        Json.Buildable 126 member.2)
  rw [markDuplicates, text, Option.bind_some, found]
  simp only [SortedMap.ofList_entries]
  rw [parseMetadata, Option.getD_some]
  have spelled : Json.parse (Json.object
      (metadata.insert ("duplicate_occurrences" : Text)
        (.int (JsonInt.ofUnsigned occurrences))).entries).render = _ := stored
  rw [spelled]
  simp only [SortedMap.ofList_entries, storedMetadata]

/-! ## What a stored row keeps -/

theorem get?_storedMetadata (metadata : JsonMap) (occurrences : Nat)
    (key : Text) :
    (storedMetadata metadata occurrences).get? key =
      if key = duplicateKey then
        some (.int (JsonInt.ofUnsigned occurrences))
      else (metadata.get? key).map Json.reread := by
  rw [storedMetadata, SortedMap.get?_mapValues, SortedMap.get?_insert]
  split <;> rfl

theorem metadataStr_storedMetadata (metadata : JsonMap) (occurrences : Nat)
    {key : Text} (other : key ≠ duplicateKey) :
    metadataStr (storedMetadata metadata occurrences) key =
      metadataStr metadata key := by
  rw [metadataStr, metadataStr, get?_storedMetadata, if_neg other]
  cases metadata.get? key with
  | none => rfl
  | some value => exact Json.asStr_reread value

theorem nativeRuleId_storedMetadata (metadata : JsonMap) (occurrences : Nat) :
    nativeRuleId (storedMetadata metadata occurrences) =
      nativeRuleId metadata := by
  have ruleId : ("rule_id" : Text) ≠ duplicateKey := by decide
  have checkId : ("check_id" : Text) ≠ duplicateKey := by decide
  have advisory : ("advisory" : Text) ≠ duplicateKey := by decide
  unfold nativeRuleId
  simp only [List.filterMap_cons, List.filterMap_nil,
    metadataStr_storedMetadata metadata occurrences ruleId,
    metadataStr_storedMetadata metadata occurrences checkId,
    metadataStr_storedMetadata metadata occurrences advisory]

theorem nativeFingerprint_storedMetadata (metadata : JsonMap)
    (occurrences : Nat) :
    nativeFingerprint (storedMetadata metadata occurrences) =
      nativeFingerprint metadata := by
  have fingerprint : ("fingerprint" : Text) ≠ duplicateKey := by decide
  rw [nativeFingerprint, nativeFingerprint,
    metadataStr_storedMetadata metadata occurrences fingerprint]

theorem metadataNumber_storedMetadata (metadata : JsonMap)
    (occurrences : Nat) {key : Text} (other : key ≠ duplicateKey) :
    metadataNumber (storedMetadata metadata occurrences) key =
      metadataNumber metadata key := by
  rw [metadataNumber, metadataNumber, get?_storedMetadata, if_neg other]
  cases metadata.get? key with
  | none => rfl
  | some value => cases value <;> rfl

theorem findingLocation_markDuplicates (finding : Finding)
    (metadata : JsonMap) (occurrences : Nat) :
    findingLocation (markDuplicates finding occurrences)
        (storedMetadata metadata occurrences) =
      findingLocation finding metadata := by
  have startColumn : ("start_column" : Text) ≠ duplicateKey := by decide
  have endLine : ("end_line" : Text) ≠ duplicateKey := by decide
  have endColumn : ("end_column" : Text) ≠ duplicateKey := by decide
  have file : findingFile (markDuplicates finding occurrences) =
      findingFile finding := by
    unfold markDuplicates
    split <;> rfl
  have line : findingLine (markDuplicates finding occurrences) =
      findingLine finding := by
    unfold markDuplicates
    split <;> rfl
  simp only [findingLocation, file, line,
    metadataNumber_storedMetadata metadata occurrences startColumn,
    metadataNumber_storedMetadata metadata occurrences endLine,
    metadataNumber_storedMetadata metadata occurrences endColumn]

/-- The package fields that take part in the identity. -/
def packageKeys : List Text :=
  ["package", "installed_version", "ecosystem", "manifest", "advisory",
    "direct"]

/-- The package fields come back from their text unchanged. -/
def PackageStable (metadata : JsonMap) : Prop :=
  ∀ key ∈ packageKeys, (metadata.get? key).map Json.reread = metadata.get? key

variable [TextDigest]

/-- The identity reads the package fields and the evidence of a finding; the
provenance of its run is no part of it. -/
theorem identityPayload_congr {metadata other : JsonMap}
    {finding row : Finding} (scanner rule fingerprint : Text)
    (location : CanonicalLocation)
    (package : ∀ key ∈ packageKeys, other.get? key = metadata.get? key)
    (evidence : row.evidence = finding.evidence) :
    identityPayload scanner rule fingerprint location other row =
      identityPayload scanner rule fingerprint location metadata finding := by
  have fields :
      (packageKeys.map fun key => (key, (other.get? key).getD .null)) =
        packageKeys.map fun key => (key, (metadata.get? key).getD .null) := by
    apply List.map_congr_left
    intro key member
    rw [package key member]
  simp only [identityPayload, evidence]
  unfold packageKeys at fields
  rw [fields]

theorem identityPayload_markDuplicates
    (stable : PackageStable metadata) (scanner rule fingerprint : Text)
    (location : CanonicalLocation) (finding : Finding) (occurrences : Nat) :
    identityPayload scanner rule fingerprint location
        (storedMetadata metadata occurrences)
        (markDuplicates finding occurrences) =
      identityPayload scanner rule fingerprint location metadata finding := by
  apply identityPayload_congr
  · intro key member
    have other : key ≠ duplicateKey := by
      rintro rfl
      exact absurd member (by decide)
    rw [get?_storedMetadata, if_neg other, stable key member]
  · unfold markDuplicates
    split <;> rfl

theorem canonicalFindingId_markDuplicates
    (stable : PackageStable metadata) (occurrences : Nat)
    (scanner rule fingerprint : Text) (location : CanonicalLocation)
    (finding : Finding) :
    canonicalFindingId scanner rule fingerprint location
        (storedMetadata metadata occurrences)
        (markDuplicates finding occurrences) =
      canonicalFindingId scanner rule fingerprint location metadata
        finding := by
  unfold canonicalFindingId
  rw [identityPayload_markDuplicates stable scanner rule fingerprint location
    finding occurrences]

theorem canonicalIdentity_markDuplicates
    {snapshotCommit : Option Text} {normalized : NormalizedFinding}
    (accepts : Accepts finding snapshotCommit normalized)
    (stable : PackageStable normalized.metadata) (occurrences : Nat) :
    canonicalIdentity (markDuplicates finding occurrences) =
      .ok normalized.canonicalId := by
  have identity := accepts.canonicalIdentity_eq
  have fields := findingProvenance_eq_ok.1 accepts.provenance
  have parsed :=
    parseMetadata_markDuplicates accepts.metadata fields.2.2.2.2.1 occurrences
  have scanner : namedScanner (markDuplicates finding occurrences) =
      namedScanner finding := by
    unfold markDuplicates
    split <;> rfl
  rw [← identity]
  unfold canonicalIdentity
  rw [parsed, accepts.metadata, scanner]
  show (do
    let ruleId ← nativeRuleId (storedMetadata normalized.metadata occurrences)
    let fingerprint ←
      nativeFingerprint (storedMetadata normalized.metadata occurrences)
    let scanner ← namedScanner finding
    let location ←
      findingLocation (markDuplicates finding occurrences)
        (storedMetadata normalized.metadata occurrences)
    return canonicalFindingId scanner ruleId fingerprint location
      (storedMetadata normalized.metadata occurrences)
      (markDuplicates finding occurrences)) = _
  rw [nativeRuleId_storedMetadata, nativeFingerprint_storedMetadata,
    findingLocation_markDuplicates]
  refine bind_congr fun rule => bind_congr fun fingerprint =>
    bind_congr fun scanner => bind_congr fun location => ?_
  rw [canonicalFindingId_markDuplicates stable occurrences scanner rule
    fingerprint location finding]

/-! ## The count that a canonical finding shows -/

/-- The merge count that a row's metadata carries. -/
def metadataOccurrences (metadata : JsonMap) : Nat :=
  ((metadata.get? duplicateKey).bind Json.asU64).getD 0

omit [TextDigest] in
theorem scannerMetadata_eq (metadata : JsonMap) :
    SortedMap.ofList
        (metadata.entries.map fun entry => (entry.1, entry.2.sort)) =
      metadata.mapValues Json.sort :=
  SortedMap.ofList_entries (metadata.mapValues Json.sort)

omit [TextDigest] in
theorem asU64_sort (value : Json) : value.sort.asU64 = value.asU64 := by
  cases value <;> simp [Json.sort, Json.asU64]

omit [TextDigest] in
/-- A canonical finding shows the count of the metadata it was built from. -/
theorem persistedOccurrences_single {normalized : NormalizedFinding}
    (parsed : parseMetadata normalized.finding = .ok metadata) :
    persistedOccurrences [canonicalFinding normalized] =
      metadataOccurrences metadata := by
  have shown :
      (canonicalFinding normalized).scannerMetadata =
        metadata.mapValues Json.sort := by
    rw [← scannerMetadata_eq]
    unfold canonicalFinding
    dsimp only
    rw [parsed]
    rfl
  unfold persistedOccurrences metadataOccurrences
  rw [List.head?_cons, Option.bind_some, shown]
  change ((((metadata.mapValues Json.sort).get? duplicateKey).bind
    Json.asU64).getD 0) = _
  rw [SortedMap.get?_mapValues]
  cases metadata.get? duplicateKey with
  | none => rfl
  | some value =>
      rw [Option.map_some, Option.bind_some, Option.bind_some, asU64_sort]

omit [TextDigest] in
theorem metadataOccurrences_stored (metadata : JsonMap) {occurrences : Nat}
    (fits : occurrences < 2 ^ 64) :
    metadataOccurrences (storedMetadata metadata occurrences) =
      occurrences := by
  rw [metadataOccurrences, get?_storedMetadata, if_pos rfl, Option.bind_some,
    Json.asU64, JsonInt.ofUnsigned_value fits]
  simp

end FireCrow.Orchestrator
