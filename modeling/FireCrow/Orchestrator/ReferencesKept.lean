import FireCrow.Orchestrator.NormalizersAgree
import FireCrow.Orchestrator.Conservation

/-!
# References of canonical findings

The gate accepts a finding without reading its references.  The document reads
them later and shows none when one of them is unreadable, so the references
are kept exactly where all of an accepted finding can be read.
-/

namespace FireCrow.Orchestrator

open FireCrow.Library FireCrow.Schemas

section References

variable [FloatFormat]

/-! ## What metadata lists -/

/-- The type and the url of an entry. -/
def referencePair (reference : Json) : Option CanonicalReference := do
  let referenceType ← (reference.get? "type").bind Json.asStr
  let url ← (reference.get? "url").bind Json.asStr
  return { referenceType := referenceType.trim, url := url.trim }

/-- The entries of the references array. -/
def referenceEntries (metadata : JsonMap) : List Json :=
  ((metadata.get? "references").bind Json.asArray).getD []

/-- The pairs of the references array. -/
def referencePairs (metadata : JsonMap) : List CanonicalReference :=
  (referenceEntries metadata).filterMap referencePair

/-- The order of references. -/
def referenceKey (reference : CanonicalReference) : Text ×ₗ Text :=
  toLex (reference.url, reference.referenceType)

/-- The distinct pairs of the references array, sorted. -/
structure ListsReferences (metadata : JsonMap)
    (references : List CanonicalReference) : Prop where
  sorted : references.Pairwise fun left right =>
    referenceKey left < referenceKey right
  listed : ∀ reference,
    reference ∈ references ↔ reference ∈ referencePairs metadata

/-- A type and an http url, within their bounds. -/
structure GoodPair (reference : CanonicalReference) : Prop where
  typed : reference.referenceType ≠ []
  shortType : reference.referenceType.length ≤ 32
  linked : reference.url ≠ []
  shortUrl : reference.url.length ≤ maxCanonicalReferenceUrlChars
  scheme : (reference.url.startsWith "http://" ||
    reference.url.startsWith "https://") = true

/-- There are no references, or a bounded array of good pairs. -/
def GoodReferences (metadata : JsonMap) : Prop :=
  ∀ value, metadata.get? "references" = some value →
    ∃ items, value.asArray = some items ∧
      items.length ≤ maxCanonicalReferences ∧
      ∀ item ∈ items, ∃ pair, referencePair item = some pair ∧ GoodPair pair

/-! ## Reading references -/

theorem referencePair_eq_some {reference : Json} {pair : CanonicalReference}
    (found : referencePair reference = some pair) :
    referenceText reference "type" = pair.referenceType ∧
      referenceText reference "url" = pair.url := by
  simp only [referencePair, bind, Option.bind_eq_some_iff, pure,
    Option.some.injEq] at found
  obtain ⟨_, ⟨typeValue, typeFound, typed⟩, _, ⟨urlValue, urlFound, linked⟩,
    rfl⟩ := found
  constructor
  · rw [referenceText, typeFound, Option.bind_some, typed]
    rfl
  · rw [referenceText, urlFound, Option.bind_some, linked]
    rfl

theorem referencePair_of_texts {reference : Json}
    (typed : referenceText reference "type" ≠ [])
    (linked : referenceText reference "url" ≠ []) :
    referencePair reference =
      some ⟨referenceText reference "type", referenceText reference "url"⟩ := by
  unfold referenceText at typed linked ⊢
  unfold referencePair
  cases typeFound : (reference.get? "type").bind Json.asStr with
  | none =>
      rw [typeFound] at typed
      exact absurd rfl typed
  | some typeText =>
      cases urlFound : (reference.get? "url").bind Json.asStr with
      | none =>
          rw [urlFound] at linked
          exact absurd rfl linked
      | some urlText => rfl

theorem canonicalReference_eq_ok_iff (reference : Json)
    (pair : CanonicalReference) :
    canonicalReference reference = .ok pair ↔
      referencePair reference = some pair ∧ GoodPair pair := by
  simp only [canonicalReference, Result.bind_eq_ok, Result.pure_eq_ok,
    Result.refuseIf_eq_ok]
  constructor
  · rintro ⟨_, typed, _, shortType, _, linked, _, shortUrl, _, scheme, rfl⟩
    refine ⟨referencePair_of_texts typed linked, ?_⟩
    exact {
      typed := typed
      shortType := Nat.not_lt.1 shortType
      linked := linked
      shortUrl := Nat.not_lt.1 shortUrl
      scheme := by simpa only [Bool.not_eq_true', Bool.not_eq_false] using
        scheme }
  · rintro ⟨found, good⟩
    obtain ⟨typeText, urlText⟩ := referencePair_eq_some found
    rw [typeText, urlText]
    exact ⟨(), good.typed, (), Nat.not_lt.2 good.shortType, (), good.linked,
      (), Nat.not_lt.2 good.shortUrl, (), by
        simpa only [Bool.not_eq_true', Bool.not_eq_false] using good.scheme,
      rfl⟩

theorem mapM_canonicalReference_iff (items : List Json)
    (pairs : List CanonicalReference) :
    items.mapM canonicalReference = .ok pairs ↔
      (∀ item ∈ items, ∃ pair, referencePair item = some pair ∧
        GoodPair pair) ∧ pairs = items.filterMap referencePair := by
  induction items generalizing pairs with
  | nil =>
      simp [pure, Except.pure, eq_comm]
  | cons item items ih =>
      simp only [List.mapM_cons, Result.bind_eq_ok, Result.pure_eq_ok,
        canonicalReference_eq_ok_iff, ih, List.forall_mem_cons]
      constructor
      · rintro ⟨pair, ⟨found, good⟩, _, ⟨others, rfl⟩, rfl⟩
        exact ⟨⟨⟨pair, found, good⟩, others⟩,
          (List.filterMap_cons_some found).symm⟩
      · rintro ⟨⟨⟨pair, found, good⟩, others⟩, rfl⟩
        exact ⟨pair, ⟨found, good⟩, _, ⟨others, rfl⟩,
          (List.filterMap_cons_some found).symm⟩

omit [FloatFormat] in
theorem referenceKey_injective : Function.Injective referenceKey := by
  rintro ⟨firstType, firstUrl⟩ ⟨secondType, secondUrl⟩ same
  obtain ⟨rfl, rfl⟩ := Prod.mk.inj (toLex.injective same)
  rfl

omit [FloatFormat] in
/-- Sorting and removing repetitions leaves a strictly sorted list. -/
theorem pairwise_destutter_sortBy (pairs : List CanonicalReference) :
    ((sortBy referenceKey pairs).destutter (· ≠ ·)).Pairwise
      fun left right => referenceKey left < referenceKey right := by
  have sorted := (pairwise_sortBy referenceKey pairs).sublist
    (List.destutter_sublist (· ≠ ·) (sortBy referenceKey pairs))
  have apart := List.isChain_destutter (· ≠ ·) (sortBy referenceKey pairs)
  generalize (sortBy referenceKey pairs).destutter (· ≠ ·) = kept
    at sorted apart
  induction kept with
  | nil => exact List.Pairwise.nil
  | cons first rest ih =>
      rw [List.pairwise_cons] at sorted
      have later := ih sorted.2 apart.tail
      refine List.pairwise_cons.2 ⟨?_, later⟩
      cases rest with
      | nil => exact fun _ inside => absurd inside List.not_mem_nil
      | cons second rest =>
          have different : first ≠ second := (List.isChain_cons_cons.1 apart).1
          have below : referenceKey first < referenceKey second :=
            lt_of_le_of_ne (sorted.1 second List.mem_cons_self)
              fun same => different (referenceKey_injective same)
          intro other inside
          rcases List.mem_cons.1 inside with rfl | further
          · exact below
          · exact below.trans ((List.pairwise_cons.1 later).1 other further)

/-- Good references are read as they are listed. -/
theorem canonicalReferences_of_good {metadata : JsonMap}
    (good : GoodReferences metadata) :
    ∃ references, canonicalReferences metadata = .ok references ∧
      ListsReferences metadata references := by
  unfold canonicalReferences
  cases found : metadata.get? "references" with
  | none =>
      refine ⟨[], rfl, List.Pairwise.nil, ?_⟩
      intro reference
      rw [referencePairs, referenceEntries, found]
      exact Iff.rfl
  | some value =>
      obtain ⟨items, array, short, pairs⟩ := good value found
      have mapped := (mapM_canonicalReference_iff items _).2 ⟨pairs, rfl⟩
      have entries : referenceEntries metadata = items := by
        rw [referenceEntries, found, Option.bind_some, array]
        rfl
      dsimp only
      rw [array]
      dsimp only
      rw [if_neg (Nat.not_lt.2 short), mapped]
      refine ⟨_, rfl, pairwise_destutter_sortBy _, ?_⟩
      intro reference
      rw [mem_destutter_ne, mem_sortBy, referencePairs, entries]

theorem good_of_canonicalReferences {metadata : JsonMap}
    {references : List CanonicalReference}
    (read : canonicalReferences metadata = .ok references) :
    GoodReferences metadata := by
  intro value found
  rw [canonicalReferences, found] at read
  dsimp only at read
  cases array : value.asArray with
  | none =>
      rw [array] at read
      cases read
  | some items =>
      rw [array] at read
      dsimp only at read
      split at read
      · cases read
      · rename_i short
        obtain ⟨pairs, mapped, _⟩ := (Result.bind_eq_ok _ _ _).1 read
        exact ⟨items, rfl, Nat.not_lt.1 short,
          ((mapM_canonicalReference_iff items pairs).1 mapped).1⟩

/-! ## References of a row that was read back -/

theorem lookup_map (view : Json → Json) (key : Text)
    (members : List (Text × Json)) :
    SortedMap.lookupEntries key
        (members.map fun member => (member.1, view member.2)) =
      (SortedMap.lookupEntries key members).map view := by
  induction members with
  | nil => rfl
  | cons member members ih =>
      rw [List.map_cons, SortedMap.lookupEntries, SortedMap.lookupEntries, ih]
      split <;> rfl

theorem referenceText_reread (reference : Json) (key : Text) :
    referenceText reference.reread key = referenceText reference key := by
  have member : reference.reread.get? key =
      (reference.get? key).map Json.reread := by
    cases reference with
    | object members =>
        rw [Json.reread, rereadMembers_eq]
        exact lookup_map Json.reread key members
    | null | bool _ | int _ | float _ | string _ | array _ => rfl
  rw [referenceText, referenceText, member]
  cases reference.get? key with
  | none => rfl
  | some value =>
      rw [Option.map_some, Option.bind_some, Json.asStr_reread]
      rfl

theorem mapM_canonicalReference_reread (items : List Json) :
    (Json.rereadItems items).mapM canonicalReference =
      items.mapM canonicalReference := by
  induction items with
  | nil => rfl
  | cons item items ih =>
      have same : canonicalReference item.reread = canonicalReference item := by
        simp only [canonicalReference, referenceText_reread]
      rw [Json.rereadItems, List.mapM_cons, List.mapM_cons, same, ih]

theorem length_rereadItems (items : List Json) :
    (Json.rereadItems items).length = items.length := by
  induction items with
  | nil => rfl
  | cons item items ih => rw [Json.rereadItems, List.length_cons, ih]; rfl

theorem canonicalReferences_storedMetadata (metadata : JsonMap)
    (occurrences : Nat) :
    canonicalReferences (storedMetadata metadata occurrences) =
      canonicalReferences metadata := by
  have other : ("references" : Text) ≠ duplicateKey := by decide
  rw [canonicalReferences, canonicalReferences, get?_storedMetadata,
    if_neg other]
  cases metadata.get? "references" with
  | none => rfl
  | some value =>
      cases value with
      | array items =>
          simp only [Option.map_some, Json.reread, Json.asArray,
            mapM_canonicalReference_reread, length_rereadItems]
      | null | bool _ | int _ | float _ | string _ | object _ => rfl

variable [TextDigest]

/-- The references that a kept record shows. -/
theorem references_retain {finding : Finding} {snapshotCommit : Option Text}
    {normalized : NormalizedFinding}
    (accepts : Accepts finding snapshotCommit normalized) (occurrences : Nat) :
    (canonicalFinding (normalized.retain occurrences)).references =
      (canonicalReferences normalized.metadata).toOption.getD [] := by
  have fields := findingProvenance_eq_ok.1 accepts.provenance
  have shown : ∀ {metadata}, parseMetadata
      (normalized.retain occurrences).finding = .ok metadata →
      (canonicalFinding (normalized.retain occurrences)).references =
        (canonicalReferences metadata).toOption.getD [] := by
    intro metadata parsed
    rw [canonicalFinding, parsed]
    rfl
  by_cases merged : 1 < occurrences
  · have marked : (normalized.retain occurrences).finding =
        markDuplicates finding occurrences := by
      rw [NormalizedFinding.retain, if_pos merged, accepts.row]
    rw [← canonicalReferences_storedMetadata normalized.metadata occurrences]
    apply shown
    rw [marked]
    exact parseMetadata_markDuplicates accepts.metadata fields.2.2.2.2.1
      occurrences
  · apply shown
    rw [NormalizedFinding.retain, if_neg merged, accepts.row]
    exact accepts.metadata

/-! ## References of the document -/

/-- Every accepted finding shows the references of its metadata, and a finding
whose references are refused is quarantined. -/
structure ReferencesKept (request : CanonicalAuditRequest)
    (audit : CanonicalAudit) : Prop where
  listed : ∀ finding ∈ request.findings, ∀ normalized,
    normalizeFinding finding audit.snapshotCommit = .ok normalized →
      ∃ canonical ∈ audit.findings, canonical.id = normalized.canonicalId ∧
        ListsReferences normalized.metadata canonical.references
  refused : ∀ finding ∈ request.findings, ∀ metadata reason,
    parseMetadata finding = .ok metadata →
      canonicalReferences metadata = .error reason →
        ∃ failure, normalizeFinding finding audit.snapshotCommit =
          .error failure

/-- The accepted findings have good references, and those with one identity
the same. -/
structure ReferencesAgree (findings : List Finding) (commit : Option Text) :
    Prop where
  good : ∀ normalized ∈ accepted findings commit,
    GoodReferences normalized.metadata
  shared : ∀ first ∈ accepted findings commit,
    ∀ second ∈ accepted findings commit,
      first.canonicalId = second.canonicalId → ∀ pair,
        pair ∈ referencePairs first.metadata ↔
          pair ∈ referencePairs second.metadata

/-- The shown finding of an accepted one is made of one with its identity. -/
theorem exists_shown {findings : List Finding} {commit : Option Text}
    {normalized : NormalizedFinding}
    (inside : normalized ∈ accepted findings commit) :
    ∃ kept ∈ (normalizeFindings findings commit).valid,
      (canonicalFinding kept).id = normalized.canonicalId ∧
        ∃ origin ∈ accepted findings commit,
          origin.canonicalId = normalized.canonicalId ∧
            (canonicalFinding kept).references =
              (canonicalReferences origin.metadata).toOption.getD [] := by
  have key : normalized.canonicalId ∈ (groups findings commit).keys :=
    (SortedMap.mem_keys_groupBy_iff _ _ _).2 ⟨normalized, inside, rfl⟩
  rw [← map_canonicalId_representatives, ← normalizeFindings_valid] at key
  obtain ⟨kept, member, same⟩ := List.mem_map.1 key
  obtain ⟨group, _, origin, _, rfl, original, inFindings, accepts⟩ :=
    kept_from_accepted member
  refine ⟨_, member, same, origin, ?_, ?_, ?_⟩
  · exact mem_accepted.2 ⟨original, inFindings, accepts⟩
  · rw [← same, canonicalId_retain]
  · exact references_retain accepts group.length

theorem shown_eq_of_id {findings : List Finding} {commit : Option Text}
    {first second : NormalizedFinding}
    (firstKept : first ∈ (normalizeFindings findings commit).valid)
    (secondKept : second ∈ (normalizeFindings findings commit).valid)
    (same : first.canonicalId = second.canonicalId) : first = second := by
  have sorted := representatives_sorted findings commit
  rw [← normalizeFindings_valid] at sorted
  have distinct : ((normalizeFindings findings commit).valid.map
      (·.canonicalId)).Nodup :=
    List.nodup_iff_pairwise_ne.2
      ((List.pairwise_map.2 sorted).imp fun below => below.ne)
  exact List.inj_on_of_nodup_map distinct firstKept secondKept same

end References

/-! ## One bad link -/

section Samples

attribute [local instance] FloatFormat.integersOnly TextDigest.sha256

/-- A row with a good and a bad reference. -/
def linkedRow : Finding :=
  { storedRow with
    metadataJson := some
      "\x7b\"fingerprint\":\"gitleaks:app.py:private-key:3\",\"parser\":\"gitleaks-json-v1\",\"references\":[\x7b\"type\":\"WEB\",\"url\":\"https://example.com/a\"\x7d,\x7b\"type\":\"WEB\",\"url\":\"git://example.com/a\"\x7d],\"rule_id\":\"private-key\",\"scanner_image\":\"gitleaks:8\",\"scanner_version\":\"8\"\x7d" }

theorem linkedRow_accepted :
    ((normalizeFinding linkedRow none).toOption.map fun normalized =>
      (canonicalReferences normalized.metadata).isOk) = some false := by
  rw [linkedRow]
  repeat rw [String.toList_ofList]
  decide +kernel

end Samples

end FireCrow.Orchestrator
