import FireCrow.Library.JsonStrings
import FireCrow.Orchestrator.StorableAudit

/-!
# Normalizing what was normalized

The persisted rows are normalized again.  A row that stands for one finding is
the finding itself; a row that stands for several carries their count, which
makes its metadata longer and reads its floats once more.
-/

namespace FireCrow.Library

/-! ## Related lists -/

section Related

variable {α β : Type} {related : α → β → Prop}

variable {left : List α}

theorem exists_of_mem_left {right : List β}
    (all : List.Forall₂ related left right) {x : α} (member : x ∈ left) :
    ∃ y ∈ right, related x y := by
  induction all with
  | nil => cases member
  | @cons first other left right head tail ih =>
      rcases List.mem_cons.1 member with rfl | inside
      · exact ⟨other, List.mem_cons_self, head⟩
      · rcases ih inside with ⟨y, found, same⟩
        exact ⟨y, List.mem_cons_of_mem _ found, same⟩

theorem exists_of_mem_right {right : List β}
    (all : List.Forall₂ related left right) {y : β} (member : y ∈ right) :
    ∃ x ∈ left, related x y :=
  exists_of_mem_left (List.Forall₂.flip (R := flip related) all) member

theorem exists_forall₂ (all : ∀ x ∈ left, ∃ y, related x y) :
    ∃ right, List.Forall₂ related left right := by
  induction left with
  | nil => exact ⟨[], .nil⟩
  | cons x left ih =>
      rw [List.forall_mem_cons] at all
      rcases all.1 with ⟨y, head⟩
      rcases ih all.2 with ⟨right, tail⟩
      exact ⟨y :: right, .cons head tail⟩

end Related

theorem pairwise_iff_of_pairwise {α : Type} {items : List α}
    {below holds : α → α → Prop} (asymm : ∀ x y, below x y → ¬ below y x)
    (ordered : items.Pairwise below) :
    items.Pairwise holds ↔
      ∀ x ∈ items, ∀ y ∈ items, below x y → holds x y := by
  constructor
  · intro pairs
    have both : items.Pairwise fun x y =>
        (below x y → holds x y) ∧ (below y x → holds y x) := by
      apply (ordered.and pairs).imp
      rintro x y ⟨less, holds⟩
      exact ⟨fun _ => holds, fun more => absurd more (asymm x y less)⟩
    have symmetric : Std.Symm fun x y =>
        (below x y → holds x y) ∧ (below y x → holds y x) :=
      ⟨fun x y each => ⟨each.2, each.1⟩⟩
    have reflexive : ∀ x ∈ items,
        (below x x → holds x x) ∧ (below x x → holds x x) := by
      intro x _
      have never : ¬ below x x := fun less => asymm x x less less
      exact ⟨fun less => absurd less never, fun less => absurd less never⟩
    intro x inside y member
    exact (List.Pairwise.forall_of_forall reflexive both inside member).1
  · intro all
    exact ordered.imp_of_mem fun inside member less =>
      all _ inside _ member less

end FireCrow.Library

namespace FireCrow.Library.SortedMap

variable {κ α : Type} [LinearOrder κ]

theorem filter_key_eq_singleton {key : α → κ} {items : List α}
    (sorted : items.Pairwise fun left right => key left < key right) {item : α}
    (member : item ∈ items) :
    (items.filter fun other => key other = key item) = [item] := by
  induction items with
  | nil => cases member
  | cons first items ih =>
      rcases List.pairwise_cons.1 sorted with ⟨above, sorted⟩
      rcases List.mem_cons.1 member with rfl | inside
      · rw [List.filter_cons_of_pos (by simp), List.filter_eq_nil_iff.2]
        intro other later same
        exact absurd (of_decide_eq_true same) (above other later).ne'
      · rw [List.filter_cons_of_neg, ih sorted inside]
        rw [decide_eq_true_eq]
        exact (above item inside).ne

/-- Items in strict order are grouped alone. -/
theorem values_groupBy_of_sorted {key : α → κ} {items : List α}
    (sorted : items.Pairwise fun left right => key left < key right) :
    (groupBy key items).values = items.map fun item => [item] := by
  have alone : groupBy key items =
      ⟨items.map fun item => (key item, [item]), List.pairwise_map.2 sorted⟩ := by
    ext1 wanted
    apply Option.ext
    intro group
    rw [← mem_entries_iff, ← mem_entries_iff, mem_groupBy_iff, List.mem_map]
    constructor
    · rintro ⟨nonempty, same⟩
      rcases List.exists_mem_of_ne_nil group nonempty with ⟨item, inside⟩
      rw [same, List.mem_filter, decide_eq_true_eq] at inside
      rcases inside with ⟨inside, rfl⟩
      refine ⟨item, inside, ?_⟩
      rw [same, filter_key_eq_singleton sorted inside]
    · rintro ⟨item, inside, same⟩
      cases same
      refine ⟨List.cons_ne_nil _ _, ?_⟩
      rw [filter_key_eq_singleton sorted inside]
  rw [alone, values, List.map_map]
  rfl

end FireCrow.Library.SortedMap

namespace FireCrow.Orchestrator

open FireCrow.Library FireCrow.Schemas FireCrow.Services.Redaction

section Idempotence

variable [FloatFormat]

/-! ## Marked rows -/

/-- The metadata of a marked row fits when it is read back. -/
def MarkedFits (metadata : JsonMap) (occurrences : Nat) : Prop :=
  (Json.object (storedMetadata metadata occurrences).entries).render.byteLen ≤
    maxCanonicalMetadataBytes

/-- A marked row differs in its metadata. -/
theorem markDuplicates_eq (finding : Finding) (occurrences : Nat) :
    ∃ raw, markDuplicates finding occurrences =
      { finding with metadataJson := raw } := by
  unfold markDuplicates
  split
  · exact ⟨_, rfl⟩
  · exact ⟨finding.metadataJson, rfl⟩

variable {metadata : JsonMap}

/-- What the size check says of metadata that was parsed. -/
theorem checkMetadataSize_eq_ok
    (built : ∀ member ∈ metadata.entries, Json.Buildable 126 member.2) :
    checkMetadataSize metadata = .ok () ↔
      (Json.object metadata.entries).render.byteLen ≤
          maxCanonicalMetadataBytes ∧
        ∀ text ∈ (Json.object metadata.entries).strings,
          containsKnownCredentialAssignment text = false := by
  unfold checkMetadataSize
  dsimp only
  rw [Json.sort_of_sorted _ (Json.buildable_object built).1]
  split
  · rename_i large
    constructor
    · intro passed
      cases passed
    · exact fun fits => absurd fits.1 (not_le.2 large)
  · rename_i small
    split
    · rename_i credential
      constructor
      · intro passed
        cases passed
      · intro fits
        rcases List.any_eq_true.1 credential with ⟨text, inside, found⟩
        rw [fits.2 text inside] at found
        cases found
    · rename_i clean
      refine iff_of_true rfl ⟨not_lt.1 small, ?_⟩
      intro text inside
      rw [Bool.not_eq_true, List.any_eq_false] at clean
      exact Bool.not_eq_true _ ▸ clean text inside

/-- A count brings no string into the metadata. -/
theorem strings_storedMetadata {occurrences : Nat} {text : Text}
    (inside : text ∈
      (Json.object (storedMetadata metadata occurrences).entries).strings) :
    text ∈ (Json.object metadata.entries).strings := by
  rw [Json.mem_mapStrings] at inside ⊢
  rcases inside with ⟨key, value, found, inside⟩
  rw [get?_storedMetadata] at found
  split at found
  · cases found
    cases inside
  · rcases Option.map_eq_some_iff.1 found with ⟨old, known, rfl⟩
    rw [Json.strings_reread] at inside
    exact ⟨key, old, known, inside⟩

variable [TextDigest]

variable {finding : Finding}

theorem checkMetadataSize_storedMetadata
    {normalized : NormalizedFinding} (accepts : Accepts finding none normalized)
    (occurrences : Nat) :
    checkMetadataSize (storedMetadata normalized.metadata occurrences) =
        .ok () ↔
      MarkedFits normalized.metadata occurrences := by
  have fields := findingProvenance_eq_ok.1 accepts.provenance
  have stored := parseMetadata_markDuplicates accepts.metadata fields.2.2.2.2.1
    occurrences
  have size := (checkMetadataSize_eq_ok
    (parseMetadata_eq_ok accepts.metadata).2).1 accepts.metadataSize
  rw [checkMetadataSize_eq_ok (parseMetadata_eq_ok stored).2]
  constructor
  · exact fun fits => fits.1
  · exact fun fits =>
      ⟨fits, fun text inside => size.2 text (strings_storedMetadata inside)⟩

omit [TextDigest] in
theorem findingProvenance_storedMetadata {provenance : CanonicalProvenance}
    (found : findingProvenance finding metadata none = .ok provenance)
    (occurrences : Nat) :
    findingProvenance (markDuplicates finding occurrences)
        (storedMetadata metadata occurrences) none = .ok provenance := by
  rcases markDuplicates_eq finding occurrences with ⟨raw, row⟩
  have text {key : Text} (other : key ≠ duplicateKey) :
      requiredText (storedMetadata metadata occurrences) key =
        requiredText metadata key := by
    rw [requiredText, requiredText, metadataStr_storedMetadata _ _ other]
  have commit : provenanceCommit (storedMetadata metadata occurrences) none =
      provenanceCommit metadata none := by
    rw [provenanceCommit, provenanceCommit,
      metadataStr_storedMetadata _ _ (by decide)]
  rw [findingProvenance_eq_ok] at found ⊢
  rw [text (by decide), text (by decide), text (by decide), commit,
    nativeRuleId_storedMetadata, nativeFingerprint_storedMetadata, row]
  exact found

/-- A marked row is accepted exactly when its longer metadata fits. -/
theorem marked_accepted_iff {normalized : NormalizedFinding}
    (accepts : Accepts finding none normalized) (occurrences : Nat) :
    (∃ record, Accepts (markDuplicates finding occurrences) none record) ↔
      MarkedFits normalized.metadata occurrences := by
  have fields := findingProvenance_eq_ok.1 accepts.provenance
  have stored := parseMetadata_markDuplicates accepts.metadata fields.2.2.2.2.1
    occurrences
  rw [← checkMetadataSize_storedMetadata accepts]
  constructor
  · rintro ⟨record, again⟩
    have size := again.metadataSize
    rw [← Except.ok.inj (stored.symm.trans again.metadata)] at size
    exact size
  · intro size
    rcases markDuplicates_eq finding occurrences with ⟨raw, row⟩
    have provenance := findingProvenance_storedMetadata accepts.provenance
      occurrences
    have location := findingLocation_markDuplicates finding normalized.metadata
      occurrences
    rw [accepts.location] at location
    rw [row] at stored provenance location ⊢
    exact ⟨{ normalized with
        finding := { finding with metadataJson := raw }
        metadata := storedMetadata normalized.metadata occurrences
        canonicalId := canonicalFindingId normalized.provenance.scanner
          normalized.provenance.ruleId normalized.provenance.nativeFingerprint
          normalized.location (storedMetadata normalized.metadata occurrences)
          { finding with metadataJson := raw } },
      { scanner := accepts.scanner
        known := accepts.known
        agent := accepts.agent
        title := accepts.title
        description := accepts.description
        remediation := accepts.remediation
        metadata := stored
        metadataSize := size
        provenance := provenance
        location := location
        evidence := accepts.evidence
        evidenceChecked := accepts.evidenceChecked
        row := rfl
        canonicalId := rfl
        nativeId := accepts.nativeId
        evidenceKind := accepts.evidenceKind
        evidenceTruncated := accepts.evidenceTruncated }⟩

/-! ## Rows that a pass leaves alone -/

/-- A pass over these rows returns the same rows in the same order and refuses
and merges none. -/
def Unchanged (rows : List Finding) : Prop :=
  let again := normalizeFindingsForPersist rows
  again.valid = rows ∧ again.invalid = [] ∧ again.duplicateGroups = 0

theorem accepted_of_forall {rows : List Finding}
    {records : List NormalizedFinding}
    (accepts : List.Forall₂ (fun row record => Accepts row none record) rows
      records) :
    accepted rows none = records := by
  induction accepts with
  | nil => rfl
  | cons head _ ih =>
      rw [accepted, List.filterMap_cons,
        (normalizeFinding_eq_ok_iff _ _ _).2 head]
      exact congrArg (_ :: ·) ih

/-- A pass leaves exactly the accepted rows alone that stand in the order of
their identities. -/
theorem unchanged_iff (rows : List Finding) :
    Unchanged rows ↔ ∃ records : List NormalizedFinding,
      List.Forall₂ (fun row record => Accepts row none record) rows records ∧
        records.Pairwise fun left right =>
          left.canonicalId < right.canonicalId := by
  constructor
  · rintro ⟨valid, _, merges⟩
    rw [normalizeFindingsForPersist_valid] at valid
    rw [normalizeFindingsForPersist_duplicateGroups, List.length_eq_zero_iff,
      List.filter_eq_nil_iff] at merges
    refine ⟨(normalizeFindings rows none).valid, ?_, ?_⟩
    · have each : ∀ kept ∈ (normalizeFindings rows none).valid,
          Accepts kept.finding none kept := by
        intro kept member
        rcases kept_from_accepted member with
          ⟨group, inside, normalized, _, rfl, original, _, accepts⟩
        have single : ¬ 1 < group.length := by
          have few := merges group inside
          rwa [decide_eq_true_eq] at few
        rw [NormalizedFinding.retain, if_neg single, accepts.row]
        exact accepts
      have same : List.Forall₂
          (fun left right => Accepts left.finding none right)
          (normalizeFindings rows none).valid
          (normalizeFindings rows none).valid := List.forall₂_same.2 each
      have mapped : List.Forall₂ (fun row record => Accepts row none record)
          ((normalizeFindings rows none).valid.map fun kept => kept.finding)
          (normalizeFindings rows none).valid :=
        List.forall₂_map_left_iff.2 same
      rwa [valid] at mapped
    · rw [normalizeFindings_valid]
      exact representatives_sorted rows none
  · rintro ⟨records, accepts, sorted⟩
    have all := accepted_of_forall accepts
    have refused : rejected rows none = [] := by
      have total := length_accepted_add_rejected rows none
      rw [all, accepts.length_eq] at total
      rw [← List.length_eq_zero_iff]
      omega
    have values : (groups rows none).values = records.map fun record =>
        [record] := by
      rw [groups, all]
      exact SortedMap.values_groupBy_of_sorted sorted
    have single (record : NormalizedFinding) :
        representative [record] = some record := rfl
    have rowsOf : records.map (fun record => record.finding) = rows := by
      rw [← List.forall₂_eq_eq_eq, List.forall₂_map_left_iff]
      exact accepts.flip.imp fun record row accepts => accepts.row
    refine ⟨?_, ?_, ?_⟩
    · rw [normalizeFindingsForPersist_valid, normalizeFindings_valid, values,
        List.filterMap_map, Function.comp_def]
      simp only [single, List.filterMap_some, rowsOf]
    · rw [normalizeFindingsForPersist_invalid, refused]
      rfl
    · rw [normalizeFindingsForPersist_duplicateGroups, values,
        List.length_eq_zero_iff, List.filter_eq_nil_iff]
      intro group member
      rcases List.mem_map.1 member with ⟨record, _, rfl⟩
      exact of_decide_eq_false rfl

/-! ## Identities of the kept rows -/

/-- The identity of a row is below that of another. -/
def IdentityBelow (row other : Finding) : Prop :=
  ∀ id id', canonicalIdentity row = .ok id →
    canonicalIdentity other = .ok id' → id < id'

/-- The row kept for a finding that stands for so many. -/
def markedRow (occurrences : Nat) (finding : Finding) : Finding :=
  if 1 < occurrences then markDuplicates finding occurrences else finding

omit [TextDigest] in
theorem finding_retain (occurrences : Nat) (normalized : NormalizedFinding) :
    (normalized.retain occurrences).finding =
      markedRow occurrences normalized.finding := by
  unfold NormalizedFinding.retain markedRow
  split <;> rfl

theorem Accepts.identityBelow_iff {row other : Finding}
    {record record' : NormalizedFinding} (accepts : Accepts row none record)
    (accepts' : Accepts other none record') :
    IdentityBelow row other ↔ record.canonicalId < record'.canonicalId := by
  rw [IdentityBelow, accepts.canonicalIdentity_eq, accepts'.canonicalIdentity_eq]
  simp

/-- Rows stand in the order of their identities when their records do. -/
theorem pairwise_records_iff {rows : List Finding}
    {records : List NormalizedFinding}
    (accepts : List.Forall₂ (fun row record => Accepts row none record) rows
      records) :
    (records.Pairwise fun left right => left.canonicalId < right.canonicalId) ↔
      rows.Pairwise IdentityBelow := by
  induction accepts with
  | nil => exact ⟨fun _ => .nil, fun _ => .nil⟩
  | @cons row record rows records head tail ih =>
      rw [List.pairwise_cons, List.pairwise_cons, ih]
      apply and_congr_left
      intro _
      constructor
      · intro above other inside
        rcases exists_of_mem_left tail inside with ⟨record', member, accepts⟩
        exact (head.identityBelow_iff accepts).2 (above record' member)
      · intro above record' inside
        rcases exists_of_mem_right tail inside with ⟨other, member, accepts⟩
        exact (head.identityBelow_iff accepts).1 (above other member)

/-! ## The second pass -/

/-- In every group of accepted findings, the metadata of the kept row fits with
the count. -/
def CountsFit (findings : List Finding) : Prop :=
  ∀ finding occurrences metadata, Retained findings finding occurrences →
    1 < occurrences → parseMetadata finding = .ok metadata →
    MarkedFits metadata occurrences

/-- The identities of the kept rows stand in the order that those of their
findings have. -/
def OrderSurvives (findings : List Finding) : Prop :=
  ∀ first second occurrences occurrences',
    Retained findings first occurrences →
    Retained findings second occurrences' → IdentityBelow first second →
    IdentityBelow (markedRow occurrences first) (markedRow occurrences' second)

/-- Each kept row is accepted again exactly when its count fits. -/
theorem rows_accepted_iff (findings : List Finding) :
    (∀ row ∈ (normalizeFindingsForPersist findings).valid,
        ∃ record, normalizeFinding row none = .ok record) ↔
      CountsFit findings := by
  simp only [normalizeFindingsForPersist_valid, List.forall_mem_map,
    normalizeFinding_eq_ok_iff]
  constructor
  · intro again finding occurrences metadata retained several parsed
    rcases retained.exists_kept with ⟨normalized, accepts, _, kept⟩
    have marked := again _ kept
    rw [finding_retain, markedRow, if_pos several, accepts.row,
      marked_accepted_iff accepts] at marked
    rwa [Except.ok.inj (parsed.symm.trans accepts.metadata)]
  · intro fit kept member
    rcases exists_retained member with
      ⟨finding, _, normalized, occurrences, accepts, retained, rfl⟩
    rw [finding_retain, markedRow, accepts.row]
    split
    · rename_i several
      exact (marked_accepted_iff accepts occurrences).2
        (fit finding occurrences _ retained several accepts.metadata)
    · exact ⟨normalized, accepts⟩

theorem rows_ordered_iff (findings : List Finding) :
    (normalizeFindingsForPersist findings).valid.Pairwise IdentityBelow ↔
      OrderSurvives findings := by
  have ordered := representatives_sorted findings none
  rw [← normalizeFindings_valid] at ordered
  rw [normalizeFindingsForPersist_valid, List.pairwise_map,
    pairwise_iff_of_pairwise (fun _ _ less => not_lt_of_gt less) ordered]
  constructor
  · intro survives first second occurrences occurrences' retained retained' below
    rcases retained.exists_kept with ⟨normalized, accepts, _, kept⟩
    rcases retained'.exists_kept with ⟨normalized', accepts', _, kept'⟩
    have less : (normalized.retain occurrences).canonicalId <
        (normalized'.retain occurrences').canonicalId := by
      rw [canonicalId_retain, canonicalId_retain]
      exact (accepts.identityBelow_iff accepts').1 below
    have row := survives _ kept _ kept' less
    rwa [finding_retain, finding_retain, accepts.row, accepts'.row] at row
  · intro survives kept member kept' member' below
    rcases exists_retained member with
      ⟨finding, _, normalized, occurrences, accepts, retained, rfl⟩
    rcases exists_retained member' with
      ⟨finding', _, normalized', occurrences', accepts', retained', rfl⟩
    rw [canonicalId_retain, canonicalId_retain] at below
    rw [finding_retain, finding_retain, accepts.row, accepts'.row]
    exact survives _ _ _ _ retained retained'
      ((accepts.identityBelow_iff accepts').2 below)

/-- For every list of findings: a second pass changes nothing exactly when the
counts fit and the order of the identities survives, and it accepts every row
exactly when the counts fit. -/
theorem second_pass_unchanged_iff (findings : List Finding) :
    (Unchanged (normalizeFindingsForPersist findings).valid ↔
        CountsFit findings ∧ OrderSurvives findings) ∧
      ((∀ row ∈ (normalizeFindingsForPersist findings).valid,
          ∃ record, normalizeFinding row none = .ok record) ↔
        CountsFit findings) := by
  refine ⟨?_, rows_accepted_iff findings⟩
  rw [unchanged_iff, ← rows_accepted_iff, ← rows_ordered_iff]
  simp only [normalizeFinding_eq_ok_iff]
  constructor
  · rintro ⟨records, accepts, sorted⟩
    refine ⟨?_, (pairwise_records_iff accepts).1 sorted⟩
    intro row inside
    rcases exists_of_mem_left accepts inside with ⟨record, _, again⟩
    exact ⟨record, again⟩
  · rintro ⟨again, sorted⟩
    rcases exists_forall₂ again with ⟨records, accepts⟩
    exact ⟨records, accepts, (pairwise_records_iff accepts).2 sorted⟩

end Idempotence

/-! ## A row whose count does not fit -/

section Samples

attribute [local instance] FloatFormat.integersOnly TextDigest.sha256

/-- A member that no rule reads. -/
def padding (number : Nat) : Json :=
  .array (.null :: List.replicate number .null)

def paddedMembers (pad : Json) : List (Text × Json) :=
  [("fingerprint", .string "gitleaks:app.py:private-key:3"), ("pad", pad),
    ("parser", .string "gitleaks-json-v1"), ("rule_id", .string "private-key"),
    ("scanner_image", .string "gitleaks:8"), ("scanner_version", .string "8")]

def paddedMetadata (number : Nat) : JsonMap :=
  SortedMap.ofList (paddedMembers (padding number))

def paddedRow (id : Text) (number : Nat) : Finding :=
  { storedRow with
    id := id
    metadataJson := some
      (Json.object (paddedMetadata number).entries).render }

theorem stable_paddedMetadata (number : Nat) :
    Json.StableMap 126 (paddedMetadata number) := by
  have text (text : Text) : Json.Stable 126 (.string text) :=
    (show (Json.string text).Scalar from trivial).stable 126
  have null : Json.Stable 125 .null :=
    (show Json.null.Scalar from trivial).stable 125
  have pad : Json.Stable 126 (padding number) := by
    apply Json.stable_array
    intro item member
    rcases List.mem_cons.1 member with rfl | inside
    · exact null
    · rw [List.eq_of_mem_replicate inside]
      exact null
  apply Json.stableMap_ofList
  simp only [paddedMembers, List.forall_mem_cons]
  exact ⟨text _, pad, text _, text _, text _, text _, List.forall_mem_nil _⟩

theorem entries_padded (number : Nat) :
    (paddedMetadata number).entries = paddedMembers (padding number) := by
  rfl

theorem entries_marked (number : Nat) :
    ((paddedMetadata number).insert duplicateKey
        (.int (JsonInt.ofUnsigned 2))).entries =
      (duplicateKey, .int (JsonInt.ofUnsigned 2)) ::
        paddedMembers (padding number) := by
  rfl

theorem size_paddedMembers (number : Nat) :
    ((paddedMembers (padding number)).map Json.memberSize).sum =
      5 * number + 162 := by
  have base : ((paddedMembers .null).map Json.memberSize).sum = 160 := by
    decide
  have pad : Json.memberSize (("pad" : Text), padding number) =
      Json.memberSize (("pad" : Text), .null) + (5 * number + 2) := by
    have null : (Json.render .null).byteLen = 4 := rfl
    show (Json.renderString ("pad" : Text)).byteLen +
        (padding number).render.byteLen + 2 =
      (Json.renderString ("pad" : Text)).byteLen + (Json.render .null).byteLen +
        2 + (5 * number + 2)
    rw [padding, Json.byteLen_render_nulls, null]
    omega
  simp only [paddedMembers, List.map_cons, List.map_nil, List.sum_cons,
    List.sum_nil] at base ⊢
  rw [pad]
  omega

theorem parse_paddedRow (id : Text) (number : Nat) :
    parseMetadata (paddedRow id number) = .ok (paddedMetadata number) := by
  have stable := (stable_paddedMetadata number).object
  rw [parseMetadata, paddedRow, Option.getD_some, stable.parse_render]
  exact congrArg Except.ok (SortedMap.ofList_entries _)

variable {number : Nat}

theorem size_paddedMetadata (few : number ≤ 1605) :
    checkMetadataSize (paddedMetadata number) = .ok () := by
  have built : ∀ member ∈ (paddedMetadata number).entries,
      Json.Buildable 126 member.2 :=
    fun member inside => (stable_paddedMetadata number member inside).built
  rw [checkMetadataSize_eq_ok built, entries_padded]
  constructor
  · have present : paddedMembers (padding number) ≠ [] := List.cons_ne_nil _ _
    rw [Json.byteLen_render_object present, size_paddedMembers,
      maxCanonicalMetadataBytes]
    omega
  · have strings : (Json.object (paddedMembers (padding number))).strings =
        (Json.object (paddedMembers .null)).strings := by
      simp only [paddedMembers, padding, Json.strings, Json.memberStrings,
        Json.itemStrings, Json.itemStrings_nulls, List.append_nil,
        List.nil_append]
    rw [strings]
    decide

theorem marked_paddedMetadata : ¬ MarkedFits (paddedMetadata 1605) 2 := by
  have marked : Json.StableMap 126 ((paddedMetadata 1605).insert duplicateKey
      (.int (JsonInt.ofUnsigned 2))) :=
    (stable_paddedMetadata 1605).insert _
      ((show (Json.int (JsonInt.ofUnsigned 2)).Scalar from trivial).stable 126)
  have same : Json.object (storedMetadata (paddedMetadata 1605) 2).entries =
      Json.object ((paddedMetadata 1605).insert duplicateKey
        (.int (JsonInt.ofUnsigned 2))).entries := by
    have again := marked.object.reread
    rw [Json.reread, rereadMembers_eq] at again
    exact again
  have count : Json.memberSize (duplicateKey, .int (JsonInt.ofUnsigned 2)) =
      26 := by
    decide
  rw [MarkedFits, same, entries_marked,
    Json.byteLen_render_object (List.cons_ne_nil _ _), List.map_cons,
    List.sum_cons, size_paddedMembers, count, maxCanonicalMetadataBytes]
  decide

def paddedLocation : CanonicalLocation where
  file := "app.py"
  line := 3
  startColumn := none
  endLine := none
  endColumn := none

/-- The identity of a padded row, whatever its storage identifier. -/
def paddedIdentity (number : Nat) : Text :=
  canonicalFindingId "gitleaks" "private-key" "gitleaks:app.py:private-key:3"
    paddedLocation (paddedMetadata number) storedRow

/-- What a padded row is accepted as. -/
def paddedRecord (id : Text) (number : Nat) : NormalizedFinding where
  finding := paddedRow id number
  metadata := paddedMetadata number
  canonicalId := paddedIdentity number
  nativeId := ("gitleaks:" : Text) ++ ("gitleaks:app.py:private-key:3" : Text)
  provenance :=
    { scanner := "gitleaks"
      scannerVersion := "8"
      parser := "gitleaks-json-v1"
      scannerImage := "gitleaks:8"
      ruleId := "private-key"
      nativeFingerprint := "gitleaks:app.py:private-key:3"
      snapshotCommit := none }
  location := paddedLocation
  evidenceKind := .secret
  evidenceText := "key = [REDACTED]"
  evidenceTruncated := false

theorem paddedRow_accepts (id : Text) (few : number ≤ 1605) :
    Accepts (paddedRow id number) none (paddedRecord id number) where
  scanner := rfl
  known := ⟨"secret", rfl, List.mem_cons_self⟩
  agent := rfl
  title := (by decide : checkText "title" storedRow.title = .ok ())
  description :=
    (by decide : checkText "description" storedRow.description = .ok ())
  remediation := rfl
  metadata := parse_paddedRow id number
  metadataSize := size_paddedMetadata few
  provenance := rfl
  location := rfl
  evidence :=
    (by decide : evidenceText storedRow = .ok "key = [REDACTED]")
  evidenceChecked :=
    (by decide :
      checkEvidence (evidenceKindOf "gitleaks") "key = [REDACTED]" = .ok ())
  row := rfl
  canonicalId := rfl
  nativeId := rfl
  evidenceKind :=
    (by decide : EvidenceKind.secret = evidenceKindOf "gitleaks")
  evidenceTruncated :=
    (by decide :
      false = Text.contains "key = [REDACTED]" "... [truncated]")

/-- Two rows of one detection. -/
def paddedRows (number : Nat) : List Finding :=
  [paddedRow "row-1" number, paddedRow "row-2" number]

theorem paddedRows_retained (few : number ≤ 1605) :
    Retained (paddedRows number) (paddedRow "row-1" number) 2 := by
  have records : accepted (paddedRows number) none =
      [paddedRecord "row-1" number, paddedRecord "row-2" number] :=
    accepted_of_forall
      (.cons (paddedRow_accepts _ few) (.cons (paddedRow_accepts _ few) .nil))
  have group : (paddedIdentity number,
      [paddedRecord "row-1" number, paddedRecord "row-2" number]) ∈
        (groups (paddedRows number) none).entries := by
    rw [mem_groups_iff, records]
    refine ⟨List.cons_ne_nil _ _, ?_⟩
    rw [List.filter_eq_self.2]
    intro record member
    rcases List.mem_pair.1 member with rfl | rfl
    · exact decide_eq_true rfl
    · exact decide_eq_true rfl
  have ordered : [paddedRecord "row-1" number, paddedRecord "row-2" number].Pairwise
      fun left right => left.finding.id ≤ right.finding.id := by
    have less : ("row-1" : Text) ≤ ("row-2" : Text) := by decide
    exact .cons (List.forall_mem_singleton.2 less) (List.pairwise_singleton _ _)
  refine ⟨_, List.mem_map_of_mem group, rfl, paddedRecord "row-1" number, ?_, rfl⟩
  rw [first?, sortBy_eq_self ordered]
  rfl

/-- Rows whose metadata leaves no room for their count. -/
def crampedRows : List Finding := paddedRows 1605

/-- Two accepted findings that a second pass refuses. -/
theorem crampedRows_second_pass :
    (∀ row ∈ crampedRows, ∃ record, normalizeFinding row none = .ok record) ∧
      ¬ ∀ findings : List Finding,
        Unchanged (normalizeFindingsForPersist findings).valid := by
  constructor
  · intro row member
    rcases List.mem_pair.1 member with rfl | rfl
    · exact ⟨_, (normalizeFinding_eq_ok_iff _ _ _).2
        (paddedRow_accepts "row-1" le_rfl)⟩
    · exact ⟨_, (normalizeFinding_eq_ok_iff _ _ _).2
        (paddedRow_accepts "row-2" le_rfl)⟩
  · intro claim
    rcases (unchanged_iff _).1 (claim crampedRows) with ⟨records, accepts, _⟩
    have fit : CountsFit crampedRows := by
      rw [← rows_accepted_iff]
      intro row inside
      rcases exists_of_mem_left accepts inside with ⟨record, _, again⟩
      exact ⟨record, (normalizeFinding_eq_ok_iff _ _ _).2 again⟩
    exact marked_paddedMetadata
      (fit _ 2 _ (paddedRows_retained le_rfl) one_lt_two (parse_paddedRow _ _))

end Samples

end FireCrow.Orchestrator
