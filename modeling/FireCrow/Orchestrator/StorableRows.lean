import FireCrow.Orchestrator.AuditStorage
import FireCrow.Orchestrator.RefusalReasons

/-!
# The texts of kept and of refused findings

A finding is refused with one of the fixed texts.  The row of an accepted one
can be stored when it fits, and then the document shows clean texts of it:
what it derives from the metadata is clean when the metadata is.
-/

namespace FireCrow.Orchestrator

open FireCrow.Library FireCrow.Library.Table FireCrow.Schemas FireCrow.Agents

/-! ## Lists of texts -/

theorem cleanTexts_nil : CleanTexts [] := by
  simp [CleanTexts]

variable {text : Text}

theorem cleanTexts_cons {texts : List Text} :
    CleanTexts (text :: texts) ↔ '\x00' ∉ text ∧ CleanTexts texts :=
  List.forall_mem_cons

theorem cleanTexts_append {left right : List Text} :
    CleanTexts (left ++ right) ↔ CleanTexts left ∧ CleanTexts right :=
  List.forall_mem_append

theorem cleanTexts_singleton : CleanTexts [text] ↔ '\x00' ∉ text := by
  simp [CleanTexts]

theorem cleanTexts_flatMap {Item : Type*} {view : Item → List Text}
    {items : List Item} :
    CleanTexts (items.flatMap view) ↔
      ∀ item ∈ items, CleanTexts (view item) := by
  constructor
  · intro clean item member text inside
    exact clean text (List.mem_flatMap.2 ⟨item, member, inside⟩)
  · intro clean text inside
    rcases List.mem_flatMap.1 inside with ⟨item, member, found⟩
    exact clean item member text found

theorem cleanTexts_toList {text : Option Text} :
    CleanTexts text.toList ↔ ∀ value ∈ text, '\x00' ∉ value := by
  cases text <;> simp [CleanTexts]

theorem clean_trim (clean : '\x00' ∉ text) : '\x00' ∉ text.trim :=
  fun inside => clean ((Text.trim_infix text).subset inside)

/-- U+0000 is no whitespace. -/
theorem clean_of_trim (clean : '\x00' ∉ text.trim) : '\x00' ∉ text := by
  intro inside
  apply clean
  have word : ['\x00'] <:+: text := (List.singleton_infix_iff _ _).2 inside
  have kept := Text.infix_trim (by decide) word
  exact (List.singleton_infix_iff _ _).1 kept

theorem clean_append {left right : Text} :
    '\x00' ∉ left ++ right ↔ '\x00' ∉ left ∧ '\x00' ∉ right := by
  rw [List.mem_append, not_or]

theorem clean_ofNat (number : Nat) : '\x00' ∉ Text.ofNat number := by
  intro inside
  have digit := List.all_eq_true.1 (Text.ofNat_digits number) _ inside
  exact absurd digit (by decide)

/-! ## Reasons of refusals -/

/-- The computation fails with clean reasons only. -/
def CleanErrors {Value : Type*} (computation : Except Text Value) : Prop :=
  ∀ reason, computation = .error reason → '\x00' ∉ reason

theorem cleanErrors_normalizeFinding [FloatFormat] [TextDigest]
    (finding : Finding) (snapshotCommit : Option Text) :
    CleanErrors (normalizeFinding finding snapshotCommit) :=
  fun reason failed =>
    (plainErrors_normalizeFinding finding snapshotCommit reason failed).not_mem
      rfl

/-! ## Rows -/

section Rows

variable [FloatFormat] [TextDigest]

/-- The metadata is clean, its merge count apart. -/
def CleanFacts (metadata : JsonMap) : Prop :=
  ∀ member ∈ metadata.entries, member.1 ≠ duplicateKey →
    '\x00' ∉ member.1 ∧ member.2.Clean

omit [TextDigest] in
/-- A merge count replaces the member of its key. -/
theorem cleanMembers_marked_iff (metadata : JsonMap) (occurrences : Nat) :
    Json.CleanMembers (metadata.insert duplicateKey
        (.int (JsonInt.ofUnsigned occurrences))).entries ↔
      CleanFacts metadata := by
  constructor
  · rintro clean ⟨name, found⟩ inside other
    apply clean (name, found)
    rw [SortedMap.mem_entries_iff, SortedMap.get?_insert, if_neg other]
    exact (SortedMap.mem_entries_iff _ _ _).1 inside
  · rintro clean ⟨name, found⟩ inside
    rw [SortedMap.mem_entries_iff, SortedMap.get?_insert] at inside
    split at inside
    · rename_i same
      cases inside
      subst same
      have key : '\x00' ∉ duplicateKey := by decide
      exact ⟨key, Json.clean_int _⟩
    · rename_i other
      exact clean (name, found)
        ((SortedMap.mem_entries_iff _ _ _).2 inside) other

variable {snapshotCommit : Option Text} {normalized : NormalizedFinding}
    {finding : Finding}

section

variable (accepts : Accepts finding snapshotCommit normalized)
include accepts

/-- The text of the metadata is stored when what it parses to is clean. -/
theorem stores_metadata_iff (serialized : Serialized finding) :
    (∀ raw ∈ finding.metadataJson, Column.jsonb.stores raw = true) ↔
      Json.CleanMembers normalized.metadata.entries := by
  have fields := findingProvenance_eq_ok.1 accepts.provenance
  rcases metadataJson_isSome accepts.metadata fields.2.2.2.2.1 with
    ⟨raw, text, parsed⟩
  rcases serialized raw _ text parsed with ⟨written, built, rfl⟩
  have reread := parse_render_map built
  rw [parsed, Option.some.injEq] at reread
  rw [← Json.clean_object, reread]
  have same : (Json.object (written.mapValues Json.reread).entries) =
      (Json.object written.entries).reread := by
    rw [Json.reread, rereadMembers_eq]
    rfl
  rw [same, Json.clean_reread, ← Json.escapesNul_render_eq_false_iff]
  simp [text, Column.stores]

theorem stores_marked_iff (occurrences : Nat) :
    (∀ raw ∈ (markDuplicates finding occurrences).metadataJson,
        Column.jsonb.stores raw = true) ↔
      CleanFacts normalized.metadata := by
  have fields := findingProvenance_eq_ok.1 accepts.provenance
  rcases metadataJson_isSome accepts.metadata fields.2.2.2.2.1 with
    ⟨raw, text, parsed⟩
  rw [← cleanMembers_marked_iff _ occurrences, ← Json.clean_object,
    ← Json.escapesNul_render_eq_false_iff, markDuplicates, text,
    Option.bind_some, parsed]
  simp only [SortedMap.ofList_entries, Option.mem_def, Option.some.injEq,
    forall_eq', Column.stores, Bool.not_eq_true']
  rfl

theorem stores_retained_iff
    (serialized : Serialized finding) (occurrences : Nat) :
    (∀ raw ∈ (normalized.retain occurrences).finding.metadataJson,
        Column.jsonb.stores raw = true) ↔
      ∀ metadata, parseMetadata finding = .ok metadata →
        ∀ member ∈ metadata.entries,
          (1 < occurrences → member.1 ≠ duplicateKey) →
            '\x00' ∉ member.1 ∧ member.2.Clean := by
  have parsed : ∀ condition : JsonMap → Prop,
      (∀ metadata, parseMetadata finding = .ok metadata →
          condition metadata) ↔ condition normalized.metadata := by
    intro condition
    simp [accepts.metadata]
  rw [parsed fun metadata => ∀ member ∈ metadata.entries,
    (1 < occurrences → member.1 ≠ duplicateKey) →
      '\x00' ∉ member.1 ∧ member.2.Clean]
  unfold NormalizedFinding.retain
  split
  · rename_i merged
    rw [accepts.row, stores_marked_iff accepts]
    simp only [merged, true_implies]
    rfl
  · rename_i single
    rw [accepts.row, stores_metadata_iff accepts serialized]
    simp only [single, false_implies, true_implies]
    rfl

end

omit [FloatFormat] [TextDigest] in
theorem fits_severity (severity : Severity) : Fits 64 severity.asStr := by
  apply fits_of_length_le
  · cases severity <;> decide
  · cases severity <;> decide

omit [FloatFormat] [TextDigest] in
theorem fits_known {scanner mode : Text}
    (known : (scanner, mode) ∈ knownScanners) :
    Fits 128 scanner ∧ Fits 128 mode := by
  simp only [knownScanners, List.mem_cons, Prod.mk.injEq, List.not_mem_nil,
    or_false] at known
  rcases known with ⟨rfl, rfl⟩ | ⟨rfl, rfl⟩ | ⟨rfl, rfl⟩
  · exact ⟨fits_of_length_le (by decide) (by decide),
      fits_of_length_le (by decide) (by decide)⟩
  · exact ⟨fits_of_length_le (by decide) (by decide),
      fits_of_length_le (by decide) (by decide)⟩
  · exact ⟨fits_of_length_le (by decide) (by decide),
      fits_of_length_le (by decide) (by decide)⟩

omit [FloatFormat] [TextDigest] in
/-- An accepted path has no U+0000, however it is surrounded. -/
theorem clean_of_validateRepoPath {path validated : Text}
    (valid : validateRepoPath path = .ok validated) :
    '\x00' ∉ path ∧ '\x00' ∉ validated := by
  unfold validateRepoPath at valid
  dsimp only at valid
  split at valid
  · cases valid
  split at valid
  · cases valid
  split at valid
  · cases valid
  rename_i relative
  simp only [not_or] at relative
  split at valid
  · cases valid
  split at valid
  · cases valid
  · cases valid
    exact ⟨clean_of_trim relative.2.2, relative.2.2⟩

variable {metadata : JsonMap}

omit [TextDigest] in
theorem clean_findingLocation {location : CanonicalLocation}
    (located : findingLocation finding metadata = .ok location) :
    (∀ file ∈ finding.filePath, '\x00' ∉ file) ∧ '\x00' ∉ location.file := by
  simp only [findingLocation, Result.bind_eq_ok, Result.pure_eq_ok] at located
  rcases located with ⟨file, found, _, _, _, _, _, _, _, _, _, _, _, _, _, _,
    rfl⟩
  unfold findingFile at found
  split at found
  · rename_i path text
    have clean := clean_of_validateRepoPath (Result.mapError_eq_ok _ _ _ |>.1 found)
    rw [text]
    constructor
    · rintro other ⟨⟩
      exact clean.1
    · exact clean.2
  · cases found

omit [TextDigest] in
theorem retain_eq (occurrences : Nat) (normalized : NormalizedFinding) :
    ∃ raw, normalized.retain occurrences =
      { normalized with
        finding := { normalized.finding with metadataJson := raw } } := by
  unfold NormalizedFinding.retain
  split
  · unfold markDuplicates
    split
    · exact ⟨_, rfl⟩
    · exact ⟨normalized.finding.metadataJson, rfl⟩
  · exact ⟨normalized.finding.metadataJson, rfl⟩

theorem storableRow_iff (accepts : Accepts finding snapshotCommit normalized)
    (serialized : Serialized finding) (occurrences : Nat) :
    StorableRow (normalized.retain occurrences).finding ↔
      Fitting occurrences finding := by
  rcases accepts.known with ⟨mode, modeName, known⟩
  have names := fits_known known
  have file := (clean_findingLocation accepts.location).1
  have columns : StorableRow (normalized.retain occurrences).finding ↔
      Fits 128 finding.id ∧ '\x00' ∉ finding.title ∧
        '\x00' ∉ finding.description ∧
        (∀ text ∈ finding.evidence, '\x00' ∉ text) ∧
        (∀ text ∈ finding.remediation, '\x00' ∉ text) ∧
        (∀ text ∈ finding.cweId, Fits 64 text) ∧
        (∀ text ∈ finding.owaspCategory, Fits 128 text) ∧
        (∀ text ∈ finding.confidence, Fits 64 text) ∧
        ∀ raw ∈ (normalized.retain occurrences).finding.metadataJson,
          Column.jsonb.stores raw = true := by
    rcases retain_eq occurrences normalized with ⟨raw, kept⟩
    rw [kept, accepts.row]
    simp only [StorableRow, findingColumns, List.forall_mem_cons,
      List.not_mem_nil, false_implies, implies_true, and_true,
      Option.mem_def, Option.some.injEq, forall_eq', stores_varchar_iff,
      stores_text_iff, accepts.agent, accepts.scanner, modeName, names.1,
      names.2, fits_severity, true_and]
    simp only [Option.mem_def] at file
    simp only [iff_true_intro file, true_and]
  rw [columns, stores_retained_iff accepts serialized]
  constructor
  · rintro ⟨id, title, description, evidence, remediation, cweId,
      owaspCategory, confidence, metadata⟩
    exact {
      id := id
      title := title
      description := description
      evidence := evidence
      remediation := remediation
      cweId := cweId
      owaspCategory := owaspCategory
      confidence := confidence
      metadata := metadata }
  · intro fitting
    exact ⟨fitting.id, fitting.title, fitting.description, fitting.evidence,
      fitting.remediation, fitting.cweId, fitting.owaspCategory,
      fitting.confidence, fitting.metadata⟩

/-! ## Findings of the document -/

omit [TextDigest] in
theorem clean_metadataStr {key text : Text}
    (clean : CleanFacts metadata) (other : key ≠ duplicateKey)
    (found : metadataStr metadata key = some text) : '\x00' ∉ text := by
  rcases Option.bind_eq_some_iff.1 found with ⟨value, member, string⟩
  exact Json.clean_of_asStr
    (clean (key, value) ((SortedMap.mem_entries_iff _ _ _).2 member)
      other).2 string

omit [TextDigest] in
theorem clean_requiredText {key text : Text}
    (clean : CleanFacts metadata) (other : key ≠ duplicateKey)
    (found : requiredText metadata key = .ok text) : '\x00' ∉ text := by
  unfold requiredText at found
  split at found
  · rename_i trimmed string
    split at found
    · cases found
    · cases found
      rcases Option.map_eq_some_iff.1 string with ⟨raw, member, rfl⟩
      exact clean_trim (clean_metadataStr clean other member)
  · cases found

omit [TextDigest] in
theorem clean_nativeRuleId {rule : Text} (clean : CleanFacts metadata)
    (found : nativeRuleId metadata = .ok rule) : '\x00' ∉ rule := by
  unfold nativeRuleId at found
  dsimp only at found
  split at found
  · rename_i text chosen
    cases found
    rcases List.mem_filterMap.1 (List.mem_of_find?_eq_some chosen) with
      ⟨key, named, member⟩
    apply clean_metadataStr clean _ member
    rintro rfl
    exact absurd named (by decide)
  · cases found

omit [TextDigest] in
theorem clean_nativeFingerprint {fingerprint : Text}
    (clean : CleanFacts metadata)
    (found : nativeFingerprint metadata = .ok fingerprint) :
    '\x00' ∉ fingerprint := by
  unfold nativeFingerprint at found
  split at found
  · rename_i text member
    split at found
    · cases found
    · cases found
      exact clean_metadataStr clean (by decide) member
  · cases found

omit [FloatFormat] [TextDigest] in
theorem clean_of_validCommit {commit : Option Text}
    (valid : ValidCommit commit) : ∀ text ∈ commit, '\x00' ∉ text := by
  rintro text rfl
  unfold ValidCommit validateSnapshotCommit at valid
  dsimp only at valid
  split at valid
  · cases valid
  split at valid
  · rename_i digest
    intro inside
    have hexdigit := List.all_eq_true.1 digest.2 _ inside
    exact absurd hexdigit (by decide)
  · cases valid

omit [TextDigest] in
theorem clean_provenance {provenance : CanonicalProvenance}
    (clean : CleanFacts metadata) (scanner : '\x00' ∉ provenance.scanner)
    (found : findingProvenance finding metadata snapshotCommit =
      .ok provenance) :
    CleanTexts (provenanceTexts provenance) := by
  rcases findingProvenance_eq_ok.1 found with
    ⟨_, version, parser, image, rule, fingerprint, commit⟩
  have recorded : ValidCommit provenance.snapshotCommit := by
    rcases (Result.mapError_eq_ok _ _ _).1 commit with valid
    exact validateSnapshotCommit_valid valid
  simp only [provenanceTexts, cleanTexts_append, cleanTexts_cons,
    cleanTexts_toList]
  exact ⟨⟨scanner, clean_requiredText clean (by decide) version,
    clean_requiredText clean (by decide) parser,
    clean_requiredText clean (by decide) image, clean_nativeRuleId clean rule,
    clean_nativeFingerprint clean fingerprint, cleanTexts_nil⟩,
    clean_of_validCommit recorded⟩

omit [TextDigest] in
theorem clean_referenceText {reference : Json} (clean : reference.Clean)
    (key : Text) : '\x00' ∉ referenceText reference key := by
  unfold referenceText
  cases found : (reference.get? key).bind Json.asStr with
  | none => exact List.not_mem_nil
  | some text =>
      rcases Option.bind_eq_some_iff.1 found with ⟨value, member, string⟩
      show '\x00' ∉ text.trim
      apply clean_trim
      cases reference with
      | object members =>
          have inside : (key, value) ∈ members :=
            Json.mem_of_lookupEntries member
          exact Json.clean_of_asStr ((Json.clean_object.1 clean) _ inside).2
            string
      | null | bool | int | float | string | array => cases member

omit [FloatFormat] [TextDigest] in
theorem exists_of_mem_mapM {Item Value : Type} {view : Item → Except Text Value}
    {items : List Item} {values : List Value}
    (mapped : items.mapM view = .ok values) :
    ∀ value ∈ values, ∃ item ∈ items, view item = .ok value := by
  induction items generalizing values with
  | nil =>
      cases mapped
      exact fun value inside => absurd inside List.not_mem_nil
  | cons item items ih =>
      rw [List.mapM_cons] at mapped
      rcases (Result.bind_eq_ok _ _ _).1 mapped with ⟨first, shown, others⟩
      rcases (Result.bind_eq_ok _ _ _).1 others with ⟨rest, later, result⟩
      cases result
      intro value inside
      rcases List.mem_cons.1 inside with rfl | inside
      · exact ⟨item, List.mem_cons_self, shown⟩
      · rcases ih later value inside with ⟨origin, member, found⟩
        exact ⟨origin, List.mem_cons_of_mem _ member, found⟩

omit [TextDigest] in
theorem clean_canonicalReferences {references : List CanonicalReference}
    (clean : Json.CleanMembers metadata.entries)
    (found : canonicalReferences metadata = .ok references) :
    ∀ reference ∈ references, CleanTexts (shownReferenceTexts reference) := by
  unfold canonicalReferences at found
  split at found
  · cases found
    exact fun reference inside => absurd inside List.not_mem_nil
  · rename_i value member
    have cleanValue := clean.get? member
    split at found
    · cases found
    · rename_i items array
      split at found
      · cases found
      · rcases (Result.bind_eq_ok _ _ _).1 found with ⟨parsed, mapped, result⟩
        cases result
        intro reference inside
        rcases exists_of_mem_mapM mapped reference
          (mem_sortBy.1 (mem_destutter_ne.1 inside)) with
          ⟨item, origin, shown⟩
        have cleanItem : item.Clean := by
          cases value with
          | array items =>
              cases array
              exact Json.clean_array.1 cleanValue item origin
          | null | bool | int | float | string | object => cases array
        simp only [canonicalReference, Result.bind_eq_ok, Result.pure_eq_ok,
          Result.refuseIf_eq_ok] at shown
        rcases shown with ⟨_, _, _, _, _, _, _, _, _, _, rfl⟩
        simp only [shownReferenceTexts, cleanTexts_cons]
        exact ⟨clean_referenceText cleanItem _,
          clean_referenceText cleanItem _, cleanTexts_nil⟩

theorem clean_retained_metadata
    (accepts : Accepts finding snapshotCommit normalized) {occurrences : Nat}
    (fitting : Fitting occurrences finding) :
    ∃ metadata, parseMetadata (normalized.retain occurrences).finding =
      .ok metadata ∧ Json.CleanMembers metadata.entries := by
  have clean := fitting.metadata _ accepts.metadata
  have fields := findingProvenance_eq_ok.1 accepts.provenance
  unfold NormalizedFinding.retain
  split
  · rename_i merged
    refine ⟨storedMetadata normalized.metadata occurrences, ?_, ?_⟩
    · show parseMetadata (markDuplicates normalized.finding occurrences) = _
      rw [accepts.row]
      exact parseMetadata_markDuplicates accepts.metadata fields.2.2.2.2.1
        occurrences
    · have marked := (cleanMembers_marked_iff _ occurrences).2
        fun member inside other => clean member inside fun _ => other
      intro member inside
      rcases List.mem_map.1 inside with ⟨stored, origin, rfl⟩
      have kept := marked stored origin
      exact ⟨kept.1, Json.clean_reread.2 kept.2⟩
  · rename_i single
    refine ⟨normalized.metadata, ?_, ?_⟩
    · rw [accepts.row]
      exact accepts.metadata
    · exact fun member inside =>
        clean member inside fun merged => absurd merged single

theorem clean_canonicalFinding (digest : ∀ text, '\x00' ∉ sha256Hex text)
    (accepts : Accepts finding snapshotCommit normalized) {occurrences : Nat}
    (fitting : Fitting occurrences finding) :
    CleanTexts (findingTexts
      (canonicalFinding (normalized.retain occurrences))) := by
  rcases accepts.known with ⟨mode, _, known⟩
  have scanner := (fits_known known).1.2
  have clean := fitting.metadata _ accepts.metadata
  have members : CleanFacts normalized.metadata :=
    fun member inside other => clean member inside fun _ => other
  have provenance := clean_provenance members scanner accepts.provenance
  have fields := findingProvenance_eq_ok.1 accepts.provenance
  have file := (clean_findingLocation accepts.location).2
  rcases clean_retained_metadata accepts fitting with
    ⟨metadata, parsed, shown⟩
  have identity : '\x00' ∉ normalized.canonicalId := by
    rw [accepts.canonicalId]
    exact clean_append.2 ⟨by decide, digest _⟩
  have native : '\x00' ∉ normalized.nativeId := by
    rw [accepts.nativeId, clean_append, List.mem_cons, not_or]
    exact ⟨scanner, by decide,
      clean_nativeFingerprint members fields.2.2.2.2.2.1⟩
  have evidence : '\x00' ∉ normalized.evidenceText := by
    have found := accepts.evidence
    unfold evidenceText at found
    split at found
    · rename_i trimmed present
      split at found
      · cases found
      · cases found
        rcases Option.map_eq_some_iff.1 present with ⟨raw, text, trimmed⟩
        rw [← trimmed]
        exact clean_trim (fitting.evidence raw text)
    · cases found
  have references :
      ∀ reference ∈ (canonicalReferences metadata).toOption.getD [],
        CleanTexts (shownReferenceTexts reference) := by
    cases found : canonicalReferences metadata with
    | ok references => exact clean_canonicalReferences shown found
    | error _ => exact fun reference inside => absurd inside List.not_mem_nil
  have sorted : CleanTexts (Json.object (SortedMap.ofList
      (metadata.entries.map fun entry => (entry.1, entry.2.sort))).entries).texts := by
    rw [scannerMetadata_eq]
    apply Json.clean_object.2
    intro member inside
    rcases List.mem_map.1 inside with ⟨stored, origin, rfl⟩
    exact ⟨(shown stored origin).1, (shown stored origin).2.sort⟩
  rcases retain_eq occurrences normalized with ⟨raw, kept⟩
  rw [kept, accepts.row] at parsed ⊢
  simp only [findingTexts, canonicalFinding, cleanTexts_append,
    cleanTexts_cons, cleanTexts_toList, cleanTexts_flatMap]
  have parsed' : (parseMetadata { finding with metadataJson := raw }).toOption =
      some metadata := by
    rw [parsed]
    rfl
  rw [parsed', Option.getD_some]
  have agent : '\x00' ∉ finding.agentSource := by
    rw [accepts.agent]
    exact scanner
  have confidence : ∀ value ∈ finding.confidence, '\x00' ∉ value :=
    fun value member => (fitting.confidence value member).2
  have cweId : ∀ value ∈ finding.cweId, '\x00' ∉ value :=
    fun value member => (fitting.cweId value member).2
  have owasp : ∀ value ∈ finding.owaspCategory, '\x00' ∉ value :=
    fun value member => (fitting.owaspCategory value member).2
  exact ⟨⟨⟨⟨⟨⟨⟨⟨⟨identity, agent, fitting.title, fitting.description,
    cleanTexts_nil⟩, confidence⟩, cweId⟩, owasp⟩, fitting.remediation⟩,
    provenance⟩, native, file, evidence, cleanTexts_nil⟩, references⟩, sorted⟩

end Rows

end FireCrow.Orchestrator
