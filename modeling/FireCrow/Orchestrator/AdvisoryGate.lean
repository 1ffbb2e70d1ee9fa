import FireCrow.Agents.ReportedPaths
import FireCrow.Library.JsonStable
import FireCrow.Orchestrator.GitleaksGate

/-!
# Advisories and the canonical gate

The row of an advisory repeats what registries say: names, versions, ranges and
links.  `PassesAdvisoryGate` is what the gate asks of them; a Maven name whose
group ends in a credential keyword reads as an assignment of it.
-/

namespace FireCrow.Orchestrator

open FireCrow.Library FireCrow.Schemas FireCrow.Agents FireCrow.Agents.Osv
open FireCrow.Services.Redaction

section AdvisoryGate

variable [FloatFormat] [TextDigest]

/-! ## Texts -/

def eventTexts (event : OsvEvent) : List Text :=
  (if event.introduced = [] then [] else [event.introduced]) ++
    event.fixed.toList ++ event.lastAffected.toList ++ event.limit.toList

def rangeTexts (range : OsvRange) : List Text :=
  range.rangeType :: range.events.flatMap eventTexts

def affectedTexts (entry : OsvAffected) : List Text :=
  entry.ranges.flatMap rangeTexts

def referenceTexts (reference : OsvRef) : List Text :=
  [reference.refType, reference.url]

/-- Every text that an advisory brings into the metadata of its row. -/
def advisoryTexts (advisory : Advisory) : List Text :=
  [advisory.primary, advisory.package.ecosystem, advisory.package.name,
    advisory.package.version, advisory.fingerprint, advisory.manifest] ++
    advisory.aliases ++ advisory.fixed ++ advisory.cwe.toList ++
    (affectedEntries advisory.records advisory.package).flatMap affectedTexts ++
    (osvReferences advisory.records).flatMap referenceTexts

/-! ## The row -/

/-- The entries of the metadata once the run has added its provenance. -/
def rowFacts (advisory : Advisory) (direct : Option Bool)
    (input : ScanInput) : List (Text × Json) :=
  let provenance : List (Text × Json) :=
    [("scanner_version", .string Scanner.osv.version),
      ("parser", .string Scanner.osv.parser),
      ("scanner_image", .string Scanner.osv.image),
      ("snapshot_commit", (input.commitSha.map Json.string).getD .null)]
  advisory.facts direct ++ provenance

def rowMetadata (advisory : Advisory) (direct : Option Bool)
    (input : ScanInput) : JsonMap :=
  SortedMap.ofList (rowFacts advisory direct input)

theorem rowFacts_keys (advisory : Advisory) (direct : Option Bool)
    (input : ScanInput) :
    ((rowFacts advisory direct input).map Prod.fst).Nodup := by
  cases cwe : advisory.cwe with
  | none =>
      have keys : (rowFacts advisory direct input).map Prod.fst =
          [("rule_id" : Text), "advisory", "aliases", "ecosystem", "package",
            "installed_version", "fingerprint", "manifest", "direct",
            "affected", "fixed_versions", "references", "scanner_version",
            "parser", "scanner_image", "snapshot_commit"] := by
        simp only [rowFacts, Advisory.facts, cwe]
        rfl
      rw [keys]
      decide
  | some weakness =>
      have keys : (rowFacts advisory direct input).map Prod.fst =
          [("rule_id" : Text), "advisory", "aliases", "ecosystem", "package",
            "installed_version", "fingerprint", "manifest", "direct",
            "affected", "fixed_versions", "references", "cwe_id",
            "scanner_version", "parser", "scanner_image",
            "snapshot_commit"] := by
        simp only [rowFacts, Advisory.facts, cwe]
        rfl
      rw [keys]
      decide

omit [TextDigest] in
theorem string_stable (text : Text) (limit : Nat) :
    Json.Stable limit (.string text) :=
  have scalar : Json.Scalar (.string text) := trivial
  scalar.stable limit

omit [TextDigest] in
theorem eventJson_stable (event : OsvEvent) (limit : Nat) :
    Json.Stable (limit + 1) (eventJson event) := by
  refine (Json.stableMap_ofList fun member inside => ?_).object
  have scalar : member.2.Scalar := by
    simp only [List.mem_append, List.mem_map, Option.mem_toList] at inside
    rcases inside with ((introduced | ⟨_, _, rfl⟩) | ⟨_, _, rfl⟩) | ⟨_, _, rfl⟩
    · split at introduced
      · cases introduced
      · rw [List.mem_singleton.1 introduced]
        trivial
    all_goals trivial
  exact scalar.stable limit

omit [TextDigest] in
theorem rangeJson_stable (range : OsvRange) (limit : Nat) :
    Json.Stable (limit + 3) (rangeJson range) := by
  refine (Json.stableMap_ofList fun member inside => ?_).object
  rcases List.mem_cons.1 inside with rfl | later
  · exact string_stable _ _
  · rw [List.mem_singleton.1 later]
    refine Json.stable_array fun item inItems => ?_
    obtain ⟨event, _, rfl⟩ := List.mem_map.1 inItems
    exact eventJson_stable event limit

omit [TextDigest] in
theorem affectedJson_stable (entry : OsvAffected) (limit : Nat) :
    Json.Stable (limit + 5) (affectedJson entry) := by
  have members : affectedJson entry = .object (SortedMap.ofList
      [(("ranges" : Text), Json.array (entry.ranges.map rangeJson))]).entries :=
    rfl
  rw [members]
  refine (Json.stableMap_ofList fun member inside => ?_).object
  rw [List.mem_singleton.1 inside]
  refine Json.stable_array fun item inItems => ?_
  obtain ⟨range, _, rfl⟩ := List.mem_map.1 inItems
  exact rangeJson_stable range limit

omit [TextDigest] in
theorem referenceJson_stable (reference : OsvRef) (limit : Nat) :
    Json.Stable (limit + 1) (Osv.referenceJson reference) := by
  refine (Json.stableMap_ofList fun member inside => ?_).object
  rcases List.mem_cons.1 inside with rfl | later
  · exact string_stable _ _
  · rw [List.mem_singleton.1 later]
    exact string_stable _ _

omit [TextDigest] in
theorem texts_stable (texts : List Text) (limit : Nat) :
    Json.Stable (limit + 1) (.array (texts.map .string)) := by
  refine Json.stable_array fun item inItems => ?_
  obtain ⟨text, _, rfl⟩ := List.mem_map.1 inItems
  exact string_stable _ _

section

variable (advisory : Advisory)
include advisory

theorem facts_stable (direct : Option Bool) :
    ∀ member ∈ advisory.facts direct, Json.Stable 126 member.2 := by
  intro member inside
  rcases List.mem_append.1 inside with fixed | weakness
  · simp only [List.mem_cons, List.not_mem_nil, or_false] at fixed
    rcases fixed with rfl | rfl | rfl | rfl | rfl | rfl | rfl | rfl | rfl |
      rfl | rfl | rfl
    · exact string_stable _ _
    · exact string_stable _ _
    · exact texts_stable _ 125
    · exact string_stable _ _
    · exact string_stable _ _
    · exact string_stable _ _
    · exact string_stable _ _
    · exact string_stable _ _
    · have scalar : Json.Scalar ((direct.map Json.bool).getD .null) := by
        cases direct <;> trivial
      exact scalar.stable 126
    · refine Json.stable_array fun item inItems => ?_
      obtain ⟨entry, _, rfl⟩ := List.mem_map.1 inItems
      exact affectedJson_stable entry 120
    · exact texts_stable _ 125
    · refine Json.stable_array fun item inItems => ?_
      obtain ⟨reference, _, rfl⟩ := List.mem_map.1 inItems
      exact referenceJson_stable reference 124
  · obtain ⟨cwe, _, rfl⟩ := List.mem_map.1 weakness
    exact string_stable _ _

theorem rowFacts_stable (direct : Option Bool) (input : ScanInput) :
    ∀ member ∈ rowFacts advisory direct input, Json.Stable 126 member.2 := by
  intro member inside
  rcases List.mem_append.1 inside with own | provenance
  · exact facts_stable advisory direct member own
  · simp only [List.mem_cons, List.not_mem_nil, or_false] at provenance
    rcases provenance with rfl | rfl | rfl | rfl
    · exact string_stable _ _
    · exact string_stable _ _
    · exact string_stable _ _
    · have scalar : Json.Scalar
          ((input.commitSha.map Json.string).getD .null) := by
        cases input.commitSha <;> trivial
      exact scalar.stable 126

theorem rowMetadata_eq (direct : Option Bool) (input : ScanInput) :
    runProvenance Scanner.osv input (advisory.metadata direct) =
      rowMetadata advisory direct input := by
  rw [rowMetadata, SortedMap.ofList, rowFacts, List.foldl_append]
  cases commit : input.commitSha <;> simp only [runProvenance, commit] <;> rfl

theorem rowMetadata_stable (direct : Option Bool) (input : ScanInput) :
    Json.Stable 127 (.object (rowMetadata advisory direct input).entries) :=
  (Json.stableMap_ofList (rowFacts_stable advisory direct input)).object

end

/-! ## The texts of the metadata -/

omit [TextDigest] in
theorem mem_eventJson (event : OsvEvent) (text : Text) :
    text ∈ (eventJson event).strings ↔ text ∈ eventTexts event := by
  rcases event with ⟨introduced, fixed, lastAffected, limit⟩
  rw [eventJson, Json.mem_ofListStrings]
  · rw [eventTexts]
    by_cases empty : introduced = [] <;> cases fixed <;> cases lastAffected <;>
      cases limit <;> simp [empty, Json.strings]
  · by_cases empty : introduced = [] <;> cases fixed <;> cases lastAffected <;>
      cases limit <;> simp [empty]

omit [TextDigest] in
theorem mem_rangeJson (range : OsvRange) (text : Text) :
    text ∈ (rangeJson range).strings ↔ text ∈ rangeTexts range := by
  rw [rangeJson, Json.mem_ofListStrings (by simp), rangeTexts]
  simp only [List.mem_cons, List.not_mem_nil, or_false, exists_eq_or_imp,
    exists_eq_left, Json.strings, Json.mem_itemStrings, List.mem_map,
    List.mem_flatMap, exists_exists_and_eq_and, mem_eventJson]

omit [TextDigest] in
theorem mem_affectedJson (entry : OsvAffected) (text : Text) :
    text ∈ (affectedJson entry).strings ↔ text ∈ affectedTexts entry := by
  simp only [affectedJson, affectedTexts, Json.strings, Json.mem_memberStrings,
    List.mem_singleton, exists_eq_left, Json.mem_itemStrings, List.mem_map,
    List.mem_flatMap, exists_exists_and_eq_and, mem_rangeJson]

omit [TextDigest] in
theorem mem_referenceJson (reference : OsvRef) (text : Text) :
    text ∈ (Osv.referenceJson reference).strings ↔
      text ∈ referenceTexts reference := by
  rw [Osv.referenceJson, Json.mem_ofListStrings (by simp), referenceTexts]
  simp [Json.strings]

theorem mem_factStrings (advisory : Advisory) (direct : Option Bool)
    (text : Text) :
    (∃ member ∈ advisory.facts direct, text ∈ member.2.strings) ↔
      text ∈ advisoryTexts advisory := by
  have flag : ((direct.map Json.bool).getD .null).strings = [] := by
    cases direct <;> rfl
  simp only [Advisory.facts, List.mem_append, or_and_right, exists_or,
    List.mem_cons, List.not_mem_nil, or_false, exists_eq_left, flag,
    Json.strings, Json.mem_itemStrings, osvAffected, List.mem_map,
    exists_exists_and_eq_and, mem_affectedJson, mem_referenceJson,
    exists_eq_right', advisoryTexts, List.mem_flatMap]
  grind only

omit [FloatFormat] [TextDigest] in
theorem osvScanner_safe :
    containsKnownCredentialAssignment Scanner.osv.version = false ∧
      containsKnownCredentialAssignment Scanner.osv.parser = false ∧
      containsKnownCredentialAssignment Scanner.osv.image = false := by
  decide

theorem mem_rowStrings (advisory : Advisory) (direct : Option Bool)
    (input : ScanInput) (text : Text) :
    text ∈ (Json.object (rowMetadata advisory direct input).entries).strings ↔
      text ∈ advisoryTexts advisory ∨ input.commitSha = some text ∨
        text = Scanner.osv.version ∨ text = Scanner.osv.parser ∨
        text = Scanner.osv.image := by
  have snapshot : text ∈ ((input.commitSha.map Json.string).getD .null).strings ↔
      input.commitSha = some text := by
    cases input.commitSha <;> simp [Json.strings, eq_comm]
  rw [rowMetadata, Json.mem_ofListStrings (rowFacts_keys _ _ _)]
  simp only [rowFacts, List.mem_append, or_and_right, exists_or,
    mem_factStrings, List.mem_cons, List.not_mem_nil, or_false, exists_eq_left,
    snapshot, Json.strings]
  tauto

/-- The metadata is safe when the texts of the advisory are. -/
theorem rowMetadata_safe_iff (advisory : Advisory) (direct : Option Bool)
    (input : ScanInput) :
    (Json.object (rowMetadata advisory direct input).entries).strings.any
        containsKnownCredentialAssignment = false ↔
      (∀ text ∈ advisoryTexts advisory,
        containsKnownCredentialAssignment text = false) ∧
        ∀ commit, input.commitSha = some commit →
          containsKnownCredentialAssignment commit = false := by
  rw [List.any_eq_false]
  simp only [mem_rowStrings, Bool.not_eq_true]
  constructor
  · intro safe
    exact ⟨fun text inside => safe text (Or.inl inside), fun commit named =>
      safe commit (Or.inr (Or.inl named))⟩
  · rintro ⟨own, commit⟩ text (inside | named | rfl | rfl | rfl)
    · exact own text inside
    · exact commit text named
    · exact osvScanner_safe.1
    · exact osvScanner_safe.2.1
    · exact osvScanner_safe.2.2

theorem rowMetadata_checked_iff (advisory : Advisory) (direct : Option Bool)
    (input : ScanInput) :
    checkMetadataSize (rowMetadata advisory direct input) = .ok () ↔
      (Json.object
          (rowMetadata advisory direct input).entries).render.byteLen ≤
        maxCanonicalMetadataBytes ∧
        (Json.object (rowMetadata advisory direct input).entries).strings.any
          containsKnownCredentialAssignment = false := by
  simp only [checkMetadataSize, (rowMetadata_stable advisory direct input).sort]
  split
  · rename_i long
    simp [not_le.2 long]
  · rename_i short
    split <;> simp_all

/-! ## Location -/

omit [FloatFormat] [TextDigest] in
theorem length_splitOn_le (marker : Char) (text : Text) :
    (text.splitOn marker).length ≤ text.length + 1 := by
  induction text with
  | nil => simp
  | cons character text ih =>
      rw [List.splitOn_cons_eq_if_modifyHead]
      split
      · simpa using ih
      · rw [List.length_modifyHead, List.length_cons]
        omega

omit [FloatFormat] [TextDigest] in
/-- There is at most one line more than there are bytes. -/
theorem length_lines_le (text : Text) :
    (lines text).length ≤ text.byteLen + 1 := by
  have parts := length_splitOn_le '\n' text
  have bytes := Text.length_le_byteLen text
  have some : 0 < (text.splitOn '\n').length :=
    List.length_pos_iff.2 (List.splitOn_ne_nil _ _)
  simp only [lines]
  split <;> simp only [List.length_append, List.length_map,
    List.length_dropLast, List.length_nil, List.length_singleton] <;> omega

omit [FloatFormat] [TextDigest] in
theorem lineAt_positive {index : Nat} (fits : index ≤ Fetch.maxFileBytes) :
    0 < (lineAt index).toInt := by
  have bound : Fetch.maxFileBytes = 20971520 := rfl
  rw [lineAt, Int32.toInt_ofNat_of_lt (by omega)]
  omega

omit [FloatFormat] [TextDigest] in
theorem cargoLine_positive {lines : List Text} {package version : Text}
    (fits : lines.length ≤ Fetch.maxFileBytes + 1) {line : Int32}
    (found : cargoLine lines package version = some line) : 0 < line.toInt := by
  simp only [cargoLine] at found
  split at found
  · cases found
  · rename_i index named
    have inside := (List.findIdx?_eq_some_iff_findIdx_eq.1 named).1
    split at found
    · rename_i offset versioned
      have later := (List.findIdx?_eq_some_iff_findIdx_eq.1 versioned).1
      rw [List.length_take, List.length_drop] at later
      cases found
      exact lineAt_positive (by omega)
    · cases found
      exact lineAt_positive (by omega)

omit [FloatFormat] [TextDigest] in
theorem findLine_positive {lines : List Text}
    (fits : lines.length ≤ Fetch.maxFileBytes + 1) (accepts : Text → Bool)
    {line : Int32} (found : (lines.findIdx? accepts).map lineAt = some line) :
    0 < line.toInt := by
  obtain ⟨index, named, rfl⟩ := Option.map_eq_some_iff.1 found
  have inside := (List.findIdx?_eq_some_iff_findIdx_eq.1 named).1
  exact lineAt_positive (by omega)

omit [FloatFormat] [TextDigest] in
theorem getD_positive {first second third : Option Int32}
    (firstOk : ∀ line, first = some line → 0 < line.toInt)
    (secondOk : ∀ line, second = some line → 0 < line.toInt)
    (thirdOk : ∀ line, third = some line → 0 < line.toInt) :
    0 < (((first.or second).or third).getD 1).toInt := by
  cases first with
  | some line => exact firstOk line rfl
  | none =>
      cases second with
      | some line => exact secondOk line rfl
      | none =>
          cases third with
          | some line => exact thirdOk line rfl
          | none => decide

omit [FloatFormat] [TextDigest] in
theorem osvManifestLine_positive (tree : SourceTree)
    (manifest package version : Text) :
    0 < (osvManifestLine tree manifest package version).toInt := by
  simp only [osvManifestLine]
  split
  · decide
  · rename_i text read
    have fits : (lines text).length ≤ Fetch.maxFileBytes + 1 :=
      (length_lines_le text).trans (Nat.add_le_add_right (tree.fits _ _ read) 1)
    apply getD_positive
    · intro line found
      split at found
      · exact findLine_positive fits _ found
      · cases found
    · intro line found
      split at found
      · exact cargoLine_positive fits found
      · cases found
    · exact fun line found => findLine_positive fits _ found

/-! ## Texts of the row -/

omit [FloatFormat] [TextDigest] in
theorem isBlank_trim (text : Text) : text.trim.isBlank = text.isBlank := by
  cases blank : text.isBlank with
  | true => rw [(Text.trim_eq_nil text).2 blank, Text.isBlank_nil]
  | false =>
      obtain ⟨character, member, visible⟩ := List.all_eq_false.1 blank
      have word : ∀ other ∈ [character], Text.isWhitespace other = false := by
        simpa using visible
      have kept := Text.infix_trim word (List.singleton_infix_iff _ _ |>.2 member)
      exact List.all_eq_false.2
        ⟨character, (List.singleton_infix_iff _ _).1 kept, visible⟩

omit [FloatFormat] [TextDigest] in
theorem isBlank_append_left {opening : Text} (shown : opening.isBlank = false)
    (rest : Text) : (opening ++ rest).isBlank = false := by
  rw [Text.isBlank_append, shown, Bool.false_and]

omit [FloatFormat] [TextDigest] in
theorem isBlank_append_right (rest : Text) {ending : Text}
    (shown : ending.isBlank = false) : (rest ++ ending).isBlank = false := by
  rw [Text.isBlank_append, shown, Bool.and_false]

omit [TextDigest] in
theorem title_not_blank (advisory : Advisory) :
    advisory.title.isBlank = false :=
  isBlank_append_right _ (by decide)

omit [TextDigest] in
theorem description_not_blank (advisory : Advisory) :
    advisory.description.isBlank = false := by
  unfold Advisory.description
  split
  · rename_i summary found
    obtain ⟨record, _, shown⟩ := List.exists_of_findSome?_eq_some found
    split at shown
    · cases shown
    · rename_i visible
      cases shown
      unfold truncateChars
      split
      · exact isBlank_append_right _ (by decide)
      · rw [isBlank_trim]
        exact Bool.eq_false_of_not_eq_true visible
  · exact isBlank_append_right _ (by decide)

omit [TextDigest] in
theorem remediation_not_blank (advisory : Advisory) :
    advisory.remediation.isBlank = false := by
  unfold Advisory.remediation
  split
  · exact isBlank_append_right _ (by decide)
  · exact isBlank_append_right _ (by decide)

theorem fingerprint_not_blank (advisory : Advisory) :
    advisory.fingerprint.isBlank = false :=
  isBlank_append_left (by decide) _

omit [TextDigest] in
theorem evidence_not_blank (advisory : Advisory) :
    advisory.evidence.isBlank = false := by
  unfold Advisory.evidence
  split
  · exact isBlank_append_right _ (by decide)
  · exact isBlank_append_right _ (by decide)

omit [TextDigest] in
/-- The evidence stays in the bound of the gate. -/
theorem length_evidence_trim_le (advisory : Advisory) :
    advisory.evidence.trim.length ≤ maxCanonicalEvidenceChars := by
  have bound : maxCanonicalEvidenceChars = 512 := rfl
  have ending : ("... [truncated]" : Text).length = 15 := rfl
  apply (Text.trim_infix _).length_le.trans
  unfold Advisory.evidence osvEvidenceMaxChars
  split
  · have cut := Text.byteLen_takeBytes 400 advisory.sentence
    have taken := Text.length_le_byteLen (Text.takeBytes 400 advisory.sentence)
    rw [List.length_append, ending]
    omega
  · have whole := Text.length_le_byteLen advisory.sentence
    omega

omit [TextDigest] in
theorem length_title (advisory : Advisory) :
    advisory.title.length =
      27 + advisory.package.name.length + advisory.package.version.length +
        advisory.primary.length := by
  have opening : ("Vulnerable dependency: " : Text).length = 23 := rfl
  have bracket : (" (" : Text).length = 2 := rfl
  unfold Advisory.title
  simp only [List.length_append, List.length_cons, opening, bracket,
    List.length_nil]
  ring

omit [TextDigest] in
/-- A summary is cut to its bound; the text in its place is not. -/
theorem length_description_le_iff (advisory : Advisory) :
    advisory.description.length ≤ maxCanonicalTextChars ↔
      (advisory.summary = none →
        23 + advisory.primary.length + advisory.package.name.length +
          advisory.package.version.length +
          advisory.package.ecosystem.length ≤ maxCanonicalTextChars) := by
  have bound : maxCanonicalTextChars = 4096 := rfl
  cases summary : advisory.summary with
  | some text =>
      have ending : ("... [truncated]" : Text).length = 15 := rfl
      have short : (truncateChars text osvSummaryMaxChars).length ≤ 255 := by
        unfold truncateChars osvSummaryMaxChars
        by_cases long : 240 < text.length
        · rw [if_pos long]
          rw [List.length_append, List.length_take, ending]
          omega
        · rw [if_neg long]
          omega
      rw [Advisory.description, summary]
      simp only [reduceCtorEq, false_implies, iff_true]
      omega
  | none =>
      have parts : ("Advisory " : Text).length = 9 ∧
          (" affects " : Text).length = 9 ∧ (" (" : Text).length = 2 ∧
          (")." : Text).length = 2 := ⟨rfl, rfl, rfl, rfl⟩
      rw [Advisory.description, summary]
      simp only [List.length_append, List.length_cons, parts, true_implies]
      omega

omit [TextDigest] in
theorem length_remediation_le_iff (advisory : Advisory) :
    advisory.remediation.length ≤ maxCanonicalTextChars ↔
      (advisory.fixed = [] →
        91 + advisory.primary.length ≤ maxCanonicalTextChars) ∧
      ∀ version, advisory.fixed.head? = some version →
        70 + advisory.package.name.length + version.length +
          advisory.manifest.length ≤ maxCanonicalTextChars := by
  cases fixed : advisory.fixed with
  | nil =>
      have parts : ("No fixed version is published for " : Text).length = 34 ∧
          ("; review the advisory references in the finding metadata." :
            Text).length = 57 := ⟨rfl, rfl⟩
      rw [Advisory.remediation, fixed]
      simp only [List.length_append, parts, List.head?_nil, reduceCtorEq,
        false_implies, implies_true, and_true, true_implies]
      omega
  | cons version later =>
      have parts : ("Upgrade " : Text).length = 8 ∧
          (" to version " : Text).length = 12 ∧
          (" or later (declared in " : Text).length = 23 ∧
          ("), then re-lock and rescan." : Text).length = 27 :=
        ⟨rfl, rfl, rfl, rfl⟩
      rw [Advisory.remediation, fixed]
      simp only [List.length_append, parts, List.head?_cons, Option.some.injEq,
        forall_eq', reduceCtorEq, false_implies, true_and]
      omega

/-! ## The gate -/

section Rows

variable [UnicodeTables]

/-- An advisory about a package with a safe path to its lockfile. -/
structure GenuineAdvisory (advisory : Advisory) : Prop where
  primary : advisory.primary.isBlank = false
  name : advisory.package.name ≠ []
  version : advisory.package.version ≠ []
  manifest : ∃ path, validateRepoPath advisory.manifest = .ok path

/-- What the gate asks of an advisory. -/
structure PassesAdvisoryGate (tree : SourceTree) (advisory : Advisory)
    (input : ScanInput) (snapshotCommit : Option Text) : Prop where
  title : 27 + advisory.package.name.length + advisory.package.version.length +
    advisory.primary.length ≤ maxCanonicalTextChars
  description : advisory.summary = none →
    23 + advisory.primary.length + advisory.package.name.length +
      advisory.package.version.length + advisory.package.ecosystem.length ≤
      maxCanonicalTextChars
  unfixed : advisory.fixed = [] →
    91 + advisory.primary.length ≤ maxCanonicalTextChars
  fixed : ∀ version, advisory.fixed.head? = some version →
    70 + advisory.package.name.length + version.length +
      advisory.manifest.length ≤ maxCanonicalTextChars
  metadataSize :
    (Json.object (rowMetadata advisory
        (osvDirectness tree advisory.manifest advisory.package.name)
        input).entries).render.byteLen ≤ maxCanonicalMetadataBytes
  textsSafe : ∀ text ∈ advisoryTexts advisory,
    containsKnownCredentialAssignment text = false
  evidenceSafe :
    containsKnownCredentialAssignment advisory.evidence.trim = false
  snapshotSafe : ∀ commit, input.commitSha = some commit →
    containsKnownCredentialAssignment commit = false
  snapshot : ∃ commit,
    validateSnapshotCommit (input.commitSha.or snapshotCommit) = .ok commit

/-- The row of an advisory. -/
def advisoryRow (tree : SourceTree) (id : Text) (advisory : Advisory)
    (input : ScanInput) : Finding :=
  withRunProvenance (osvGroupFinding tree id advisory) Scanner.osv input

variable (tree : SourceTree)

/-- The run leaves everything but the metadata. -/
theorem advisoryRow_eq (id : Text) (advisory : Advisory)
    (input : ScanInput) :
    advisoryRow tree id advisory input =
      { osvGroupFinding tree id advisory with
        metadataJson := some
          (Json.object (rowMetadata advisory
            (osvDirectness tree advisory.manifest advisory.package.name)
            input).entries).render } := by
  have first := (Json.stableMap_ofList (facts_stable advisory
    (osvDirectness tree advisory.manifest
      advisory.package.name))).object.parse_render
  rw [advisoryRow, withRunProvenance, osvGroupFinding, Option.bind_some,
    Advisory.metadata, first]
  simp only [SortedMap.ofList_entries, ← rowMetadata_eq]
  rfl

theorem parseMetadata_advisoryRow (id : Text)
    (advisory : Advisory) (input : ScanInput) :
    parseMetadata (advisoryRow tree id advisory input) =
      .ok (rowMetadata advisory
        (osvDirectness tree advisory.manifest advisory.package.name)
        input) := by
  rw [advisoryRow_eq, parseMetadata, Option.getD_some,
    (rowMetadata_stable _ _ _).parse_render]
  simp only [SortedMap.ofList_entries]

/-! ## The checks of the gate -/

omit [UnicodeTables] in
theorem get?_rowMetadata (advisory : Advisory) (direct : Option Bool)
    (input : ScanInput) {key : Text} {value : Json}
    (member : (key, value) ∈ rowFacts advisory direct input) :
    (rowMetadata advisory direct input).get? key = some value :=
  (Json.get?_ofList_iff (rowFacts_keys _ _ _) key value).2 member

omit [UnicodeTables] in
theorem get?_rowMetadata_none (advisory : Advisory) (direct : Option Bool)
    (input : ScanInput) {key : Text}
    (absent : key ∉ (rowFacts advisory direct input).map Prod.fst) :
    (rowMetadata advisory direct input).get? key = none := by
  rw [Option.eq_none_iff_forall_not_mem]
  intro value found
  apply absent
  have member := (Json.get?_ofList_iff (rowFacts_keys _ _ _) key value).1 found
  exact List.mem_map.2 ⟨(key, value), member, rfl⟩

omit [UnicodeTables] in
theorem metadataStr_snapshotCommit_row (advisory : Advisory)
    (direct : Option Bool) (input : ScanInput) :
    metadataStr (rowMetadata advisory direct input) "snapshot_commit" =
      input.commitSha := by
  have found : (rowMetadata advisory direct input).get? "snapshot_commit" =
      some ((input.commitSha.map Json.string).getD .null) :=
    get?_rowMetadata _ _ _ (by simp [rowFacts])
  rw [metadataStr, found]
  cases input.commitSha <;> rfl

/-- The provenance of a row exists when its commit is valid. -/
theorem findingProvenance_advisoryRow (id : Text)
    {advisory : Advisory} (genuine : GenuineAdvisory advisory)
    (direct : Option Bool) (input : ScanInput) (snapshotCommit : Option Text) :
    (∃ provenance,
      findingProvenance (advisoryRow tree id advisory input)
        (rowMetadata advisory direct input) snapshotCommit = .ok provenance) ↔
      ∃ commit,
        validateSnapshotCommit (input.commitSha.or snapshotCommit) =
          .ok commit := by
  have rule : nativeRuleId (rowMetadata advisory direct input) =
      .ok advisory.primary := by
    have named : metadataStr (rowMetadata advisory direct input) "rule_id" =
        some advisory.primary := by
      have found : (rowMetadata advisory direct input).get? "rule_id" =
          some (.string advisory.primary) :=
        get?_rowMetadata _ _ _ (by simp [rowFacts, Advisory.facts])
      rw [metadataStr, found]
      rfl
    simp only [nativeRuleId, List.filterMap_cons, named, List.find?_cons,
      genuine.primary, Bool.not_false]
  have fingerprint : nativeFingerprint (rowMetadata advisory direct input) =
      .ok advisory.fingerprint := by
    have found : (rowMetadata advisory direct input).get? "fingerprint" =
        some (.string advisory.fingerprint) :=
      get?_rowMetadata _ _ _ (by simp [rowFacts, Advisory.facts])
    rw [nativeFingerprint, metadataStr, found]
    simp [Json.asStr, fingerprint_not_blank]
  have descriptor : ∀ key value : Text,
      (key, Json.string value) ∈ rowFacts advisory direct input →
        value.isBlank = false →
          requiredText (rowMetadata advisory direct input) key =
            .ok value.trim :=
    fun key value member shown =>
      requiredText_of_str (get?_rowMetadata _ _ _ member) shown
  have commits : ∀ commit,
      provenanceCommit (rowMetadata advisory direct input) snapshotCommit =
          .ok commit ↔
        validateSnapshotCommit (input.commitSha.or snapshotCommit) =
          .ok commit := by
    intro commit
    rw [provenanceCommit, metadataStr_snapshotCommit_row, Result.mapError_eq_ok]
  constructor
  · rintro ⟨provenance, accepted⟩
    exact ⟨_, (commits _).1 (findingProvenance_eq_ok.1 accepted).2.2.2.2.2.2⟩
  · rintro ⟨commit, commitOk⟩
    have named : ∃ scanner,
        (advisoryRow tree id advisory input).scannerName = some scanner := by
      rw [advisoryRow_eq]
      exact ⟨_, rfl⟩
    exact ⟨⟨_, _, _, _, _, _, commit⟩, findingProvenance_eq_ok.2
      ⟨rfl, descriptor "scanner_version" Scanner.osv.version
          (by simp [rowFacts]) (by decide),
        descriptor "parser" Scanner.osv.parser (by simp [rowFacts]) (by decide),
        descriptor "scanner_image" Scanner.osv.image (by simp [rowFacts])
          (by decide), rule, fingerprint, (commits commit).2 commitOk⟩⟩

theorem findingLocation_advisoryRow (id : Text)
    {advisory : Advisory} (genuine : GenuineAdvisory advisory)
    (direct : Option Bool) (input : ScanInput) :
    ∃ location,
      findingLocation (advisoryRow tree id advisory input)
        (rowMetadata advisory direct input) = .ok location := by
  rcases genuine.manifest with ⟨file, fileOk⟩
  let line := osvManifestLine tree advisory.manifest advisory.package.name
    advisory.package.version
  have positive : 0 < line.toInt := osvManifestLine_positive _ _ _ _
  have named : findingFile (advisoryRow tree id advisory input) = .ok file := by
    simp only [advisoryRow_eq, findingFile, osvGroupFinding, fileOk]
    rfl
  have numbered :
      findingLine (advisoryRow tree id advisory input) = .ok line := by
    simp only [advisoryRow_eq, findingLine, osvGroupFinding]
    rw [if_pos positive]
  have absent : ∀ key : Text,
      key ∉ (rowFacts advisory direct input).map Prod.fst →
        metadataNumber (rowMetadata advisory direct input) key = .ok none := by
    intro key missing
    rw [metadataNumber, get?_rowMetadata_none _ _ _ missing]
  have keys : ∀ key ∈ [("start_column" : Text), "end_line", "end_column"],
      key ∉ (rowFacts advisory direct input).map Prod.fst := by
    intro key member
    cases cwe : advisory.cwe <;>
      (simp only [List.mem_cons, List.not_mem_nil, or_false] at member
       rcases member with rfl | rfl | rfl <;>
        simp [rowFacts, Advisory.facts, cwe])
  simp only [findingLocation, Result.bind_eq_ok, Result.pure_eq_ok,
    Result.refuseIf_eq_ok]
  exact ⟨_, file, named, line, numbered, none,
    absent _ (keys _ (by simp)), none, absent _ (keys _ (by simp)), none,
    absent _ (keys _ (by simp)), (), by decide, (), by decide, (), rfl, rfl⟩

omit [TextDigest] [UnicodeTables] in
theorem checkEvidence_dependency_iff {advisory : Advisory} :
    checkEvidence .dependency advisory.evidence.trim = .ok () ↔
      containsKnownCredentialAssignment advisory.evidence.trim = false := by
  simp only [checkEvidence,
    if_neg (not_lt.2 (length_evidence_trim_le advisory))]
  split <;> simp_all

theorem keepsRow_advisoryRow_iff (id : Text)
    {advisory : Advisory} (genuine : GenuineAdvisory advisory)
    (input : ScanInput) (snapshotCommit : Option Text) :
    KeepsRow (advisoryRow tree id advisory input) snapshotCommit ↔
      PassesAdvisoryGate tree advisory input snapshotCommit := by
  have kind : evidenceKindOf "osv" = .dependency := by decide
  have fields : (advisoryRow tree id advisory input).scannerName = some "osv" ∧
      (advisoryRow tree id advisory input).scannerMode = some "dependency" ∧
      (advisoryRow tree id advisory input).agentSource = "osv" ∧
      (advisoryRow tree id advisory input).title = advisory.title ∧
      (advisoryRow tree id advisory input).description =
        advisory.description := by
    rw [advisoryRow_eq]
    exact ⟨rfl, rfl, rfl, rfl, rfl⟩
  have remediation : checkRemediation (advisoryRow tree id advisory input) =
      checkText "remediation" advisory.remediation := by
    rw [advisoryRow_eq]
    rfl
  have evidence : evidenceText (advisoryRow tree id advisory input) =
      .ok advisory.evidence.trim := by
    rw [advisoryRow_eq]
    simp [evidenceText, osvGroupFinding, evidence_not_blank]
  rw [KeepsRow, exists_normalized_iff snapshotCommit fields.1 fields.2.1
    (by simp [knownScanners]) fields.2.2.1
    (parseMetadata_advisoryRow tree id advisory input),
    findingProvenance_advisoryRow tree id genuine, rowMetadata_checked_iff,
    rowMetadata_safe_iff, fields.2.2.2.1, fields.2.2.2.2, remediation, evidence,
    kind]
  simp only [checkText_eq_ok, title_not_blank, description_not_blank,
    remediation_not_blank, true_and, length_title, length_description_le_iff,
    length_remediation_le_iff]
  constructor
  · rintro ⟨title, description, remediation, ⟨size, texts, snapshot⟩, bound, _,
      shown, same, safe⟩
    rw [← Except.ok.inj same] at safe
    exact {
      title := title
      description := description
      unfixed := remediation.1
      fixed := remediation.2
      metadataSize := size
      textsSafe := texts
      evidenceSafe := checkEvidence_dependency_iff.1 safe
      snapshotSafe := snapshot
      snapshot := bound }
  · intro passes
    have location := findingLocation_advisoryRow tree id genuine
      (osvDirectness tree advisory.manifest advisory.package.name) input
    have checked := checkEvidence_dependency_iff.2 passes.evidenceSafe
    refine ⟨passes.title, passes.description, ⟨passes.unfixed, passes.fixed⟩,
      ⟨passes.metadataSize, passes.textsSafe, passes.snapshotSafe⟩,
      passes.snapshot, location, ?_⟩
    exact ⟨advisory.evidence.trim, rfl, checked⟩

/-! ## Packages -/

/-- A package result with a safe path to its lockfile whose advisories have
names. -/
structure GenuineResult (manifest : Text) (result : OsvPackageResult) :
    Prop where
  name : result.package.name ≠ []
  version : result.package.version ≠ []
  manifest : ∃ path, validateRepoPath manifest = .ok path
  ids : ∀ ids ∈ osvGroups result, ∃ id, ids.head? = some id ∧
    id.isBlank = false

omit [TextDigest] [UnicodeTables] in
theorem GenuineResult.advisory {manifest : Text} {result : OsvPackageResult}
    (genuine : GenuineResult manifest result) {advisory : Advisory}
    (member : advisory ∈ osvAdvisories manifest result) :
    GenuineAdvisory advisory := by
  obtain ⟨ids, group, rfl⟩ := List.mem_map.1 member
  obtain ⟨id, first, shown⟩ := genuine.ids ids group
  refine ⟨?_, genuine.name, genuine.version, genuine.manifest⟩
  rw [Advisory.primary, first]
  exact shown

/-- The name of a package that ends in a credential keyword before its
artifact, as a Maven name may, reads as an assignment. -/
theorem keyword_package_refused {tree : SourceTree} {advisory : Advisory}
    {input : ScanInput} {snapshotCommit : Option Text} {keyword artifact : Text}
    (known : keyword ∈ credentialKeywords) (nonempty : artifact ≠ [])
    (word : ∀ character ∈ artifact, Text.isWhitespace character = false)
    (ends : keyword ++ ':' :: artifact <:+: advisory.package.name) :
    ¬ PassesAdvisoryGate tree advisory input snapshotCommit := by
  intro passes
  have named : advisory.package.name ∈ advisoryTexts advisory := by
    simp [advisoryTexts]
  have credential := containsKnownCredentialAssignment_of_infix ends
    (containsKnownCredentialAssignment_keyword known nonempty word)
  rw [passes.textsSafe _ named] at credential
  cases credential

/-- The rows of a genuine result are all kept exactly when its advisories pass
the gate, which those of a package named after a credential do not. -/
theorem advisories_kept_iff (tree : SourceTree) (ids : Nat → Text)
    {manifest : Text} {result : OsvPackageResult} (input : ScanInput)
    (snapshotCommit : Option Text) (genuine : GenuineResult manifest result) :
    ((∀ finding ∈ osvPackageFindings tree ids manifest result,
        KeepsRow (withRunProvenance finding Scanner.osv input)
          snapshotCommit) ↔
      ∀ advisory ∈ osvAdvisories manifest result,
        PassesAdvisoryGate tree advisory input snapshotCommit) ∧
      ∀ keyword ∈ credentialKeywords, ∀ artifact : Text, artifact ≠ [] →
        (∀ character ∈ artifact, Text.isWhitespace character = false) →
        keyword ++ ':' :: artifact <:+: result.package.name →
        ∀ advisory ∈ osvAdvisories manifest result,
          ¬ PassesAdvisoryGate tree advisory input snapshotCommit := by
  constructor
  · constructor
    · intro kept advisory member
      obtain ⟨index, inside, rfl⟩ := List.getElem_of_mem member
      rw [← keepsRow_advisoryRow_iff tree (ids index) (genuine.advisory member)]
      apply kept
      rw [osvPackageFindings, List.mem_mapIdx]
      exact ⟨index, inside, rfl⟩
    · intro passes finding inside
      rw [osvPackageFindings, List.mem_mapIdx] at inside
      obtain ⟨index, bound, rfl⟩ := inside
      have member := List.getElem_mem bound
      exact (keepsRow_advisoryRow_iff tree (ids index) (genuine.advisory member)
        input snapshotCommit).2 (passes _ member)
  · intro keyword known artifact nonempty word ends advisory member
    apply keyword_package_refused known nonempty word
    obtain ⟨group, _, rfl⟩ := List.mem_map.1 member
    exact ends

end Rows

end AdvisoryGate

section Jjwt

attribute [local instance] FloatFormat.integersOnly TextDigest.sha256
  UnicodeTables.ascii

/-- An advisory about a Maven package whose group ends in `token`. -/
def jjwtResult : OsvPackageResult where
  package :=
    { name := "io.jsonwebtoken:jjwt", version := "0.9.0", ecosystem := "Maven" }
  vulnerabilities :=
    [{ id := "GHSA-q9fj-7rqw-4x8h"
       aliases := []
       summary := "Signature bypass"
       affected := []
       references := []
       databaseSpecific := .null }]
  groups := [["GHSA-q9fj-7rqw-4x8h"]]

def jjwtAdvisory : Advisory where
  ids := ["GHSA-q9fj-7rqw-4x8h"]
  records := jjwtResult.vulnerabilities
  package := jjwtResult.package
  manifest := "pom.xml"

theorem osvGroups_jjwtResult :
    osvGroups jjwtResult = [[("GHSA-q9fj-7rqw-4x8h" : Text)]] := rfl

theorem osvAdvisories_jjwtResult :
    osvAdvisories "pom.xml" jjwtResult = [jjwtAdvisory] := rfl

theorem jjwtResult_genuine : GenuineResult "pom.xml" jjwtResult where
  name := by decide
  version := by decide
  manifest := ⟨"pom.xml", by decide⟩
  ids := by
    intro ids member
    rw [osvGroups_jjwtResult, List.mem_singleton] at member
    exact ⟨"GHSA-q9fj-7rqw-4x8h", by rw [member]; rfl, by decide⟩

theorem advisories_kept_iff_jjwt :
    ((∀ finding ∈ osvPackageFindings emptyTree (fun _ => "row") "pom.xml"
          jjwtResult,
        KeepsRow (withRunProvenance finding Scanner.osv sampleInput) none) ↔
      ∀ advisory ∈ osvAdvisories "pom.xml" jjwtResult,
        PassesAdvisoryGate emptyTree advisory sampleInput none) ∧
      ∀ keyword ∈ credentialKeywords, ∀ artifact : Text, artifact ≠ [] →
        (∀ character ∈ artifact, Text.isWhitespace character = false) →
        keyword ++ ':' :: artifact <:+: jjwtResult.package.name →
        ∀ advisory ∈ osvAdvisories "pom.xml" jjwtResult,
          ¬ PassesAdvisoryGate emptyTree advisory sampleInput none :=
  advisories_kept_iff emptyTree (fun _ => "row") sampleInput none
    jjwtResult_genuine

/-- Not every genuine advisory is kept. -/
theorem jjwt_quarantined :
    ¬ ∀ (tree : SourceTree) (ids : Nat → Text) (manifest : Text)
      (result : OsvPackageResult) (input : ScanInput)
      (snapshotCommit : Option Text), GenuineResult manifest result →
        (∃ commit, validateSnapshotCommit (input.commitSha.or snapshotCommit) =
          .ok commit) →
        ∀ finding ∈ osvPackageFindings tree ids manifest result,
          KeepsRow (withRunProvenance finding Scanner.osv input)
            snapshotCommit := by
  intro claim
  have member : jjwtAdvisory ∈ osvAdvisories "pom.xml" jjwtResult := by
    rw [osvAdvisories_jjwtResult]
    exact List.mem_singleton_self _
  have row : osvGroupFinding emptyTree "row" jjwtAdvisory ∈
      osvPackageFindings emptyTree (fun _ => "row") "pom.xml" jjwtResult := by
    rw [osvPackageFindings, osvAdvisories_jjwtResult]
    exact List.mem_singleton_self _
  have kept := claim emptyTree (fun _ => "row") "pom.xml" jjwtResult sampleInput
    none jjwtResult_genuine ⟨none, rfl⟩ _ row
  have passes := (keepsRow_advisoryRow_iff emptyTree "row"
    (jjwtResult_genuine.advisory member) sampleInput none).1 kept
  have known : ("token" : Text) ∈ credentialKeywords := by decide
  have nonempty : ("jjwt" : Text) ≠ [] := by decide
  have word : ∀ character ∈ ("jjwt" : Text),
      Text.isWhitespace character = false := by decide
  have inside : ("token" : Text) ++ ':' :: ("jjwt" : Text) <:+:
      jjwtAdvisory.package.name := by decide
  exact keyword_package_refused known nonempty word inside passes

end Jjwt

end FireCrow.Orchestrator
