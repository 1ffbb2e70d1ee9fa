import FireCrow.Library.LowercaseSearch
import FireCrow.Schemas.NarrativeRules

/-!
# Soundness of accepted narratives

What an accepted narrative says: its references, severities and limitations
are those of the report, and its texts name no location and no classification
where the rules look for them.  The rules look at the first marker of a line
and of a package coordinate, and at every token.
-/

namespace FireCrow.Schemas

open FireCrow.Library FireCrow.Services

section Soundness

variable [tables : UnicodeTables]

/-! ## Lowercase -/

/-- Every character has as many bytes in lower case. -/
def KeepsLength (text : Text) : Prop :=
  ∀ character ∈ text,
    Text.byteLen (tables.lowercase character) = character.utf8Size

theorem lowerSize_of_keeps {character : Char}
    (keeps : Text.byteLen (tables.lowercase character) = character.utf8Size) :
    Text.lowerSize character = character.utf8Size := by
  rw [Text.lowerSize]
  split
  · rename_i sigma
    rw [sigma]
    rfl
  · exact keeps

variable {text : Text}

theorem KeepsLength.present (keeps : KeepsLength text) :
    ∀ character ∈ text, tables.lowercase character ≠ [] := by
  intro character member none
  have bytes := keeps character member
  rw [none, Text.byteLen_nil] at bytes
  exact absurd bytes.symm (Nat.pos_iff_ne_zero.1 character.utf8Size_pos)

/-- The lower case of such a text has as many bytes. -/
theorem KeepsLength.byteLen_toLowercase
    (keeps : KeepsLength text) : text.toLowercase.byteLen = text.byteLen := by
  rw [Text.byteLen_toLowercase keeps.present, Text.byteLen]
  apply congrArg
  apply List.map_congr_left
  exact fun character member => lowerSize_of_keeps (keeps character member)

/-! ## Lines -/

omit tables in
/-- A line marker, in any case, starts the text. -/
def marksLine (text : Text) : Bool :=
  Text.toAsciiLowercase (text.take 5) = ("line " : Text)

omit tables in
theorem marksLine_iff :
    marksLine text = true ↔
      Text.toAsciiLowercase (text.take ("line " : Text).length) =
        ("line " : Text) :=
  decide_eq_true_iff

omit tables in
theorem findable_line : Text.Findable "line " :=
  ⟨by decide, by decide, by decide⟩

omit tables in
theorem byteLen_of_take {needle : Text}
    (ascii : ∀ character ∈ needle, Text.isAscii character = true)
    (found : Text.toAsciiLowercase text = needle) :
    text.byteLen = needle.length := by
  rw [← found, Text.toAsciiLowercase, List.length_map]
  have single : ∀ character ∈ text, character.utf8Size = 1 := by
    intro character member
    refine Text.utf8Size_of_ascii (Text.isAscii_of_toLower (ascii _ ?_))
    rw [← found]
    exact List.mem_map_of_mem member
  rw [Text.byteLen, List.map_congr_left single, List.map_const',
    List.sum_replicate_nat, Nat.mul_one]

omit tables in
theorem byteLen_line {rest : Text} (marks : marksLine rest = true) :
    Text.byteLen (rest.take 5) = 5 :=
  byteLen_of_take findable_line.ascii (marksLine_iff.1 marks)

variable {before : Text}

/-- The first line marker of an accepted text has no digit behind it. -/
theorem inventedLine_first {rest : Text}
    (accepted : inventedLine text = some none) (keeps : KeepsLength text)
    (split : text = before ++ rest) (marks : marksLine rest = true)
    (first : ∀ suffix, suffix <:+ before → suffix ≠ [] →
      marksLine (suffix ++ rest) = false) :
    ∀ digit ∈ (rest.drop 5).head?, Text.isAsciiDigit digit = false := by
  have front : KeepsLength before := fun character member =>
    keeps character (by rw [split]; exact List.mem_append_left _ member)
  have position : Text.find "line " text.toLowercase = some before.byteLen := by
    rw [split] at keeps ⊢
    rw [← front.byteLen_toLowercase]
    apply Text.find_toLowercase keeps.present findable_line (by decide)
      (marksLine_iff.1 marks)
    intro suffix inside nonempty
    have unmarked := first suffix inside nonempty
    rw [← Bool.not_eq_true, marksLine_iff] at unmarked
    exact unmarked
  have bytes : Text.byteLen (before ++ rest.take 5) = before.byteLen + 5 := by
    rw [Text.byteLen_append, byteLen_line marks]
  have slice : Text.fromByte (before.byteLen + 5) text = some (rest.drop 5) := by
    rw [← bytes, split, ← List.take_append_drop 5 rest, ← List.append_assoc,
      List.take_append_drop]
    exact Text.fromByte_append _ _
  rw [inventedLine, position] at accepted
  dsimp only at accepted
  rw [slice, Option.map_some, Option.some.injEq] at accepted
  intro digit member
  cases drop : rest.drop 5 with
  | nil =>
      rw [drop] at member
      cases member
  | cons head tail =>
      rw [drop, List.head?_cons, Option.mem_some_iff] at member
      subst member
      rw [drop] at accepted
      by_contra digits
      rw [Bool.not_eq_false] at digits
      rw [List.takeWhile_cons_of_pos digits] at accepted
      cases accepted

/-! ## Paths and coordinates -/

omit tables in
theorem splitAtMarker_eq_none {marker : Char} :
    splitAtMarker marker text = none ↔ marker ∉ text.tail := by
  cases text with
  | nil | cons => simp [splitAtMarker]

omit tables in
/-- The first marker after the first character. -/
theorem splitAtMarker_append {marker : Char} {after : Text}
    (nonempty : before ≠ []) (fresh : marker ∉ before.tail) :
    splitAtMarker marker (before ++ marker :: after) =
      some (before, marker :: after) := by
  obtain ⟨first, before, rfl⟩ := List.exists_cons_of_ne_nil nonempty
  have others : ∀ character ∈ before, decide (character ≠ marker) = true := by
    intro character member
    exact decide_eq_true fun same => fresh (same ▸ member)
  rw [List.cons_append, splitAtMarker, if_pos (by simp)]
  rw [List.takeWhile_append_of_pos others, List.dropWhile_append_of_pos others,
    List.takeWhile_cons_of_neg (by simp), List.dropWhile_cons_of_neg (by simp),
    List.append_nil]

/-- The first marker of a coordinate in an accepted text is none. -/
theorem inventedCoordinate_first {after : Text} {character : Char}
    (accepted : inventedCoordinate (before ++ '@' :: after) = some none)
    (fresh : '@' ∉ before.tail) (last : before.getLast? = some character)
    (package : isPackageCharacter character = true) :
    (after.takeWhile isVersionCharacter).length < 3 := by
  have nonempty : before ≠ [] := by
    rintro rfl
    cases last
  rw [inventedCoordinate, splitAtMarker_append nonempty fresh] at accepted
  dsimp only at accepted
  by_contra long
  rw [if_pos] at accepted
  · rw [Option.map_eq_some_iff] at accepted
    rcases accepted with ⟨_, _, impossible⟩
    cases impossible
  · refine ⟨?_, not_lt.1 long⟩
    rw [List.getLast?_eq_some_iff] at last
    rcases last with ⟨init, rfl⟩
    rw [List.reverse_append, List.reverse_singleton, List.singleton_append,
      List.takeWhile_cons_of_pos package]
    exact Nat.succ_pos _

/-! ## Narratives -/

section Narratives

variable [FloatFormat] (report : CanonicalAuditReport)

/-- What a text of an accepted narrative does not contain: a slash behind its
first character, a number at its first line marker, a version at its first
package marker, and a classification that the report does not have. -/
structure TextSound (text : Text) : Prop where
  path : '/' ∉ text.tail
  line : KeepsLength text → ∀ before rest, text = before ++ rest →
    marksLine rest = true →
      (∀ suffix, suffix <:+ before → suffix ≠ [] →
        marksLine (suffix ++ rest) = false) →
      ∀ digit ∈ (rest.drop 5).head?, Text.isAsciiDigit digit = false
  coordinate : ∀ before after, text = before ++ '@' :: after →
    '@' ∉ before.tail → ∀ character, before.getLast? = some character →
      isPackageCharacter character = true →
        (after.takeWhile isVersionCharacter).length < 3
  classification : ∀ before token after, text = before ++ token ++ after →
    EndsApart before → BeginsApart after →
      (∀ character ∈ token, isTokenCharacter character = true) →
        looksLikeIdentifier token.toUppercase = true →
          token.toUppercase ∈ canonicalIdentifiers report

/-- What an accepted narrative says stands in the report. -/
structure NarrativeSound (narrative : ReportNarrative) : Prop where
  explained : ∀ explanation ∈ narrative.findingExplanations,
    explanation.findingId ∈ knownFindings report
  explainedOnce :
    (narrative.findingExplanations.map FindingExplanation.findingId).Nodup
  guided : ∀ guidance ∈ narrative.remediationGuidance,
    guidance.findingId ∈ knownFindings report
  guidedOnce :
    (narrative.remediationGuidance.map RemediationGuidance.findingId).Nodup
  severities : ∀ explanation ∈ narrative.findingExplanations,
    ∀ claimed, explanation.severity = some claimed →
      ∃ canonical, severityOf report explanation.findingId = some canonical ∧
        Text.eqIgnoreAsciiCase claimed canonical.asStr = true
  limitations : ∀ limitation ∈ narrative.limitations,
    limitation ∈ report.limitations
  texts : ∀ text ∈ narrative.texts, TextSound report text

variable {report}

/-- A text that passed the rules. -/
theorem checkText_sound {text : Text}
    (accepted :
      checkText report (canonicalIdentifiers report) text = .ok ()) :
    TextSound report text := by
  rcases checkText_eq_ok accepted with ⟨located, identifiers⟩
  unfold inventedLocation at located
  split at located
  · cases located
  rename_i path
  split at located
  · rename_i line
    refine ⟨splitAtMarker_eq_none.1 path, ?_, ?_, ?_⟩
    · intro keeps before rest split marks first
      exact inventedLine_first line keeps split marks first
    · rintro before after rfl fresh character last package
      exact inventedCoordinate_first located fresh last package
    · rintro before token after rfl ends begins word looks
      refine identifiers _ ?_
      rw [proseIdentifiers_append ends begins, proseIdentifiers_token word,
        if_pos looks]
      exact List.mem_append_left _
        (List.mem_append_right _ List.mem_cons_self)
  · rename_i found
    exact absurd located found

/-! ## Traceable narratives -/

omit tables [FloatFormat] in
/-- One or more digits. -/
def IsNumber (text : Text) : Prop :=
  text ≠ [] ∧ text.all Text.isAsciiDigit = true

/-- `path/with/slash`. -/
def StatesPath (text : Text) : Prop :=
  ∃ before after : Text, before ≠ [] ∧ after ≠ [] ∧
    text = before ++ '/' :: after

/-- `line 42`. -/
def StatesLine (text : Text) : Prop :=
  ∃ before marker number after : Text, marksLine marker = true ∧
    marker.length = 5 ∧ IsNumber number ∧
      text = before ++ marker ++ number ++ after

/-- `name@x.y.z`. -/
def StatesCoordinate (text : Text) : Prop :=
  ∃ (before : Text) (name : Char) (major minor patch after : Text),
    isPackageCharacter name = true ∧ IsNumber major ∧ IsNumber minor ∧
      IsNumber patch ∧
      text = before ++ name :: '@' ::
        (major ++ '.' :: minor ++ '.' :: patch) ++ after

/-- The classifications of vulnerabilities and weaknesses. -/
inductive Classification : Text → Prop where
  | cve {year number : Text} : IsNumber year → IsNumber number →
      Classification (("CVE-" : Text) ++ year ++ '-' :: number)
  | cwe {number : Text} : IsNumber number →
      Classification (("CWE-" : Text) ++ number)
  | owasp {number year : Text} : IsNumber number → number.length = 2 →
      IsNumber year → Classification ('A' :: number ++ ':' :: year)
  | ghsa {first second third : Text} :
      (∀ group ∈ [first, second, third], group.length = 4 ∧
        group.all Text.isAsciiAlphanumeric = true) →
      Classification
        (("GHSA-" : Text) ++ first ++ '-' :: second ++ '-' :: third)

/-- The texts of a report. -/
def CanonicalAuditReport.texts (report : CanonicalAuditReport) : List Text :=
  report.findings.flatMap (fun finding =>
    [finding.id, finding.title, finding.description, finding.evidence,
      finding.nativeId, finding.provenance.ruleId,
      Json.render (.object finding.scannerMetadata.entries)] ++
      finding.cweId.toList ++ finding.owaspCategory.toList ++
      finding.remediation.toList ++
      finding.references.map CanonicalReference.url) ++
    report.limitations ++ report.disclaimers ++ [report.summary.headline]

/-- Every claim of a narrative can be traced to the report. -/
structure Traceable (report : CanonicalAuditReport)
    (narrative : ReportNarrative) : Prop where
  explained : ∀ explanation ∈ narrative.findingExplanations,
    explanation.findingId ∈ knownFindings report
  explainedOnce :
    (narrative.findingExplanations.map FindingExplanation.findingId).Nodup
  guided : ∀ guidance ∈ narrative.remediationGuidance,
    guidance.findingId ∈ knownFindings report
  guidedOnce :
    (narrative.remediationGuidance.map RemediationGuidance.findingId).Nodup
  severities : ∀ explanation ∈ narrative.findingExplanations,
    ∀ claimed, explanation.severity = some claimed →
      ∃ canonical, severityOf report explanation.findingId = some canonical ∧
        Text.eqIgnoreAsciiCase claimed canonical.asStr = true
  limitations : ∀ limitation ∈ narrative.limitations,
    limitation ∈ report.limitations
  locations : ∀ text ∈ narrative.texts,
    ¬ StatesPath text ∧ ¬ StatesLine text ∧ ¬ StatesCoordinate text
  classifications : ∀ text ∈ narrative.texts, ∀ identifier,
    Classification identifier → identifier <:+: text →
      ∃ source ∈ report.texts, identifier <:+: source

end Narratives

/-! ## A report -/

/-- A report with the findings, and nothing else to show. -/
def sampleReport [FloatFormat] (findings : List CanonicalAuditFinding) :
    CanonicalAuditReport where
  reportSchemaVersion := reportSchemaVersion
  identity :=
    { auditId := "audit-1"
      executionId := "execution-1"
      attemptNumber := 1
      repositoryUrl := "https://example.com/owner/repo"
      repoBranch := "main"
      repoOwner := "owner"
      repoName := "repo"
      snapshotCommit := none
      snapshotFileCount := 1
      snapshotTotalSize := 1
      canonicalSchemaVersion := canonicalAuditVersion
      reportSchemaVersion := reportSchemaVersion }
  coverage :=
    { state := .successFindings
      status := .complete
      complete := true
      scannerRuns := []
      successfulScanners := ["semgrep"]
      unsuccessfulScanners := SortedMap.ofList []
      limitations := [] }
  summary :=
    { headline := "1 finding(s)."
      findingCount := findings.length
      findingsBySeverity := SortedMap.ofList []
      findingsByScanner := SortedMap.ofList []
      invalidFindingCount := 0
      duplicateGroupCount := 0
      securityScore := none }
  findings := findings
  correlations := []
  invalidFindings := []
  limitations := []
  disclaimers := []

/-- A finding with its classification. -/
def sampleFinding [FloatFormat] (cweId owaspCategory : Option Text) :
    CanonicalAuditFinding where
  id := "finding-1"
  agentSource := "semgrep"
  title := "Hardcoded secret"
  description := "A secret is part of the source."
  severity := .high
  confidence := none
  confidenceSource := .absent
  cweId := cweId
  owaspCategory := owaspCategory
  remediation := none
  provenance :=
    { scanner := "semgrep"
      scannerVersion := "1"
      parser := "semgrep"
      scannerImage := "semgrep"
      ruleId := "hardcoded-secret"
      nativeFingerprint := "fingerprint"
      snapshotCommit := none }
  nativeId := "hardcoded-secret"
  location :=
    { file := "config.py"
      line := 1
      startColumn := none
      endLine := none
      endColumn := none }
  evidence := "redacted"
  evidenceKind := .secret
  evidenceTruncated := false
  references := []
  scannerMetadata := SortedMap.ofList []

/-- A narrative about the first finding. -/
def sampleNarrative (summary : Text)
    (findingExplanations : List FindingExplanation) : ReportNarrative where
  narrativeSchemaVersion := aiNarrativeSchemaVersion
  executiveSummary := summary
  findingExplanations := findingExplanations
  remediationGuidance := []
  limitations := []

/-- An explanation with a classification that the report has. -/
def sampleExplanation : FindingExplanation where
  findingId := "finding-1"
  severity := some "High"
  explanation := "A secret (CWE-798)."

/-- A text whose second line marker, second package marker and advisory no rule
looks at. -/
def inventedSummary : Text :=
  "Ask @us in line with a@1.2.3, line 42: GHSA-abcd-efgh-ijkl"

end Soundness

section Samples

attribute [local instance] UnicodeTables.ascii FloatFormat.integersOnly

theorem inventedSummary_advisory :
    ¬ Traceable (sampleReport []) (sampleNarrative inventedSummary []) := by
  intro traceable
  have advisory : Classification ("GHSA-abcd-efgh-ijkl" : Text) :=
    @Classification.ghsa "abcd" "efgh" "ijkl" (by decide)
  have cited : ("GHSA-abcd-efgh-ijkl" : Text) <:+: inventedSummary :=
    ⟨"Ask @us in line with a@1.2.3, line 42: ", [], by decide⟩
  rcases traceable.classifications inventedSummary List.mem_cons_self _ advisory
      cited with ⟨source, member, inside⟩
  have absent : ∀ source ∈ (sampleReport []).texts, 'H' ∉ source := by
    decide
  exact absent source member (inside.subset (by decide))

end Samples

end FireCrow.Schemas
