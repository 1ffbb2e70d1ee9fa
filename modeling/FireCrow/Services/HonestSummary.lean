import FireCrow.Schemas.NarrativeSoundness
import FireCrow.Services.TelegramArtifact

/-!
# Honest summaries

The sizes of the full text and of the summary are sums over the lines of the
report.  Two sentences state a clean audit; every other fragment of the templates
is measured and is none of the two.
-/

namespace FireCrow.Services.Telegram

open FireCrow.Library FireCrow.Library.Fragment
open FireCrow.Schemas FireCrow.Services.Email

/-! ## Measured fragments -/

theorem utf16Len_append (front back : Text) :
    utf16Len (front ++ back) = utf16Len front + utf16Len back := by
  rw [utf16Len, List.map_append, List.sum_append]
  rfl

/-- The fragments that state that every scanner completed and none reported a
finding. -/
def StatesClean (fragments : List Fragment) : Prop :=
  fixed cleanSentence ∈ fragments ∨ fixed noFindingsSentence ∈ fragments

theorem statesClean_append (front back : List Fragment) :
    StatesClean (front ++ back) ↔ StatesClean front ∨ StatesClean back := by
  rw [StatesClean, List.mem_append, List.mem_append]
  exact or_or_or_comm

theorem statesClean_cons (fragment : Fragment) (rest : List Fragment) :
    StatesClean (fragment :: rest) ↔ StatesClean [fragment] ∨ StatesClean rest :=
  statesClean_append [fragment] rest

theorem not_statesClean_data (text : Text) : ¬ StatesClean [data text] := by
  rintro (stated | stated)
  · cases List.mem_singleton.1 stated
  · cases List.mem_singleton.1 stated

/-- A size, and no statement of a clean audit. -/
structure Measured (fragments : List Fragment) (size : Nat) : Prop where
  size_eq : utf16Len (assemble fragments) = size
  quiet : ¬ StatesClean fragments

/-- A text of another length than the two sentences. -/
def otherLength (characters : List Char) : Bool :=
  characters.length != 60 && characters.length != 78

theorem cleanSentence_length : cleanSentence.length = 60 := by
  decide

theorem noFindingsSentence_length : noFindingsSentence.length = 78 := by
  decide

theorem not_statesClean_fixed {characters : List Char}
    (other : otherLength characters = true) : ¬ StatesClean [fixed characters] := by
  simp only [otherLength, Bool.and_eq_true, bne_iff_ne, ne_eq] at other
  rintro (stated | stated)
  · cases List.mem_singleton.1 stated
    exact other.1 cleanSentence_length
  · cases List.mem_singleton.1 stated
    exact other.2 noFindingsSentence_length

namespace Measured

theorem nil : Measured [] 0 where
  size_eq := rfl
  quiet stated := stated.elim List.not_mem_nil List.not_mem_nil

theorem data {text : Text} {rest : List Fragment} {size : Nat}
    (measured : Measured rest size) :
    Measured (.data text :: rest) (utf16Len text + size) where
  size_eq := by
    rw [assemble_cons, utf16Len_append, measured.size_eq]
    rfl
  quiet stated :=
    ((statesClean_cons _ _).1 stated).elim (not_statesClean_data text) measured.quiet

theorem fixed {characters : List Char} {rest : List Fragment} {width size : Nat}
    (counted : utf16Len characters = width) (other : otherLength characters = true)
    (measured : Measured rest size) :
    Measured (.fixed (String.ofList characters).toList :: rest) (width + size) := by
  rw [String.toList_ofList]
  constructor
  · rw [assemble_cons, utf16Len_append, measured.size_eq, Fragment.text, counted]
  · rw [statesClean_cons, not_or]
    exact ⟨not_statesClean_fixed other, measured.quiet⟩

theorem append {front back : List Fragment} {first second : Nat}
    (before : Measured front first) (after : Measured back second) :
    Measured (front ++ back) (first + second) where
  size_eq := by
    rw [assemble_append, utf16Len_append, before.size_eq, after.size_eq]
  quiet stated := ((statesClean_append _ _).1 stated).elim before.quiet after.quiet

theorem flatMap {Item : Type} {fragments : Item → List Fragment} {size : Item → Nat}
    (each : ∀ item, Measured (fragments item) (size item)) (items : List Item) :
    Measured (items.flatMap fragments) (items.map size).sum := by
  induction items with
  | nil => exact nil
  | cons item items ih =>
      rw [List.flatMap_cons, List.map_cons, List.sum_cons]
      exact (each item).append ih

theorem ite {condition : Prop} [Decidable condition] {positive negative : List Fragment}
    {first second : Nat} (yes : Measured positive first)
    (no : Measured negative second) :
    Measured (if condition then positive else negative)
      (if condition then first else second) := by
  split
  · exact yes
  · exact no

theorem of_eq {fragments : List Fragment} {size other : Nat}
    (measured : Measured fragments size) (same : size = other) :
    Measured fragments other :=
  same ▸ measured

end Measured

/-! ## The two sentences -/

theorem cleanSentence_size : utf16Len cleanSentence = 60 := by
  decide

theorem incompleteSentence_measured : Measured [fixed incompleteSentence] 73 :=
  Measured.of_eq
    (.fixed rfl rfl .nil : Measured [fixed incompleteSentence] (73 + 0)) rfl

theorem noFindingsSentence_size : utf16Len noFindingsSentence = 78 := by
  decide

/-! ## The size of a line -/

def succeededSize (scanner : Text) : Nat := 14 + utf16Len scanner

def failedSize (entry : Text × Text) : Nat :=
  23 + utf16Len entry.1 + utf16Len entry.2

def severitySize (entry : Text × Nat) : Nat :=
  7 + utf16Len entry.1 + utf16Len (Text.ofNat entry.2)

def evidenceSize (evidence : Text) : Nat :=
  if evidence.trim.isEmpty then 0 else 15 + utf16Len evidence

def remediationSize (remediation : Text) : Nat := 18 + utf16Len remediation

def explanationSize (explanation : FindingExplanation) : Nat :=
  5 + utf16Len explanation.findingId + utf16Len explanation.explanation

def narrativeSize (narrative : ReportNarrative) : Nat :=
  37 + utf16Len narrative.executiveSummary +
    (narrative.findingExplanations.map explanationSize).sum +
    if narrative.limitations.isEmpty then 0
    else 39 + (narrative.limitations.map fun limitation =>
      7 + utf16Len limitation).sum

def proseSize (narrative : ReportNarrative) : Nat :=
  37 + utf16Len (narrative.executiveSummary.take summaryProseChars)

theorem succeededText_measured (scanner : Text) :
    Measured (succeededText scanner) (succeededSize scanner) := by
  have chain : Measured (succeededText scanner) (2 + (utf16Len scanner + (12 + 0))) :=
    .fixed rfl rfl <| .data <| .fixed rfl rfl .nil
  exact chain.of_eq (by rw [succeededSize]; omega)

theorem failedText_measured (entry : Text × Text) :
    Measured (failedText entry) (failedSize entry) := by
  have chain : Measured (failedText entry)
      (2 + (utf16Len entry.1 + (19 + (utf16Len entry.2 + (2 + 0))))) :=
    .fixed rfl rfl <| .data <| .fixed rfl rfl <| .data <| .fixed rfl rfl .nil
  exact chain.of_eq (by rw [failedSize]; omega)

theorem severityText_measured (entry : Text × Nat) :
    Measured (severityText entry) (severitySize entry) := by
  have chain : Measured (severityText entry)
      (4 + (utf16Len entry.1 + (2 + (utf16Len (Text.ofNat entry.2) + (1 + 0))))) :=
    .fixed rfl rfl <| .data <| .fixed rfl rfl <| .data <| .fixed rfl rfl .nil
  exact chain.of_eq (by rw [severitySize]; omega)

theorem evidenceText_measured (evidence : Text) :
    Measured (evidenceText evidence) (evidenceSize evidence) := by
  have chain : Measured [fixed "    evidence: ", data evidence, fixed "\n"]
      (14 + (utf16Len evidence + (1 + 0))) :=
    .fixed rfl rfl <| .data <| .fixed rfl rfl .nil
  exact .ite .nil (chain.of_eq (by omega))

theorem remediationText_measured (remediation : Text) :
    Measured (remediationText remediation) (remediationSize remediation) := by
  have chain : Measured (remediationText remediation)
      (17 + (utf16Len remediation + (1 + 0))) :=
    .fixed rfl rfl <| .data <| .fixed rfl rfl .nil
  exact chain.of_eq (by rw [remediationSize]; omega)

theorem explanationText_measured (explanation : FindingExplanation) :
    Measured (explanationText explanation) (explanationSize explanation) := by
  have chain : Measured (explanationText explanation)
      (2 + (utf16Len explanation.findingId +
        (2 + (utf16Len explanation.explanation + (1 + 0))))) :=
    .fixed rfl rfl <| .data <| .fixed rfl rfl <| .data <| .fixed rfl rfl .nil
  exact chain.of_eq (by rw [explanationSize]; omega)

theorem carriedText_measured (limitation : Text) :
    Measured (carriedText limitation) (7 + utf16Len limitation) := by
  have chain : Measured (carriedText limitation)
      (6 + (utf16Len limitation + (1 + 0))) :=
    .fixed rfl rfl <| .data <| .fixed rfl rfl .nil
  exact chain.of_eq (by omega)

theorem limitationText_measured (limitation : Text) :
    Measured (limitationText limitation) (5 + utf16Len limitation) := by
  have chain : Measured (limitationText limitation)
      (4 + (utf16Len limitation + (1 + 0))) :=
    .fixed rfl rfl <| .data <| .fixed rfl rfl .nil
  exact chain.of_eq (by omega)

theorem narrativeText_measured (narrative : ReportNarrative) :
    Measured (narrativeText narrative) (narrativeSize narrative) := by
  have opening : Measured [fixed "\nAI explanation (non-authoritative)\n",
      data narrative.executiveSummary, fixed "\n"]
      (36 + (utf16Len narrative.executiveSummary + (1 + 0))) :=
    .fixed rfl rfl <| .data <| .fixed rfl rfl .nil
  have carried : Measured
      (if narrative.limitations.isEmpty then []
        else fixed "\n  Limitations carried from the audit:\n" ::
          narrative.limitations.flatMap carriedText)
      (if narrative.limitations.isEmpty then 0
        else 39 + (narrative.limitations.map fun limitation =>
          7 + utf16Len limitation).sum) :=
    .ite .nil (.fixed rfl rfl (.flatMap carriedText_measured _))
  refine ((opening.append (.flatMap explanationText_measured _)).append
    carried).of_eq ?_
  rw [narrativeSize]
  omega

theorem proseFragments_measured (narrative : ReportNarrative) :
    Measured (proseFragments narrative) (proseSize narrative) := by
  have chain : Measured (proseFragments narrative)
      (36 + (utf16Len (narrative.executiveSummary.take summaryProseChars) +
        (1 + 0))) :=
    .fixed rfl rfl <| .data <| .fixed rfl rfl .nil
  exact chain.of_eq (by rw [proseSize]; omega)

/-! ## The size of a report -/

section Reports

variable [FloatFormat]

/-- The identity that both renderings write. -/
def identitySize (report : CanonicalAuditReport) : Nat :=
  utf16Len report.identity.repoBranch + utf16Len report.identity.executionId +
    utf16Len (Text.ofInt report.identity.attemptNumber.toInt) +
    utf16Len (coverageLabel report)

def coverageSize (report : CanonicalAuditReport) : Nat :=
  38 + (report.coverage.successfulScanners.map succeededSize).sum +
    (report.coverage.unsuccessfulScanners.entries.map failedSize).sum +
    (if noScanners report then 30 else 0) +
    utf16Len (yesOrNo report.coverage.complete)

def findingSize (finding : CanonicalAuditFinding) : Nat :=
  53 + utf16Len finding.severity.asStr + utf16Len finding.title +
    utf16Len finding.id + utf16Len finding.provenance.scanner +
    utf16Len finding.provenance.ruleId + utf16Len (locationText finding) +
    evidenceSize finding.evidence +
    (finding.remediation.toList.map remediationSize).sum

def limitationsSize (report : CanonicalAuditReport) : Nat :=
  if report.limitations.isEmpty then 0
  else 19 + (report.limitations.map fun limitation => 5 + utf16Len limitation).sum

def referenceSize (report : CanonicalAuditReport) : Nat :=
  97 + utf16Len report.identity.executionId +
    utf16Len (Text.ofInt report.identity.attemptNumber.toInt)

/-- A clean audit: complete coverage, no finding and no quarantined finding. -/
def CleanAudit (report : CanonicalAuditReport) : Prop :=
  report.coverage.complete = true ∧ report.summary.findingCount = 0 ∧
    report.summary.invalidFindingCount = 0

variable (report : CanonicalAuditReport)

theorem headerText_measured :
    Measured (headerText report)
      (84 + utf16Len report.identity.repositoryUrl + identitySize report) := by
  have chain : Measured (headerText report)
      (25 + (12 + (utf16Len report.identity.repositoryUrl +
        (9 + (utf16Len report.identity.repoBranch +
          (12 + (utf16Len report.identity.executionId +
            (10 + (utf16Len (Text.ofInt report.identity.attemptNumber.toInt) +
              (15 + (utf16Len (coverageLabel report) + (1 + 0)))))))))))) :=
    .fixed rfl rfl <| .fixed rfl rfl <| .data <| .fixed rfl rfl <| .data <|
      .fixed rfl rfl <| .data <| .fixed rfl rfl <| .data <| .fixed rfl rfl <|
        .data <| .fixed rfl rfl .nil
  exact chain.of_eq (by rw [identitySize]; omega)

theorem headerFragments_measured :
    Measured (headerFragments report)
      (94 + utf16Len (repositoryText report) + identitySize report) := by
  have chain : Measured (headerFragments report)
      (35 + (12 + (utf16Len (repositoryText report) +
        (9 + (utf16Len report.identity.repoBranch +
          (12 + (utf16Len report.identity.executionId +
            (10 + (utf16Len (Text.ofInt report.identity.attemptNumber.toInt) +
              (15 + (utf16Len (coverageLabel report) + (1 + 0)))))))))))) :=
    .fixed rfl rfl <| .fixed rfl rfl <| .data <| .fixed rfl rfl <| .data <|
      .fixed rfl rfl <| .data <| .fixed rfl rfl <| .data <| .fixed rfl rfl <|
        .data <| .fixed rfl rfl .nil
  exact chain.of_eq (by rw [identitySize]; omega)

theorem coverageText_measured :
    Measured (coverageText report) (coverageSize report) := by
  have opening : Measured [fixed "\nScanner coverage\n"] (18 + 0) :=
    .fixed rfl rfl .nil
  have empty : Measured [fixed "  no scanner results recorded\n"] 30 :=
    Measured.of_eq (.fixed rfl rfl .nil : Measured _ (30 + 0)) rfl
  have closing : Measured [fixed "Coverage complete: ",
      data (yesOrNo report.coverage.complete), fixed "\n"]
      (19 + (utf16Len (yesOrNo report.coverage.complete) + (1 + 0))) :=
    .fixed rfl rfl <| .data <| .fixed rfl rfl .nil
  refine ((((opening.append (.flatMap succeededText_measured _)).append
    (.flatMap failedText_measured _)).append (.ite empty .nil)).append
    closing).of_eq ?_
  rw [coverageSize]
  omega

theorem findingText_measured (finding : CanonicalAuditFinding) :
    Measured (findingText finding) (findingSize finding) := by
  have opening : Measured
      [fixed "\n  [", data finding.severity.asStr, fixed "] ", data finding.title,
        fixed "\n    id: ", data finding.id, fixed "\n    scanner: ",
        data finding.provenance.scanner, fixed " (rule ",
        data finding.provenance.ruleId, fixed ")\n    location: ",
        data (locationText finding), fixed "\n"]
      (4 + (utf16Len finding.severity.asStr + (2 + (utf16Len finding.title +
        (9 + (utf16Len finding.id + (14 + (utf16Len finding.provenance.scanner +
          (7 + (utf16Len finding.provenance.ruleId +
            (16 + (utf16Len (locationText finding) + (1 + 0))))))))))))) :=
    .fixed rfl rfl <| .data <| .fixed rfl rfl <| .data <| .fixed rfl rfl <|
      .data <| .fixed rfl rfl <| .data <| .fixed rfl rfl <| .data <|
        .fixed rfl rfl <| .data <| .fixed rfl rfl .nil
  refine ((opening.append (evidenceText_measured _)).append
    (.flatMap remediationText_measured _)).of_eq ?_
  rw [findingSize]
  omega

theorem limitationsText_measured :
    Measured (limitationsText report) (limitationsSize report) :=
  .ite .nil (.fixed rfl rfl (.flatMap limitationText_measured _))

theorem referenceFragments_measured :
    Measured (referenceFragments report) (referenceSize report) := by
  have chain : Measured (referenceFragments report)
      (32 + (utf16Len report.identity.executionId +
        (10 + (utf16Len (Text.ofInt report.identity.attemptNumber.toInt) +
          (55 + 0))))) :=
    .fixed rfl rfl <| .data <| .fixed rfl rfl <| .data <| .fixed rfl rfl .nil
  exact chain.of_eq (by rw [referenceSize]; omega)

theorem omittedFragments_measured :
    Measured (omittedFragments report)
      (187 + utf16Len (Text.ofNat report.findings.length)) := by
  have chain : Measured (omittedFragments report)
      (1 + (utf16Len (Text.ofNat report.findings.length) +
        (54 + (82 + (50 + 0))))) :=
    .fixed rfl rfl <| .data <| .fixed rfl rfl <| .fixed rfl rfl <|
      .fixed rfl rfl .nil
  exact chain.of_eq (by omega)

def findingsSize (report : CanonicalAuditReport) : Nat :=
  10 + (if report.findings.isEmpty then if report.coverage.complete then 60 else 73
    else 0) + (report.findings.map findingSize).sum

def verdictSize (report : CanonicalAuditReport) : Nat :=
  if report.findings.isEmpty then 78
  else 187 + utf16Len (Text.ofNat report.findings.length)

/-! ## The verdicts -/

/-- The verdict of the e-mail is about the findings and the coverage. -/
theorem findingsText_spec :
    utf16Len (assemble (findingsText report)) = findingsSize report ∧
      (StatesClean (findingsText report) ↔
        report.findings.isEmpty = true ∧ report.coverage.complete = true) := by
  have opening : Measured [fixed "\nFindings\n"] 10 :=
    Measured.of_eq (.fixed rfl rfl .nil : Measured _ (10 + 0)) rfl
  have rows := Measured.flatMap findingText_measured report.findings
  rw [findingsText, findingsSize, assemble_append, assemble_append,
    utf16Len_append, utf16Len_append, opening.size_eq, rows.size_eq,
    statesClean_append, statesClean_append]
  simp only [opening.quiet, rows.quiet, false_or, or_false]
  by_cases empty : report.findings.isEmpty = true
  · simp only [empty, if_true, true_and]
    cases complete : report.coverage.complete with
    | true =>
        refine ⟨?_, iff_of_true (.inl List.mem_cons_self) rfl⟩
        rw [if_pos rfl, if_pos rfl, assemble_cons, assemble_nil, List.append_nil,
          Fragment.text, cleanSentence_size]
    | false =>
        refine ⟨?_, iff_of_false ?_ Bool.false_ne_true⟩
        · rw [if_neg Bool.false_ne_true, if_neg Bool.false_ne_true,
            incompleteSentence_measured.size_eq]
        · rw [if_neg Bool.false_ne_true]
          exact incompleteSentence_measured.quiet
  · rw [if_neg empty, if_neg empty]
    exact ⟨rfl, iff_of_false Measured.nil.quiet fun stated => empty stated.1⟩

/-- The verdict of the summary is about the findings only. -/
theorem verdictFragments_spec :
    utf16Len (assemble (verdictFragments report)) = verdictSize report ∧
      (StatesClean (verdictFragments report) ↔ report.findings.isEmpty = true) := by
  rw [verdictFragments, verdictSize]
  by_cases empty : report.findings.isEmpty = true
  · rw [if_pos empty, if_pos empty, assemble_cons, assemble_nil, List.append_nil,
      Fragment.text, noFindingsSentence_size]
    exact ⟨rfl, iff_of_true (.inr List.mem_cons_self) empty⟩
  · rw [if_neg empty, if_neg empty, (omittedFragments_measured report).size_eq]
    exact ⟨rfl, iff_of_false (omittedFragments_measured report).quiet empty⟩

variable [ScoreFormat]

def securitySize (report : CanonicalAuditReport) : Nat :=
  50 + utf16Len (Text.ofNat report.summary.findingCount) +
    (report.summary.findingsBySeverity.entries.map severitySize).sum +
    utf16Len (scoreText report)

theorem summaryText_measured :
    Measured (summaryText report) (securitySize report) := by
  have opening : Measured [fixed "\nSecurity summary\n", fixed "  findings: ",
      data (Text.ofNat report.summary.findingCount), fixed "\n"]
      (18 + (12 + (utf16Len (Text.ofNat report.summary.findingCount) + (1 + 0)))) :=
    .fixed rfl rfl <| .fixed rfl rfl <| .data <| .fixed rfl rfl .nil
  have closing : Measured [fixed "  security score: ", data (scoreText report),
      fixed "\n"] (18 + (utf16Len (scoreText report) + (1 + 0))) :=
    .fixed rfl rfl <| .data <| .fixed rfl rfl .nil
  refine ((opening.append (.flatMap severityText_measured _)).append
    closing).of_eq ?_
  rw [securitySize]
  omega

/-- The size of the full text. -/
def textSize (report : CanonicalAuditReport) (narrative : Option ReportNarrative) :
    Nat :=
  84 + utf16Len report.identity.repositoryUrl + identitySize report +
    coverageSize report + securitySize report + findingsSize report +
    (narrative.toList.map narrativeSize).sum + limitationsSize report

/-- The size of the summary. -/
def summarySize (report : CanonicalAuditReport)
    (narrative : Option ReportNarrative) : Nat :=
  94 + utf16Len (repositoryText report) + identitySize report +
    coverageSize report + securitySize report + verdictSize report +
    (narrative.toList.map proseSize).sum + limitationsSize report +
    referenceSize report

variable (narrative : Option ReportNarrative)

theorem textBody_spec :
    utf16Len (textBody report narrative) = textSize report narrative ∧
      (StatesClean (textFragments report narrative) ↔
        report.findings.isEmpty = true ∧ report.coverage.complete = true) := by
  have before := ((headerText_measured report).append
    (coverageText_measured report)).append (summaryText_measured report)
  have prose := Measured.flatMap narrativeText_measured narrative.toList
  have limits := limitationsText_measured report
  rcases findingsText_spec report with ⟨sized, stated⟩
  rw [textBody, textFragments, textSize, assemble_append, assemble_append,
    assemble_append, utf16Len_append, utf16Len_append, utf16Len_append,
    before.size_eq, prose.size_eq, limits.size_eq, sized, statesClean_append,
    statesClean_append, statesClean_append]
  simp only [before.quiet, prose.quiet, limits.quiet, stated, false_or, or_false,
    and_true]

theorem summary_spec :
    utf16Len (summary report narrative) = summarySize report narrative ∧
      (StatesClean (summaryFragments report narrative) ↔
        report.findings.isEmpty = true) := by
  have before := ((headerFragments_measured report).append
    (coverageText_measured report)).append (summaryText_measured report)
  have prose := Measured.flatMap proseFragments_measured narrative.toList
  have limits := limitationsText_measured report
  have reference := referenceFragments_measured report
  rcases verdictFragments_spec report with ⟨sized, stated⟩
  rw [summary, summaryFragments, summarySize, assemble_append, assemble_append,
    assemble_append, assemble_append, utf16Len_append, utf16Len_append,
    utf16Len_append, utf16Len_append, before.size_eq, prose.size_eq,
    limits.size_eq, reference.size_eq, sized, statesClean_append,
    statesClean_append, statesClean_append, statesClean_append]
  simp only [before.quiet, prose.quiet, limits.quiet, reference.quiet, stated,
    false_or, or_false, and_true]

/-! ## The message -/

/-- The fragments of a message. -/
def messageFragments (report : CanonicalAuditReport)
    (narrative : Option ReportNarrative) (limit : Nat) : List Fragment :=
  if (renderMessage report narrative limit).isSummary then
    summaryFragments report narrative
  else textFragments report narrative

theorem renderMessage_fits {report : CanonicalAuditReport}
    {narrative : Option ReportNarrative} {limit : Nat}
    (fits : textSize report narrative ≤ limit) :
    (renderMessage report narrative limit).text = textBody report narrative ∧
      messageFragments report narrative limit = textFragments report narrative := by
  rw [← (textBody_spec report narrative).1] at fits
  rw [messageFragments, renderMessage, if_pos fits]
  exact ⟨rfl, rfl⟩

theorem renderMessage_exceeds {report : CanonicalAuditReport}
    {narrative : Option ReportNarrative} {limit : Nat}
    (exceeds : limit < textSize report narrative) :
    (renderMessage report narrative limit).text = summary report narrative ∧
      messageFragments report narrative limit =
        summaryFragments report narrative := by
  rw [← (textBody_spec report narrative).1, ← Nat.not_le] at exceeds
  rw [messageFragments, renderMessage, if_neg exceeds]
  exact ⟨rfl, rfl⟩

/-- The full text where it fits the limit, and a summary within the limit
elsewhere. -/
def WithinLimit (report : CanonicalAuditReport)
    (narrative : Option ReportNarrative) (limit : Nat) : Prop :=
  (utf16Len (textBody report narrative) ≤ limit →
    (renderMessage report narrative limit).text = textBody report narrative) ∧
  (limit < utf16Len (textBody report narrative) →
    (renderMessage report narrative limit).text = summary report narrative ∧
      utf16Len (renderMessage report narrative limit).text ≤ limit)

theorem withinLimit_iff (limit : Nat) :
    WithinLimit report narrative limit ↔
      (limit < textSize report narrative →
        summarySize report narrative ≤ limit) := by
  rw [WithinLimit, (textBody_spec report narrative).1]
  constructor
  · rintro ⟨_, bounded⟩ exceeds
    rcases bounded exceeds with ⟨same, within⟩
    rwa [same, (summary_spec report narrative).1] at within
  · intro bounded
    refine ⟨fun fits => (renderMessage_fits fits).1, fun exceeds => ?_⟩
    have same := (renderMessage_exceeds exceeds).1
    refine ⟨same, ?_⟩
    rw [same, (summary_spec report narrative).1]
    exact bounded exceeds

/-- A message is within its limit and neither rendering states a clean audit
without one exactly where the summary fits wherever the full text does not, a
complete report without findings counts none, and a report without findings that
does not fit is a clean audit. -/
theorem messages_honest_iff (report : CanonicalAuditReport)
    (narrative : Option ReportNarrative) (limit : Nat) :
    (WithinLimit report narrative limit ∧
      (StatesClean (messageFragments report narrative limit) →
        CleanAudit report) ∧
      (StatesClean (textFragments report narrative) → CleanAudit report)) ↔
    (limit < textSize report narrative → summarySize report narrative ≤ limit) ∧
      (report.findings = [] → report.coverage.complete = true →
        report.summary.findingCount = 0 ∧
          report.summary.invalidFindingCount = 0) ∧
      (report.findings = [] → limit < textSize report narrative →
        CleanAudit report) := by
  rw [withinLimit_iff, (textBody_spec report narrative).2, List.isEmpty_iff]
  refine and_congr_right fun _ => ?_
  constructor
  · rintro ⟨message, mail⟩
    constructor
    · intro empty complete
      exact (mail ⟨empty, complete⟩).2
    · intro empty exceeds
      apply message
      rw [(renderMessage_exceeds exceeds).2, (summary_spec report narrative).2,
        List.isEmpty_iff]
      exact empty
  · rintro ⟨counted, short⟩
    have mail : report.findings = [] ∧ report.coverage.complete = true →
        CleanAudit report :=
      fun stated => ⟨stated.2, counted stated.1 stated.2⟩
    refine ⟨?_, mail⟩
    rcases Nat.lt_or_ge limit (textSize report narrative) with exceeds | fits
    · rw [(renderMessage_exceeds exceeds).2, (summary_spec report narrative).2,
        List.isEmpty_iff]
      exact fun empty => short empty exceeds
    · rw [(renderMessage_fits fits).2, (textBody_spec report narrative).2,
        List.isEmpty_iff]
      exact mail

end Reports

section Samples

attribute [local instance] FloatFormat.integersOnly ScoreFormat.wholeNumbers

/-- A report without findings, coverage and bound on its URL. -/
def uncoveredReport : CanonicalAuditReport :=
  let report := sampleReport []
  { report with
    identity := { report.identity with
      repositoryUrl := List.replicate 4096 'a' }
    coverage := { report.coverage with
      state := .failed
      complete := false } }

theorem uncoveredReport_exceeds :
    telegramMaxMessageChars < textSize uncoveredReport none := by
  have long : utf16Len uncoveredReport.identity.repositoryUrl = 4096 := by
    rw [utf16Len, uncoveredReport, List.map_replicate, List.sum_replicate]
    rfl
  rw [telegramMaxMessageChars, textSize, long]
  omega

/-- The message says that every scanner completed where coverage is
incomplete. -/
theorem uncovered_report_stated_clean :
    StatesClean
        (messageFragments uncoveredReport none telegramMaxMessageChars) ∧
      ¬ CleanAudit uncoveredReport := by
  rw [(renderMessage_exceeds uncoveredReport_exceeds).2, (summary_spec _ _).2]
  exact ⟨rfl, fun clean => Bool.false_ne_true clean.1⟩

end Samples

end FireCrow.Services.Telegram
