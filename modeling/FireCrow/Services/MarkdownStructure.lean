import FireCrow.Schemas.NarrativeSoundness
import FireCrow.Services.MarkdownReport

/-!
# The structure of the Markdown presentation

Evidence cannot close its fence.  Other texts keep their place as long as no line
that they add is structural.
-/

namespace FireCrow.Services.Report

open FireCrow.Library FireCrow.Library.Markdown
open FireCrow.Schemas FireCrow.Services.Email

/-! ## Evidence -/

theorem neutralizeCodeFence_cons {character : Char} {rest : Text}
    (broken : ∀ more, character = '`' → rest ≠ '`' :: '`' :: more) :
    neutralizeCodeFence (character :: rest) =
      character :: neutralizeCodeFence rest :=
  neutralizeCodeFence.eq_2 character rest broken

theorem neutralizeCodeFence_head (character : Char) (rest : Text) :
    ∃ more, neutralizeCodeFence (character :: rest) = character :: more := by
  by_cases triple : ∃ more, character = '`' ∧ rest = '`' :: '`' :: more
  · rcases triple with ⟨more, rfl, rfl⟩
    exact ⟨_, rfl⟩
  · refine ⟨_, neutralizeCodeFence_cons fun more backtick same => ?_⟩
    exact triple ⟨more, backtick, same⟩

theorem firstLine_cons {character : Char} (other : character ≠ '\n') (rest : Text) :
    firstLine (character :: rest) = character :: firstLine rest :=
  if_neg other

theorem run_cons_self (mark : Char) (rest : Text) :
    run mark (mark :: rest) = run mark rest + 1 := by
  rw [run, List.takeWhile_cons_of_pos (by simp), List.length_cons]
  rfl

theorem run_cons_other {mark character : Char} (other : character ≠ mark)
    (rest : Text) : run mark (character :: rest) = 0 := by
  rw [run, List.takeWhile_cons_of_neg (by simp [other]), List.length_nil]

theorem run_neutralized_zero {text : Text} (other : ∀ more, text ≠ '`' :: more) :
    run '`' (firstLine (neutralizeCodeFence text)) = 0 := by
  cases text with
  | nil => rfl
  | cons character rest =>
      have backtick : character ≠ '`' := by
        rintro rfl
        exact other rest rfl
      rw [neutralizeCodeFence_cons fun more same => absurd same backtick]
      by_cases newline : character = '\n'
      · rw [newline]
        rfl
      · rw [firstLine_cons newline, run_cons_other backtick]

theorem run_neutralized_one {text : Text}
    (other : ∀ more, text ≠ '`' :: '`' :: more) :
    run '`' (firstLine (neutralizeCodeFence text)) ≤ 1 := by
  by_cases single : ∃ more, text = '`' :: more
  · rcases single with ⟨more, rfl⟩
    have alone : ∀ rest, more ≠ '`' :: rest := by
      rintro rest rfl
      exact other rest rfl
    rw [neutralizeCodeFence_cons fun rest _ same => alone _ same,
      firstLine_cons (by decide), run_cons_self, run_neutralized_zero alone]
  · rw [run_neutralized_zero fun more same => single ⟨more, same⟩]
    exact Nat.zero_le 1

variable (text : Text)

theorem run_neutralized :
    run '`' (firstLine (neutralizeCodeFence text)) < 3 := by
  cases text with
  | nil => exact Nat.zero_lt_succ 2
  | cons character rest =>
      by_cases triple : ∃ more, character = '`' ∧ rest = '`' :: '`' :: more
      · rcases triple with ⟨more, rfl, rfl⟩
        exact (by decide : 2 < 3)
      · by_cases backtick : character = '`'
        · have short : ∀ more, rest ≠ '`' :: '`' :: more := fun more same =>
            triple ⟨more, backtick, same⟩
          rw [neutralizeCodeFence_cons fun more _ => short more, backtick,
            firstLine_cons (by decide), run_cons_self]
          have further := run_neutralized_one short
          omega
        · rw [run_neutralized_zero]
          · exact Nat.zero_lt_succ 2
          · rintro more same
            exact backtick (List.cons.inj same).1

theorem run_unindented (count : Nat) (text : Text) :
    run '`' (unindent count (firstLine (neutralizeCodeFence text))) < 3 := by
  induction count generalizing text with
  | zero => exact run_neutralized text
  | succ count ih =>
      have whole := run_neutralized text
      cases text with
      | nil => exact whole
      | cons character rest =>
          by_cases blank : character = ' '
          · rw [blank, neutralizeCodeFence_cons
              (fun more same => absurd same (by decide)), firstLine_cons (by decide)]
            exact ih rest
          · rcases neutralizeCodeFence_head character rest with ⟨more, head⟩
            rw [head] at whole ⊢
            by_cases newline : character = '\n'
            · rw [newline]
              exact Nat.zero_lt_succ 2
            · rw [firstLine_cons newline] at whole ⊢
              rw [unindent.eq_2 (count + 1) (character :: firstLine more)]
              · exact whole
              · intro smaller rest same equal
                exact blank (List.cons.inj equal).1

/-- Every further line is the first of neutralized text. -/
theorem furtherLines_neutralized :
    ∀ line ∈ furtherLines (neutralizeCodeFence text),
      ∃ rest, line = firstLine (neutralizeCodeFence rest) := by
  induction text using neutralizeCodeFence.induct with
  | case1 rest ih => exact ih
  | case2 character rest broken ih =>
      intro line member
      rw [neutralizeCodeFence_cons broken] at member
      by_cases newline : character = '\n'
      · rw [newline] at member
        rcases List.mem_cons.1 member with rfl | later
        · exact ⟨rest, rfl⟩
        · exact ih line later
      · rw [furtherLines, if_neg newline] at member
        exact ih line member
  | case3 => exact fun line member => absurd member List.not_mem_nil

theorem sealed_evidence (evidence : Text) :
    ∀ line ∈ lines (neutralizeCodeFence evidence), Sealed line := by
  intro line member
  rcases List.mem_cons.1 member with rfl | later
  · exact run_unindented 3 evidence
  · rcases furtherLines_neutralized evidence line later with ⟨rest, rfl⟩
    exact run_unindented 3 rest

/-! ## The rows -/

theorem heading1_sound : SoundRow (heading1 text) :=
  ⟨by decide, fun _ => ⟨rfl, rfl⟩⟩

theorem heading2_sound : SoundRow (heading2 text) :=
  ⟨by decide, fun _ => ⟨rfl, rfl⟩⟩

theorem heading3_sound : SoundRow (heading3 text) :=
  ⟨by decide, fun _ => ⟨rfl, rfl⟩⟩

theorem entry_sound : SoundRow (entry text) := ⟨by decide, fun _ => ⟨rfl, rfl⟩⟩

theorem label_sound : SoundRow (label text) := ⟨by decide, fun _ => ⟨rfl, rfl⟩⟩

theorem noFindings_sound : SoundRow noFindings :=
  ⟨by decide, fun _ => ⟨rfl, rfl⟩⟩

theorem listed_sound {Item : Type} {row : Item → Row}
    (each : ∀ item, SoundRow (row item)) (items : List Item) :
    SoundRows (listed row items) := by
  rw [listed]
  split
  · exact .cons (entry_sound _) .nil
  · exact .map each items

theorem optionalSection_sound {Item : Type} (name : Text) {row : Item → Row}
    (each : ∀ item, SoundRow (row item)) (items : List Item) :
    SoundRows (optionalSection name row items) := by
  rw [optionalSection]
  split
  · exact .nil
  · exact .append (.append (.cons (heading2_sound _) <| .blank .nil)
      (.map each items)) (.blank .nil)

theorem labelled_sound : SoundRows [label text, .blank] :=
  .cons (label_sound text) <| .blank .nil

theorem referenceRows_sound (references : List CanonicalReference) :
    SoundRows (referenceRows references) := by
  rw [referenceRows]
  split
  · exact .nil
  · exact .append (.append (labelled_sound _) (.map (fun _ => entry_sound _) _))
      (.blank .nil)

/-! ### The structure of optional rows -/

theorem expected_listed {Item : Type} {row : Item → Row}
    (each : ∀ item, (row item).items = [.bullet]) {first second : List Item}
    (same : first.length = second.length) :
    expected (listed row first) = expected (listed row second) := by
  rw [listed, listed, isEmpty_of_length same]
  split
  · rfl
  · exact expected_map each same

theorem expected_optionalSection {Item : Type} (name : Text) {row : Item → Row}
    (each : ∀ item, (row item).items = [.bullet]) {first second : List Item}
    (same : first.length = second.length) :
    expected (optionalSection name row first) =
      expected (optionalSection name row second) := by
  rw [optionalSection, optionalSection, isEmpty_of_length same]
  split
  · rfl
  · rw [expected_append, expected_append, expected_append, expected_append,
      expected_map each same]

theorem heading1_items : (heading1 text).items = [.heading 1] := rfl

theorem heading2_items : (heading2 text).items = [.heading 2] := rfl

theorem heading3_items : (heading3 text).items = [.heading 3] := rfl

theorem entry_items : (entry text).items = [.bullet] := rfl

theorem label_items : (label text).items = [] := rfl

theorem disclaimerRow_items (disclaimer : Text) :
    (disclaimerRow disclaimer).items = [.bullet] := rfl

theorem referenceRow_items (reference : CanonicalReference) :
    (referenceRow reference).items = [.bullet] := rfl

theorem expected_referenceRows {first second : List CanonicalReference}
    (same : first.length = second.length) :
    expected (referenceRows first) = expected (referenceRows second) := by
  rw [referenceRows, referenceRows, isEmpty_of_length same]
  split
  · rfl
  · have rows : expected (first.map referenceRow) = expected (second.map referenceRow) :=
      expected_map (fun _ => referenceRow_items _) same
    rw [expected_append, expected_append, expected_append, expected_append, rows]

section Reports

variable [FloatFormat]

theorem findingHeading_sound (index : Nat) (finding : CanonicalAuditFinding) :
    SoundRows (findingHeading index finding) :=
  .cons (heading3_sound _) <| .blank <| .prose <| .blank <|
    .cons (label_sound _) <| .blank <| .cons (label_sound _) <| .blank <|
      labelled_sound _

theorem optionRows_sound (finding : CanonicalAuditFinding) :
    SoundRows (optionRows finding) :=
  .append (.append (.flatMap (fun _ => labelled_sound _) _)
    (.flatMap (fun _ => labelled_sound _) _)) (.flatMap (fun _ => labelled_sound _) _)

theorem evidenceRows_sound (finding : CanonicalAuditFinding) :
    SoundRows (evidenceRows finding) :=
  .cons (label_sound _) <| .cons (sealed_evidence finding.evidence) <| .blank .nil

theorem findingRows_sound (index : Nat) (finding : CanonicalAuditFinding) :
    SoundRows (findingRows index finding) := by
  rw [findingRows]
  exact .append (.append (.append (.append (findingHeading_sound index finding)
    (optionRows_sound finding)) (evidenceRows_sound finding))
    (.flatMap (fun _ => labelled_sound _) _)) (referenceRows_sound _)

theorem numberedRows_sound (numbered : CanonicalAuditFinding × Nat) :
    SoundRows (numberedRows numbered) :=
  findingRows_sound numbered.2 numbered.1

variable (report : CanonicalAuditReport)

theorem findingsRows_sound : SoundRows (findingsRows report) := by
  rw [findingsRows]
  refine .append (.append ?_ ?_) ?_
  · exact .cons (heading2_sound _) <| .blank .nil
  · split
    · exact .cons noFindings_sound <| .blank .nil
    · exact .nil
  · exact .flatMap numberedRows_sound _

theorem identityLines_sound : SoundRows (identityLines report) :=
  .cons (heading1_sound _) <| .blank <| .cons (heading2_sound _) <| .blank <|
    .cons (entry_sound _) <| .cons (entry_sound _) <| .cons (entry_sound _) <|
      .cons (entry_sound _) <| .cons (entry_sound _) <| .cons (entry_sound _) <|
        .cons (entry_sound _) <| .cons (entry_sound _) <| .cons (entry_sound _) <|
          .cons (entry_sound _) <| .cons (entry_sound _) <| .blank .nil

theorem countRows_sound : SoundRows (countRows report) :=
  .append (.append (.append (.append (.cons (heading3_sound _) <| .blank .nil)
    (listed_sound (fun _ => entry_sound _) _))
    (.blank <| .cons (heading3_sound _) <| .blank .nil))
    (listed_sound (fun _ => entry_sound _) _)) (.blank .nil)

theorem coverageRows_sound : SoundRows (coverageRows report) :=
  .append (.append (.cons (heading2_sound _) <| .blank <| .cons (entry_sound _) <|
    .cons (entry_sound _) <| .cons (entry_sound _) <| .cons (entry_sound _) <|
      .blank <| .cons (heading3_sound _) <| .blank .nil)
    (listed_sound (fun _ => entry_sound _) _)) (.blank .nil)

/-- Options present in both findings or in none, and as many references. -/
structure SameRows (first second : CanonicalAuditFinding) : Prop where
  cweId : first.cweId.isSome = second.cweId.isSome
  owaspCategory : first.owaspCategory.isSome = second.owaspCategory.isSome
  confidence : first.confidence.isSome = second.confidence.isSome
  remediation : first.remediation.isSome = second.remediation.isSome
  references : first.references.length = second.references.length

/-- Lists of the same lengths, and options present in both reports or in none. -/
structure MarkdownShape (first second : CanonicalAuditReport) : Prop where
  severities : first.summary.findingsBySeverity.entries.length =
    second.summary.findingsBySeverity.entries.length
  scanners : first.summary.findingsByScanner.entries.length =
    second.summary.findingsByScanner.entries.length
  limitations : first.limitations.length = second.limitations.length
  findings : List.Forall₂ SameRows first.findings second.findings
  correlations : first.correlations.length = second.correlations.length
  invalidFindings : first.invalidFindings.length = second.invalidFindings.length
  disclaimers : first.disclaimers.length = second.disclaimers.length

theorem expected_optionRows {first second : CanonicalAuditFinding}
    (same : SameRows first second) :
    expected (optionRows first) = expected (optionRows second) := by
  have weakness : expected (first.cweId.toList.flatMap weaknessRows) =
      expected (second.cweId.toList.flatMap weaknessRows) := by
    refine expected_toList ?_ same.cweId
    exact fun _ _ => rfl
  have category : expected (first.owaspCategory.toList.flatMap categoryRows) =
      expected (second.owaspCategory.toList.flatMap categoryRows) := by
    refine expected_toList ?_ same.owaspCategory
    exact fun _ _ => rfl
  have confidence :
      expected (first.confidence.toList.flatMap
        (confidenceRows first.confidenceSource)) =
      expected (second.confidence.toList.flatMap
        (confidenceRows second.confidenceSource)) := by
    refine expected_toList ?_ same.confidence
    exact fun _ _ => rfl
  rw [optionRows, optionRows]
  simp only [expected_append]
  rw [weakness, category, confidence]

theorem expected_findingRows {first second : CanonicalAuditFinding}
    (same : SameRows first second) (index : Nat) :
    expected (findingRows index first) = expected (findingRows index second) := by
  have heading : expected (findingHeading index first) =
      expected (findingHeading index second) := by
    simp only [findingHeading, expected_cons, heading3_items, label_items,
      Row.blank_items, Row.prose_items]
  have evidence : expected (evidenceRows first) = expected (evidenceRows second) := by
    simp only [evidenceRows, expected_cons, label_items, Row.fenced_items,
      Row.blank_items]
  have remediation : expected (first.remediation.toList.flatMap remediationRows) =
      expected (second.remediation.toList.flatMap remediationRows) := by
    refine expected_toList ?_ same.remediation
    exact fun _ _ => rfl
  rw [findingRows, findingRows]
  simp only [expected_append]
  rw [heading, expected_optionRows same, evidence, remediation,
    expected_referenceRows same.references]

theorem expected_numberedRows {first second : List CanonicalAuditFinding}
    (same : List.Forall₂ SameRows first second) (start : Nat) :
    List.Forall₂
      (fun left right => expected (numberedRows left) = expected (numberedRows right))
      (first.zipIdx start) (second.zipIdx start) := by
  induction same generalizing start with
  | nil => exact .nil
  | cons here _ ih =>
      rw [List.zipIdx_cons, List.zipIdx_cons]
      exact .cons (expected_findingRows here start) (ih (start + 1))

variable {first second : CanonicalAuditReport}

section

variable (same : MarkdownShape first second)
include same

theorem expected_findingsRows :
    expected (findingsRows first) = expected (findingsRows second) := by
  rw [findingsRows, findingsRows, isEmpty_of_length same.findings.length_eq]
  simp only [expected_append]
  rw [expected_flatMap (expected_numberedRows same.findings 0)]
  simp only [expected_cons, heading2_items, Row.blank_items]

theorem expected_countRows :
    expected (countRows first) = expected (countRows second) := by
  simp only [countRows, expected_append]
  rw [expected_listed (fun _ => rfl) same.severities,
    expected_listed (fun _ => rfl) same.scanners]

theorem expected_coverageRows :
    expected (coverageRows first) = expected (coverageRows second) := by
  simp only [coverageRows, expected_append]
  rw [expected_listed (fun _ => rfl) same.limitations]
  simp only [expected_cons, heading2_items, heading3_items, entry_items]

end

variable [ScoreFormat]

theorem summaryRows_sound : SoundRows (summaryRows report) :=
  .cons (heading2_sound _) <| .blank <| .prose <| .blank <|
    .cons (entry_sound _) <| .cons (entry_sound _) <| .cons (entry_sound _) <|
      .cons (entry_sound _) <| .blank .nil

theorem markdownRows_sound : SoundRows (markdownRows report) := by
  rw [markdownRows]
  refine .append (.append (.append (.append (.append (.append (.append
    (identityLines_sound report) (summaryRows_sound report))
    (countRows_sound report)) (coverageRows_sound report))
    (findingsRows_sound report)) ?_) ?_) ?_
  · exact optionalSection_sound _ (fun _ => entry_sound _) _
  · exact optionalSection_sound _ (fun _ => entry_sound _) _
  · exact .append (.append (.cons (heading2_sound _) <| .blank .nil)
      (.map (fun _ => entry_sound _) _)) (.blank .nil)

/-- The structure of the template depends on the shape only. -/
theorem expected_markdownRows (same : MarkdownShape first second) :
    expected (markdownRows first) = expected (markdownRows second) := by
  have notices : expected (first.disclaimers.map disclaimerRow) =
      expected (second.disclaimers.map disclaimerRow) :=
    expected_map disclaimerRow_items same.disclaimers
  have identity : expected (identityLines first) = expected (identityLines second) := by
    simp only [identityLines, expected_cons, heading1_items, heading2_items, entry_items]
  have summary : expected (summaryRows first) = expected (summaryRows second) := by
    simp only [summaryRows, expected_cons, heading2_items, entry_items,
      Row.blank_items, Row.prose_items]
  simp only [markdownRows, expected_append]
  rw [identity, summary, expected_countRows same, expected_coverageRows same,
    expected_findingsRows same,
    expected_optionalSection _ (fun _ => rfl) same.correlations,
    expected_optionalSection _ (fun _ => rfl) same.invalidFindings, notices]

/-- For two reports of one shape: evidence keeps its fence, the first report has
the structure of their template exactly where no line that one of its texts adds is
structural, and where that holds of the second, the two structures are the same
exactly where it holds of the first. -/
theorem markdown_structure_iff {first second : CanonicalAuditReport}
    (same : MarkdownShape first second) :
    (∀ finding ∈ first.findings,
      ∀ line ∈ lines (neutralizeCodeFence finding.evidence), Sealed line) ∧
    (structureOf (renderMarkdown first) = expected (markdownRows second) ↔
      Quiet (markdownRows first)) ∧
    (Quiet (markdownRows second) →
      (structureOf (renderMarkdown first) = structureOf (renderMarkdown second) ↔
        Quiet (markdownRows first))) := by
  have own : structureOf (renderMarkdown first) = expected (markdownRows second) ↔
      Quiet (markdownRows first) := by
    rw [← expected_markdownRows same]
    exact structureOf_document (markdownRows_sound first)
  refine ⟨fun finding _ => sealed_evidence finding.evidence, own, fun plain => ?_⟩
  have other : structureOf (renderMarkdown second) = expected (markdownRows second) :=
    (structureOf_document (markdownRows_sound second)).2 plain
  rw [other]
  exact own

end Reports

section Samples

attribute [local instance] FloatFormat.integersOnly ScoreFormat.wholeNumbers

/-- A report with one finding. -/
def describedReport (description : Text) : CanonicalAuditReport :=
  sampleReport [{ sampleFinding none none with description := description }]

theorem describedReport_shape (first second : Text) :
    MarkdownShape (describedReport first) (describedReport second) :=
  ⟨rfl, rfl, rfl, .cons ⟨rfl, rfl, rfl, rfl, rfl⟩ .nil, rfl, rfl, rfl⟩

theorem markdown_structure_iff_described :
    MarkdownShape (describedReport "x") (describedReport "y") ∧
      (structureOf (renderMarkdown (describedReport "x")) =
          expected (markdownRows (describedReport "y")) ↔
        Quiet (markdownRows (describedReport "x"))) :=
  ⟨describedReport_shape _ _, (markdown_structure_iff (describedReport_shape _ _)).2.1⟩

/-- A description adds a heading. -/
theorem described_heading_added :
    MarkdownShape (describedReport "# Cleared") (describedReport "x") ∧
      structureOf (renderMarkdown (describedReport "# Cleared")) ≠
        structureOf (renderMarkdown (describedReport "x")) :=
  ⟨describedReport_shape _ _, by decide +kernel⟩

end Samples

end FireCrow.Services.Report
