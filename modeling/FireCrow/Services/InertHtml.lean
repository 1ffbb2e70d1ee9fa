import FireCrow.Schemas.NarrativeSoundness
import FireCrow.Services.Reporter

/-!
# HTML without injections

Every interpolated value of the two HTML renderings is inert, whatever the texts
of the report and the narrative.  So the tags of a document are those of its
template, and the template depends on the shape of the report only.
-/

namespace FireCrow.Services.Report

open FireCrow.Library FireCrow.Library.Fragment FireCrow.Library.Html
open FireCrow.Schemas FireCrow.Services.Email

/-! ## Escaped text is inert -/

theorem inert_entity {entity : Text} (known : entity ∈ entities) : Inert entity := by
  rw [← List.append_nil entity]
  exact .entity known .nil

theorem inert_escapeHtml (value : Text) : Inert (escapeHtml value) := by
  refine inert_flatMap fun character => ?_
  split_ifs with ampersand less greater quote apostrophe
  · exact inert_entity (by decide)
  · exact inert_entity (by decide)
  · exact inert_entity (by decide)
  · exact inert_entity (by decide)
  · exact inert_entity (by decide)
  · refine .plain ?_ .nil
    simp only [isMarkup, decide_eq_false ampersand, decide_eq_false less,
      decide_eq_false greater, decide_eq_false quote, decide_eq_false apostrophe,
      Bool.or_self]

theorem replaceChar_append (needle : Char) (replacement front back : Text) :
    replaceChar needle replacement (front ++ back) =
      replaceChar needle replacement front ++ replaceChar needle replacement back :=
  List.flatMap_append

theorem sanitizeHtmlEntities_cons (character : Char) (rest : Text) :
    sanitizeHtmlEntities (character :: rest) =
      sanitizeHtmlEntities [character] ++ sanitizeHtmlEntities rest := by
  rw [← List.singleton_append]
  simp only [sanitizeHtmlEntities, replaceChar_append]

theorem replaceChar_other {needle character : Char} (other : character ≠ needle)
    (replacement : Text) : replaceChar needle replacement [character] = [character] := by
  rw [replaceChar, List.flatMap_cons, if_neg other]
  rfl

theorem inert_sanitized_char (character : Char) :
    Inert (sanitizeHtmlEntities [character]) := by
  by_cases marked : isMarkup character = true
  · simp only [isMarkup, Bool.or_eq_true, decide_eq_true_eq] at marked
    rcases marked with (((rfl | rfl) | rfl) | rfl) | rfl
    · exact inert_entity (by decide)
    · exact inert_entity (by decide)
    · exact inert_entity (by decide)
    · exact inert_entity (by decide)
    · exact inert_entity (by decide)
  · rw [Bool.not_eq_true] at marked
    have plain := marked
    simp only [isMarkup, Bool.or_eq_false_iff, decide_eq_false_iff_not] at plain
    rcases plain with ⟨⟨⟨⟨ampersand, less⟩, greater⟩, quote⟩, apostrophe⟩
    rw [sanitizeHtmlEntities, replaceChar_other ampersand, replaceChar_other less,
      replaceChar_other greater, replaceChar_other quote,
      replaceChar_other apostrophe]
    exact .plain marked .nil

theorem inert_sanitizeHtmlEntities (value : Text) :
    Inert (sanitizeHtmlEntities value) := by
  induction value with
  | nil => exact .nil
  | cons character rest ih =>
      rw [sanitizeHtmlEntities_cons]
      exact (inert_sanitized_char character).append ih

/-! ## Numbers and names are inert -/

theorem digit_unmarked {character : Char}
    (digit : Text.isAsciiDigit character = true) : isMarkup character = false := by
  by_contra marked
  rw [Bool.not_eq_false] at marked
  simp only [isMarkup, Bool.or_eq_true, decide_eq_true_eq] at marked
  rcases marked with (((rfl | rfl) | rfl) | rfl) | rfl <;> cases digit

theorem inert_ofNat (number : Nat) : Inert (Text.ofNat number) :=
  inert_of_plain fun _ member =>
    digit_unmarked (List.all_eq_true.1 (Text.ofNat_digits number) _ member)

theorem inert_score {text : Text}
    (plain : ∀ character ∈ text,
      Text.isAsciiDigit character = true ∨ character = '.' ∨ character = '-') :
    Inert text := by
  refine inert_of_plain fun character member => ?_
  rcases plain character member with digit | rfl | rfl
  · exact digit_unmarked digit
  · rfl
  · rfl

theorem inert_ofInt (number : Int) : Inert (Text.ofInt number) :=
  inert_score fun _ => ofInt_plain number

theorem inert_yesOrNo (complete : Bool) : Inert (yesOrNo complete) := by
  cases complete <;> exact inert_of_plain (by decide)

theorem inert_severity (severity : Severity) : Inert severity.asStr := by
  cases severity <;> exact inert_of_plain (by decide)

theorem inert_coverageState (state : CoverageState) : Inert state.asStr := by
  cases state <;> exact inert_of_plain (by decide)

theorem inert_coverageStatus (status : CoverageStatus) : Inert status.asStr := by
  cases status <;> exact inert_of_plain (by decide)

/-! ## The fragments are sound -/

variable {rest : List Fragment}

theorem sound_literal {characters : List Char}
    (closed : reached .content characters = .content) (sound : SoundMarkup rest) :
    SoundMarkup (fixed (String.ofList characters).toList :: rest) :=
  (sound_cons _ _).2 ⟨closed_literal closed, sound⟩

theorem sound_data {text : Text} (inert : Inert text)
    (sound : SoundMarkup rest) : SoundMarkup (data text :: rest) :=
  (sound_cons _ _).2 ⟨inert, sound⟩

theorem sound_escaped (value : Text) (sound : SoundMarkup rest) :
    SoundMarkup (escaped value :: rest) :=
  sound_data (inert_escapeHtml value) sound

theorem succeededHtml_sound (scanner : Text) : SoundMarkup (succeededHtml scanner) :=
  sound_literal rfl <| sound_escaped _ <|
    sound_literal rfl sound_nil

theorem failedHtml_sound (entry : Text × Text) : SoundMarkup (failedHtml entry) :=
  sound_literal rfl <| sound_escaped _ <|
    sound_literal rfl <| sound_escaped _ <|
      sound_literal rfl sound_nil

theorem severityHtml_sound (entry : Text × Nat) : SoundMarkup (severityHtml entry) :=
  sound_literal rfl <| sound_escaped _ <|
    sound_literal rfl <| sound_data (inert_ofNat _) <|
      sound_literal rfl sound_nil

theorem evidenceHtml_sound (evidence : Text) : SoundMarkup (evidenceHtml evidence) :=
  sound_ite sound_nil <| sound_literal rfl <|
    sound_escaped _ <| sound_literal rfl sound_nil

theorem remediationHtml_sound (remediation : Text) :
    SoundMarkup (Email.remediationHtml remediation) :=
  sound_literal rfl <| sound_escaped _ <|
    sound_literal rfl sound_nil

theorem explanationHtml_sound (explanation : FindingExplanation) :
    SoundMarkup (explanationHtml explanation) :=
  sound_literal rfl <| sound_escaped _ <|
    sound_literal rfl <| sound_escaped _ <|
      sound_literal rfl sound_nil

theorem limitationHtml_sound (limitation : Text) : SoundMarkup (limitationHtml limitation) :=
  sound_literal rfl <| sound_escaped _ <|
    sound_literal rfl sound_nil

theorem sound_enclosed {opening closing : List Char} {fragments : List Fragment}
    (first : reached .content opening = .content)
    (last : reached .content closing = .content) (sound : SoundMarkup fragments) :
    SoundMarkup (fixed (String.ofList opening).toList :: fragments ++
      [fixed (String.ofList closing).toList]) := by
  rw [List.cons_append]
  exact sound_literal first
    ((sound_append _ _).2 ⟨sound, sound_literal last sound_nil⟩)

theorem narrativeHtml_sound (narrative : ReportNarrative) :
    SoundMarkup (narrativeHtml narrative) := by
  rw [narrativeHtml, sound_append, sound_append]
  refine ⟨⟨?_, sound_ite sound_nil ?_⟩, sound_ite sound_nil ?_⟩
  · exact sound_literal rfl <| sound_literal rfl <|
      sound_escaped _ <| sound_literal rfl sound_nil
  · exact sound_enclosed rfl rfl
      (sound_flatMap explanationHtml_sound)
  · exact sound_enclosed rfl rfl
      (sound_flatMap limitationHtml_sound)

theorem sound_sanitized (value : Text) (sound : SoundMarkup rest) :
    SoundMarkup (sanitized value :: rest) :=
  sound_data (inert_sanitizeHtmlEntities value) sound

theorem inert_getD_sanitized (value : Option Text) :
    Inert ((value.map sanitizeHtmlEntities).getD "unavailable") := by
  cases value with
  | none => exact inert_of_plain (by decide)
  | some value => exact inert_sanitizeHtmlEntities value

theorem inert_none : Inert "(none)" := inert_of_plain (by decide)

theorem inert_listed (empty : Bool) (value : Text) :
    Inert (if empty then "(none)" else sanitizeHtmlEntities value) := by
  cases empty with
  | false => exact inert_sanitizeHtmlEntities value
  | true => exact inert_none

theorem itemHtml_sound (item : Text) : SoundMarkup (itemHtml item) :=
  sound_literal rfl <| sound_sanitized _ <| sound_literal rfl sound_nil

theorem reportRemediationHtml_sound (remediation : Text) :
    SoundMarkup (Report.remediationHtml remediation) :=
  sound_literal rfl <| sound_sanitized _ <| sound_literal rfl sound_nil

theorem identityRow_sound {label value : Text} (closed : Closed label)
    (inert : Inert value) : SoundMarkup (identityRow (label, value)) :=
  sound_literal rfl <| (sound_cons _ _).2 ⟨closed, sound_literal rfl <|
    sound_data inert <| sound_literal rfl sound_nil⟩

theorem scoreHtml_sound [ScoreFormat] (score : Option ℚ) : SoundMarkup (scoreHtml score) := by
  cases score with
  | none => exact sound_literal rfl <| sound_literal rfl sound_nil
  | some value =>
      exact sound_literal rfl <|
        sound_data (inert_score (ScoreFormat.tenths_plain value)) <|
          sound_literal rfl sound_nil

/-! ## One shape, one template -/

/-- Two narratives with lists of the same lengths. -/
structure NarrativeShape (first second : ReportNarrative) : Prop where
  explanations : first.findingExplanations.length = second.findingExplanations.length
  limitations : first.limitations.length = second.limitations.length

theorem evidenceHtml_template {first second : Text}
    (blank : first.trim.isEmpty = second.trim.isEmpty) :
    template (evidenceHtml first) = template (evidenceHtml second) := by
  rw [evidenceHtml, evidenceHtml, blank]
  split <;> rfl

theorem narrativeHtml_template {first second : ReportNarrative}
    (same : NarrativeShape first second) :
    template (narrativeHtml first) = template (narrativeHtml second) := by
  rw [narrativeHtml, narrativeHtml, isEmpty_of_length same.explanations,
    isEmpty_of_length same.limitations]
  simp only [template_append, template_fixed, template_data, template_nil, escaped]
  congr 1
  · congr 1
    split
    · rfl
    · simp only [template_append, template_fixed, template_nil]
      rw [template_flatMap_of_length same.explanations (fun _ _ => rfl)]
  · split
    · rfl
    · simp only [template_append, template_fixed, template_nil]
      rw [template_flatMap_of_length same.limitations (fun _ _ => rfl)]

theorem narrative_template {first second : Option ReportNarrative}
    (same : Option.Rel NarrativeShape first second) :
    template (first.toList.flatMap narrativeHtml) =
      template (second.toList.flatMap narrativeHtml) := by
  cases same with
  | none => rfl
  | some shape =>
      refine template_flatMap (.cons ?_ .nil)
      exact narrativeHtml_template shape

theorem scoreHtml_template [ScoreFormat] {first second : Option ℚ}
    (same : first.isSome = second.isSome) :
    template (scoreHtml first) = template (scoreHtml second) := by
  cases first with
  | none =>
      cases second with
      | none => rfl
      | some value => cases same
  | some value =>
      cases second with
      | none => cases same
      | some other => rfl

section Rendering

variable [FloatFormat]

variable (report : CanonicalAuditReport)

theorem headerHtml_sound : SoundMarkup (headerHtml report) :=
  sound_literal rfl <| sound_literal rfl <|
    sound_escaped _ <| sound_literal rfl <| sound_escaped _ <|
      sound_literal rfl <| sound_escaped _ <|
        sound_literal rfl <| sound_data (inert_ofInt _) <|
          sound_literal rfl <| sound_escaped _ <|
            sound_literal rfl sound_nil

theorem coverageHtml_sound : SoundMarkup (Email.coverageHtml report) := by
  rw [Email.coverageHtml]
  simp only [sound_append]
  refine ⟨⟨⟨⟨?_, sound_ite ?_ sound_nil⟩, sound_flatMap succeededHtml_sound⟩,
    sound_flatMap failedHtml_sound⟩, ?_⟩
  · exact sound_literal rfl sound_nil
  · exact sound_literal rfl sound_nil
  · exact sound_literal rfl <| sound_literal rfl <|
      sound_data (inert_yesOrNo _) <| sound_literal rfl sound_nil

theorem findingHtml_sound (finding : CanonicalAuditFinding) :
    SoundMarkup (Email.findingHtml finding) := by
  rw [Email.findingHtml]
  simp only [sound_append]
  refine ⟨⟨⟨?_, evidenceHtml_sound _⟩, sound_flatMap remediationHtml_sound⟩, ?_⟩
  · exact sound_literal rfl <| sound_escaped _ <|
      sound_literal rfl <| sound_escaped _ <|
        sound_literal rfl <| sound_escaped _ <|
          sound_literal rfl <| sound_escaped _ <|
            sound_literal rfl <| sound_escaped _ <|
              sound_literal rfl <| sound_escaped _ <|
                sound_literal rfl sound_nil
  · exact sound_literal rfl sound_nil

theorem findingsHtml_sound : SoundMarkup (Email.findingsHtml report) := by
  rw [Email.findingsHtml, sound_append]
  refine ⟨sound_ite ?_ sound_nil, sound_flatMap findingHtml_sound⟩
  split
  · exact sound_literal rfl sound_nil
  · exact sound_literal rfl sound_nil

theorem limitationsHtml_sound : SoundMarkup (Email.limitationsHtml report) := by
  rw [Email.limitationsHtml]
  refine sound_ite sound_nil ?_
  exact sound_enclosed rfl rfl
    (sound_flatMap limitationHtml_sound)

theorem identityRows_sound {entry : Text × Text}
    (member : entry ∈ identityRows report) : SoundMarkup (identityRow entry) := by
  simp only [identityRows, List.mem_cons, List.not_mem_nil, or_false] at member
  rcases member with rfl | rfl | rfl | rfl | rfl | rfl | rfl | rfl | rfl | rfl | rfl
  · exact identityRow_sound (closed_literal rfl) (inert_sanitizeHtmlEntities _)
  · exact identityRow_sound (closed_literal rfl) (inert_sanitizeHtmlEntities _)
  · exact identityRow_sound (closed_literal rfl) (inert_ofInt _)
  · exact identityRow_sound (closed_literal rfl) (inert_sanitizeHtmlEntities _)
  · exact identityRow_sound (closed_literal rfl) (inert_sanitizeHtmlEntities _)
  · exact identityRow_sound (closed_literal rfl) (inert_getD_sanitized _)
  · exact identityRow_sound (closed_literal rfl) (inert_ofNat _)
  · exact identityRow_sound (closed_literal rfl) (inert_ofNat _)
  · exact identityRow_sound (closed_literal rfl) (inert_coverageState _)
  · exact identityRow_sound (closed_literal rfl) (inert_ofNat _)
  · exact identityRow_sound (closed_literal rfl) (inert_ofNat _)

theorem identityHtml_sound : SoundMarkup (identityHtml report) := by
  rw [identityHtml, sound_append, sound_append]
  refine ⟨⟨?_, ?_⟩, sound_literal rfl sound_nil⟩
  · exact sound_literal rfl <| sound_literal rfl <| sound_literal rfl <|
      sound_literal rfl <| sound_literal rfl <| sound_literal rfl sound_nil
  · intro fragment member
    rw [List.mem_flatMap] at member
    rcases member with ⟨entry, row, inside⟩
    exact identityRows_sound report row fragment inside

theorem reportCoverageHtml_sound : SoundMarkup (Report.coverageHtml report) :=
  sound_literal rfl <| sound_literal rfl <| sound_data (inert_coverageStatus _) <|
    sound_literal rfl <| sound_literal rfl <| sound_data (inert_yesOrNo _) <|
      sound_literal rfl <| sound_literal rfl <| sound_data (inert_listed _ _) <|
        sound_literal rfl <| sound_literal rfl <| sound_data (inert_listed _ _) <|
          sound_literal rfl <| sound_literal rfl sound_nil

theorem reportLimitationsHtml_sound :
    SoundMarkup (Report.limitationsHtml report) := by
  rw [Report.limitationsHtml, sound_append, sound_append]
  exact ⟨⟨sound_literal rfl sound_nil, sound_ite (sound_literal rfl sound_nil)
    (sound_flatMap itemHtml_sound)⟩, sound_literal rfl sound_nil⟩

theorem reportFindingHtml_sound (index : Nat) (finding : CanonicalAuditFinding) :
    SoundMarkup (Report.findingHtml index finding) := by
  rw [Report.findingHtml, sound_append]
  refine ⟨?_, sound_flatMap reportRemediationHtml_sound⟩
  exact sound_literal rfl <| sound_data (inert_ofNat _) <| sound_literal rfl <|
    sound_sanitized _ <| sound_literal rfl <| sound_data (inert_severity _) <|
      sound_literal rfl <| sound_literal rfl <| sound_sanitized _ <|
        sound_literal rfl <| sound_literal rfl <| sound_sanitized _ <|
          sound_literal rfl <| sound_literal rfl <| sound_sanitized _ <|
            sound_literal rfl <| sound_literal rfl <| sound_sanitized _ <|
              sound_literal rfl <| sound_data (inert_ofInt _) <|
                sound_literal rfl <| sound_literal rfl <| sound_sanitized _ <|
                  sound_literal rfl sound_nil

theorem reportFindingsHtml_sound :
    SoundMarkup (Report.findingsHtml report) := by
  rw [Report.findingsHtml, sound_append, sound_append]
  refine ⟨⟨?_, sound_ite (sound_literal rfl sound_nil) sound_nil⟩,
    sound_flatMap fun entry => reportFindingHtml_sound entry.2 entry.1⟩
  exact sound_literal rfl <| sound_data (inert_ofNat _) <|
    sound_literal rfl sound_nil

theorem noticesHtml_sound : SoundMarkup (noticesHtml report) := by
  rw [noticesHtml, sound_append, sound_append]
  exact ⟨⟨sound_literal rfl sound_nil, sound_flatMap itemHtml_sound⟩,
    sound_literal rfl <| sound_literal rfl sound_nil⟩

/-! ### One shape -/

/-- Lists of the same lengths, and options present in both reports or in none. -/
structure SameShape (first second : CanonicalAuditReport) : Prop where
  complete : first.coverage.complete = second.coverage.complete
  successful : first.coverage.successfulScanners.length =
    second.coverage.successfulScanners.length
  unsuccessful : first.coverage.unsuccessfulScanners.entries.length =
    second.coverage.unsuccessfulScanners.entries.length
  severities : first.summary.findingsBySeverity.entries.length =
    second.summary.findingsBySeverity.entries.length
  score : first.summary.securityScore.isSome = second.summary.securityScore.isSome
  findings : List.Forall₂
    (fun left right => left.remediation.isSome = right.remediation.isSome)
    first.findings second.findings
  limitations : first.limitations.length = second.limitations.length
  disclaimers : first.disclaimers.length = second.disclaimers.length

/-- The same findings have blank evidence. -/
def SameBlanks (first second : CanonicalAuditReport) : Prop :=
  List.Forall₂
    (fun left right => left.evidence.trim.isEmpty = right.evidence.trim.isEmpty)
    first.findings second.findings

variable {first second : CanonicalAuditReport}

theorem noScanners_of_shape
    (same : SameShape first second) : noScanners first = noScanners second := by
  rw [noScanners, noScanners, isEmpty_of_length same.successful,
    isEmpty_of_length same.unsuccessful]

theorem coverageHtml_template (same : SameShape first second) :
    template (Email.coverageHtml first) = template (Email.coverageHtml second) := by
  rw [Email.coverageHtml, Email.coverageHtml, noScanners_of_shape same]
  simp only [template_append, template_fixed, template_data, template_nil]
  rw [template_flatMap_of_length same.successful (fun _ _ => rfl),
    template_flatMap_of_length same.unsuccessful (fun _ _ => rfl)]

theorem findingHtml_template {first second : CanonicalAuditFinding}
    (remediation : first.remediation.isSome = second.remediation.isSome)
    (blank : first.evidence.trim.isEmpty = second.evidence.trim.isEmpty) :
    template (Email.findingHtml first) = template (Email.findingHtml second) := by
  rw [Email.findingHtml, Email.findingHtml]
  simp only [template_append, template_fixed, template_data, template_nil, escaped]
  rw [evidenceHtml_template blank, template_toList remediation (fun _ _ => rfl)]

theorem findingsHtml_template
    (same : SameShape first second) (blanks : SameBlanks first second) :
    template (Email.findingsHtml first) = template (Email.findingsHtml second) := by
  have each : List.Forall₂
      (fun left right => template (Email.findingHtml left) =
        template (Email.findingHtml right)) first.findings second.findings := by
    rw [List.forall₂_iff_get]
    refine ⟨same.findings.length_eq, fun index left right => ?_⟩
    exact findingHtml_template ((List.forall₂_iff_get.1 same.findings).2 _ left right)
      ((List.forall₂_iff_get.1 blanks).2 _ left right)
  rw [Email.findingsHtml, Email.findingsHtml, same.complete,
    isEmpty_of_length same.findings.length_eq, template_append, template_append,
    template_flatMap each]

theorem limitationsHtml_template (same : SameShape first second) :
    template (Email.limitationsHtml first) =
      template (Email.limitationsHtml second) := by
  rw [Email.limitationsHtml, Email.limitationsHtml,
    isEmpty_of_length same.limitations]
  split
  · rfl
  · simp only [template_append, template_fixed, template_nil]
    rw [template_flatMap_of_length same.limitations (fun _ _ => rfl)]

/-! ### The template of the presentation -/

theorem reportFindingHtml_template {first second : CanonicalAuditFinding}
    (remediation : first.remediation.isSome = second.remediation.isSome)
    (index : Nat) :
    template (Report.findingHtml index first) =
      template (Report.findingHtml index second) := by
  rw [Report.findingHtml, Report.findingHtml]
  simp only [template_append, template_fixed, template_data, sanitized, template_nil]
  rw [template_toList remediation (fun _ _ => rfl)]

theorem numbered_shape {first second : List CanonicalAuditFinding}
    (same : List.Forall₂
      (fun left right => left.remediation.isSome = right.remediation.isSome)
      first second) (start : Nat) :
    List.Forall₂
      (fun left right => template (Report.findingHtml left.2 left.1) =
        template (Report.findingHtml right.2 right.1))
      (first.zipIdx start) (second.zipIdx start) := by
  induction same generalizing start with
  | nil => exact .nil
  | cons here _ ih =>
      rw [List.zipIdx_cons, List.zipIdx_cons]
      exact .cons (reportFindingHtml_template here start) (ih (start + 1))

section

variable (same : SameShape first second)
include same

theorem reportFindingsHtml_template :
    template (Report.findingsHtml first) = template (Report.findingsHtml second) := by
  rw [Report.findingsHtml, Report.findingsHtml,
    isEmpty_of_length same.findings.length_eq]
  simp only [template_append, template_fixed, template_data, template_nil]
  rw [template_flatMap (numbered_shape same.findings 0)]

theorem reportLimitationsHtml_template :
    template (Report.limitationsHtml first) =
      template (Report.limitationsHtml second) := by
  rw [Report.limitationsHtml, Report.limitationsHtml,
    isEmpty_of_length same.limitations]
  simp only [template_append]
  split
  · rfl
  · rw [template_flatMap_of_length same.limitations (fun _ _ => rfl)]

theorem noticesHtml_template :
    template (noticesHtml first) = template (noticesHtml second) := by
  rw [noticesHtml, noticesHtml]
  simp only [template_append]
  rw [template_flatMap_of_length same.disclaimers (fun _ _ => rfl)]

end

theorem identityHtml_template (first second : CanonicalAuditReport) :
    template (identityHtml first) = template (identityHtml second) := by
  simp only [identityHtml, identityRows, identityRow, List.flatMap_cons,
    List.flatMap_nil, template_append, template_fixed, template_data, template_nil]

theorem reportCoverageHtml_template (first second : CanonicalAuditReport) :
    template (Report.coverageHtml first) = template (Report.coverageHtml second) := by
  simp only [Report.coverageHtml, template_fixed, template_data, template_nil]

variable [ScoreFormat]

theorem summaryHtml_sound : SoundMarkup (Email.summaryHtml report) := by
  rw [Email.summaryHtml]
  simp only [sound_append]
  refine ⟨⟨?_, sound_flatMap severityHtml_sound⟩, ?_⟩
  · exact sound_literal rfl <| sound_literal rfl <|
      sound_data (inert_ofNat _) <| sound_literal rfl sound_nil
  · exact sound_literal rfl <| sound_literal rfl <|
      sound_escaped _ <| sound_literal rfl sound_nil

theorem htmlFragments_sound
    (narrative : Option ReportNarrative) : SoundMarkup (htmlFragments report narrative) := by
  simp only [htmlFragments, sound_append]
  exact ⟨⟨⟨⟨⟨headerHtml_sound report, coverageHtml_sound report⟩,
    summaryHtml_sound report⟩, findingsHtml_sound report⟩,
    sound_flatMap narrativeHtml_sound⟩, limitationsHtml_sound report⟩

theorem reportSummaryHtml_sound : SoundMarkup (Report.summaryHtml report) := by
  rw [Report.summaryHtml, sound_append, sound_append]
  refine ⟨⟨?_, scoreHtml_sound _⟩, sound_literal rfl sound_nil⟩
  exact sound_literal rfl <| sound_literal rfl <| sound_sanitized _ <|
    sound_literal rfl <| sound_literal rfl <| sound_literal rfl <|
      sound_data (inert_ofNat _) <| sound_literal rfl <| sound_literal rfl <|
        sound_data (inert_ofNat _) <| sound_literal rfl <| sound_literal rfl <|
          sound_data (inert_ofNat _) <| sound_literal rfl sound_nil

theorem renderedFragments_sound : SoundMarkup (renderedFragments report) := by
  simp only [renderedFragments, sound_append]
  exact ⟨⟨⟨⟨⟨identityHtml_sound report, reportSummaryHtml_sound report⟩,
    reportCoverageHtml_sound report⟩, reportLimitationsHtml_sound report⟩,
    reportFindingsHtml_sound report⟩, noticesHtml_sound report⟩

section

variable (same : SameShape first second)
include same

theorem summaryHtml_template :
    template (Email.summaryHtml first) = template (Email.summaryHtml second) := by
  rw [Email.summaryHtml, Email.summaryHtml]
  simp only [template_append, template_fixed, template_data, template_nil, escaped]
  rw [template_flatMap_of_length same.severities (fun _ _ => rfl)]

theorem htmlFragments_template {narrative other : Option ReportNarrative}
    (blanks : SameBlanks first second)
    (prose : Option.Rel NarrativeShape narrative other) :
    template (htmlFragments first narrative) =
      template (htmlFragments second other) := by
  have header : template (headerHtml first) = template (headerHtml second) := by
    simp only [headerHtml, template_fixed, template_data, template_nil, escaped]
  simp only [htmlFragments, template_append]
  rw [header, coverageHtml_template same, summaryHtml_template same,
    findingsHtml_template same blanks, narrative_template prose,
    limitationsHtml_template same]

theorem reportSummaryHtml_template :
    template (Report.summaryHtml first) = template (Report.summaryHtml second) := by
  rw [Report.summaryHtml, Report.summaryHtml]
  simp only [template_append, template_fixed, template_data, template_nil, sanitized]
  rw [scoreHtml_template same.score]

theorem renderedFragments_template :
    template (renderedFragments first) = template (renderedFragments second) := by
  simp only [renderedFragments, template_append]
  rw [identityHtml_template first second, reportSummaryHtml_template same,
    reportCoverageHtml_template first second, reportLimitationsHtml_template same,
    reportFindingsHtml_template same, noticesHtml_template same]

end

/-! ## Both renderings -/

/-- Two reports of one shape, and two narratives of one shape, have the same tags
in the presentation, and in the e-mail where the same findings have blank
evidence; every interpolated value is inert. -/
theorem html_tags_of_shape {first second : CanonicalAuditReport}
    {narrative other : Option ReportNarrative} (same : SameShape first second)
    (prose : Option.Rel NarrativeShape narrative other) :
    tags (renderHtml first) = tags (renderHtml second) ∧
      (SameBlanks first second →
        tags (htmlBody first narrative) = tags (htmlBody second other)) ∧
      (∀ text, data text ∈ renderedFragments first → Inert text) ∧
      ∀ text, data text ∈ htmlFragments first narrative → Inert text := by
  refine ⟨?_, ?_, fun text member => renderedFragments_sound first _ member,
    fun text member => htmlFragments_sound first narrative _ member⟩
  · exact tags_eq_of_template (renderedFragments_template same)
      (renderedFragments_sound first) (renderedFragments_sound second)
  · intro blanks
    exact tags_eq_of_template (htmlFragments_template same blanks prose)
      (htmlFragments_sound first narrative) (htmlFragments_sound second other)

end Rendering

section Samples

attribute [local instance] FloatFormat.integersOnly ScoreFormat.wholeNumbers

/-- A report with one finding. -/
def mailedReport (evidence : Text) : CanonicalAuditReport :=
  sampleReport [{ sampleFinding none none with evidence := evidence }]

theorem mailedReport_shape (first second : Text) :
    SameShape (mailedReport first) (mailedReport second) :=
  ⟨rfl, rfl, rfl, rfl, rfl, .cons rfl .nil, rfl, rfl⟩

/-- Texts with markup leave the tags as they are. -/
theorem html_tags_of_shape_script :
    SameShape (mailedReport "<script>") (mailedReport "x") ∧
      SameBlanks (mailedReport "<script>") (mailedReport "x") ∧
      tags (htmlBody (mailedReport "<script>") none) =
        tags (htmlBody (mailedReport "x") none) := by
  have blanks : SameBlanks (mailedReport "<script>") (mailedReport "x") :=
    .cons (by decide +kernel) .nil
  exact ⟨mailedReport_shape _ _, blanks,
    (html_tags_of_shape (mailedReport_shape _ _) .none).2.1 blanks⟩

/-- The e-mail leaves out an entry of a list where evidence is blank. -/
theorem blank_evidence_hidden :
    SameShape (mailedReport "") (mailedReport "x") ∧
      tags (htmlBody (mailedReport "") none) ≠
        tags (htmlBody (mailedReport "x") none) :=
  ⟨mailedReport_shape _ _, by decide +kernel⟩

end Samples

end FireCrow.Services.Report
