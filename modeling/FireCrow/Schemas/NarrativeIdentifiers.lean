import FireCrow.Schemas.NarrativeSoundness

/-!
# Identifiers of the report in prose

A narrative that mentions identifiers of its report, between separators, is
refused for an invented classification exactly when a token of a mentioned
identifier is not itself among the collected ones.
-/

namespace FireCrow.Schemas

open FireCrow.Library FireCrow.Services

/-- A text somewhere in a JSON value. -/
inductive JsonHolds [FloatFormat] (text : Text) : Json → Prop where
  | string : JsonHolds text (.string text)
  | array {items item} : item ∈ items → JsonHolds text item →
      JsonHolds text (.array items)
  | object {members key value} : (key, value) ∈ members →
      JsonHolds text value → JsonHolds text (.object members)

section Mentions

variable [FloatFormat]

/-- An identifier that the report itself carries. -/
inductive Carries (report : CanonicalAuditReport) (identifier : Text) :
    Prop where
  | cwe {finding} : finding ∈ report.findings →
      finding.cweId = some identifier → Carries report identifier
  | owasp {finding} : finding ∈ report.findings →
      finding.owaspCategory = some identifier → Carries report identifier
  | rule {finding} : finding ∈ report.findings →
      identifier <:+: finding.provenance.ruleId → Carries report identifier
  | metadata {finding text} : finding ∈ report.findings →
      JsonHolds text (.object finding.scannerMetadata.entries) →
      identifier <:+: text → Carries report identifier

variable [tables : UnicodeTables] {report : CanonicalAuditReport}
  {narrative : ReportNarrative}

/-- Prose that mentions identifiers of the report between separators, and no
other classification. -/
inductive Prose (report : CanonicalAuditReport) : Text → List Text → Prop where
  | plain {text} : proseIdentifiers text = [] → Prose report text []
  | mention {before identifier after mentions} :
      proseIdentifiers before = [] → EndsApart before →
      Carries report identifier → BeginsApart after →
      Prose report after mentions →
      Prose report (before ++ identifier ++ after) (identifier :: mentions)

/-- The tokens of prose are those of its mentions. -/
theorem Prose.proseIdentifiers_eq {text : Text} {mentions : List Text}
    (prose : Prose report text mentions) :
    proseIdentifiers text = mentions.flatMap proseIdentifiers := by
  induction prose with
  | plain none => exact none
  | mention none ends _ begins _ ih =>
      rw [proseIdentifiers_append ends begins, none, ih, List.nil_append,
        List.flatMap_cons]

/-- Every token of the identifier that looks like a classification is one that
was collected from the report. -/
def Resolves (report : CanonicalAuditReport) (identifier : Text) : Prop :=
  ∀ token ∈ proseIdentifiers identifier, token ∈ canonicalIdentifiers report

/-- With some collection of identifiers the narrative would be accepted. -/
def OtherwiseValid (report : CanonicalAuditReport)
    (narrative : ReportNarrative) : Prop :=
  validateStructure report narrative = .ok () ∧
    ∃ knownIdentifiers,
      validateProse report narrative knownIdentifiers = .ok narrative

/-- The refusal of a classification. -/
def Invents {Result : Type} (outcome : Except NarrativeStop Result) : Prop :=
  ∃ identifier,
    outcome = .error (.violation (.inventedClassification identifier))

omit [FloatFormat] tables in
theorem checkIdentifiers_cases (knownIdentifiers identifiers : List Text) :
    checkIdentifiers knownIdentifiers identifiers = .ok () ∨
      Invents (checkIdentifiers knownIdentifiers identifiers) := by
  induction identifiers with
  | nil => exact Or.inl rfl
  | cons identifier rest ih =>
      by_cases known : identifier ∈ knownIdentifiers
      · have passes : forbid (identifier ∉ knownIdentifiers)
            (.inventedClassification identifier) = .ok () :=
          if_neg (not_not.2 known)
        rw [checkIdentifiers, passes]
        exact ih
      · have stops : forbid (identifier ∉ knownIdentifiers)
            (.inventedClassification identifier) =
              .error (.violation (.inventedClassification identifier)) :=
          if_pos known
        rw [checkIdentifiers, stops]
        exact Or.inr ⟨identifier, rfl⟩

/-- Other identifiers change only the last rule on a text. -/
theorem checkText_of_ok {knownIdentifiers : List Text} {text : Text}
    (accepted : checkText report knownIdentifiers text = .ok ())
    (others : List Text) :
    checkText report others text =
      checkIdentifiers others (proseIdentifiers text) := by
  simp only [checkText, Result.then_eq_ok] at accepted
  rcases accepted with ⟨secret, location, clear, coverage, _⟩
  simp only [checkText, secret, location, clear, coverage]
  rfl

theorem checkTexts_cases {knownIdentifiers texts : List Text}
    (accepted : ∀ text ∈ texts, checkText report knownIdentifiers text = .ok ())
    (others : List Text) :
    checkTexts report others texts = .ok () ∨
      Invents (checkTexts report others texts) := by
  induction texts with
  | nil => exact Or.inl rfl
  | cons text rest ih =>
      have here := checkText_of_ok (accepted text List.mem_cons_self) others
      rw [checkTexts, here]
      rcases checkIdentifiers_cases others (proseIdentifiers text) with
        known | ⟨identifier, unknown⟩
      · rw [known]
        exact ih fun other member => accepted other (List.mem_cons_of_mem _ member)
      · rw [unknown]
        exact Or.inr ⟨identifier, rfl⟩

/-- A narrative that is otherwise valid is refused only for a token that was
not collected. -/
theorem OtherwiseValid.invents_iff
    (otherwise : OtherwiseValid report narrative) :
    ¬ Invents (validateNarrative report narrative) ↔
      ∀ text ∈ narrative.texts, ∀ token ∈ proseIdentifiers text,
        token ∈ canonicalIdentifiers report := by
  rcases otherwise with ⟨shaped, knownIdentifiers, accepted⟩
  simp only [validateProse, Result.then_eq_ok, checkTexts_eq_ok] at accepted
  rcases accepted with ⟨texts, remediation, scanners, confidence, _⟩
  have outcome : validateNarrative report narrative = (do
      checkTexts report (canonicalIdentifiers report) narrative.texts
      return narrative) := by
    simp only [validateNarrative, shaped, validateProse, remediation, scanners,
      confidence]
    rfl
  have known_iff : checkTexts report (canonicalIdentifiers report)
      narrative.texts = .ok () ↔
        ∀ text ∈ narrative.texts, ∀ token ∈ proseIdentifiers text,
          token ∈ canonicalIdentifiers report := by
    rw [checkTexts_eq_ok]
    refine forall₂_congr fun text member => ?_
    rw [checkText_of_ok (texts text member), checkIdentifiers_eq_ok]
  rw [← known_iff, outcome]
  rcases checkTexts_cases texts (canonicalIdentifiers report) with
    known | ⟨identifier, unknown⟩
  · rw [known]
    refine ⟨fun _ => rfl, fun _ => ?_⟩
    rintro ⟨_, same⟩
    cases same
  · rw [unknown]
    refine ⟨fun accepted => absurd ⟨identifier, rfl⟩ accepted, ?_⟩
    intro same
    cases same

end Mentions

/-- For every report and every otherwise valid narrative whose prose mentions
identifiers of the report only, between separators: none is refused as an
invented classification exactly when every token of a mentioned identifier
that looks like a classification was collected from the report. -/
theorem own_identifiers_iff [FloatFormat] [UnicodeTables]
    {report : CanonicalAuditReport} {narrative : ReportNarrative}
    (otherwise : OtherwiseValid report narrative)
    (prose : ∀ text ∈ narrative.texts,
      ∃ mentions, Prose report text mentions) :
    (∀ identifier, validateNarrative report narrative ≠
        .error (.violation (.inventedClassification identifier))) ↔
      ∀ text ∈ narrative.texts, ∀ mentions, Prose report text mentions →
        ∀ identifier ∈ mentions, Resolves report identifier := by
  have refused : (∀ identifier, validateNarrative report narrative ≠
      .error (.violation (.inventedClassification identifier))) ↔
        ¬ Invents (validateNarrative report narrative) :=
    not_exists.symm
  rw [refused, otherwise.invents_iff]
  constructor
  · intro known text member mentions mentioned identifier inside token found
    refine known text member token ?_
    rw [mentioned.proseIdentifiers_eq]
    exact List.mem_flatMap.2 ⟨identifier, inside, found⟩
  · intro resolves text member token found
    rcases prose text member with ⟨mentions, mentioned⟩
    rw [mentioned.proseIdentifiers_eq] at found
    rcases List.mem_flatMap.1 found with ⟨identifier, inside, occurs⟩
    exact resolves text member mentions mentioned identifier inside token occurs

section Samples

attribute [local instance] UnicodeTables.ascii FloatFormat.integersOnly

/-- A report whose only category is dated. -/
def datedReport : CanonicalAuditReport :=
  sampleReport [sampleFinding none (some "A07:2021")]

def datedNarrative : ReportNarrative := sampleNarrative "This is A07:2021." []

/-- The year is no part of the token, so the category is refused as spelled by
the report. -/
theorem dated_category_refused :
    OtherwiseValid datedReport datedNarrative ∧
      (∀ text ∈ datedNarrative.texts,
        ∃ mentions, Prose datedReport text mentions) ∧
      validateNarrative datedReport datedNarrative =
        .error (.violation (.inventedClassification "A07")) := by
  refine ⟨⟨by decide, ["A07"], by decide⟩, ?_,
    by decide⟩
  intro text member
  rw [List.mem_singleton.1 member]
  have carried : Carries datedReport "A07:2021" := .owasp List.mem_cons_self rfl
  have plain : Prose datedReport ("." : Text) [] := .plain (by decide)
  exact ⟨_, @Prose.mention _ _ datedReport "This is " _ _ _ (by decide)
    (Or.inr ⟨"This is", ' ', by decide, by decide⟩) carried
    (Or.inr ⟨'.', [], by decide, by decide⟩) plain⟩

/-- A report whose only weakness is explained by name. -/
def weaknessReport : CanonicalAuditReport :=
  sampleReport [sampleFinding (some "CWE-798") none]

def weaknessNarrative : ReportNarrative := sampleNarrative "This is CWE-798." []

theorem own_identifiers_iff_weakness :
    ¬ ∃ identifier, validateNarrative weaknessReport weaknessNarrative =
      .error (.violation (.inventedClassification identifier)) := by
  have otherwise : OtherwiseValid weaknessReport weaknessNarrative :=
    ⟨by decide, ["CWE-798"], by decide⟩
  have known : ∀ token ∈ proseIdentifiers ("This is CWE-798." : Text),
      token ∈ canonicalIdentifiers weaknessReport := by
    decide
  have carried : Carries weaknessReport "CWE-798" := .cwe List.mem_cons_self rfl
  have plain : Prose weaknessReport ("." : Text) [] :=
    .plain (by decide)
  have mentioned : Prose weaknessReport ("This is CWE-798." : Text)
      ["CWE-798"] :=
    @Prose.mention _ _ weaknessReport "This is " "CWE-798" "." []
      (by decide) (Or.inr ⟨"This is", ' ', by decide, by decide⟩)
      carried (Or.inr ⟨'.', [], by decide, by decide⟩) plain
  have only : ∀ text ∈ weaknessNarrative.texts,
      text = ("This is CWE-798." : Text) :=
    fun _ member => List.mem_singleton.1 member
  refine not_exists.2
    ((own_identifiers_iff otherwise fun text member => ?_).2 ?_)
  · rw [only text member]
    exact ⟨_, mentioned⟩
  · intro text member mentions prose identifier inside token found
    refine known token ?_
    rw [← only text member, prose.proseIdentifiers_eq]
    exact List.mem_flatMap.2 ⟨identifier, inside, found⟩

end Samples

end FireCrow.Schemas
