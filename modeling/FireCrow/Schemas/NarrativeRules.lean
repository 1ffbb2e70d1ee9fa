import FireCrow.Schemas.AiNarrative

/-!
# What an accepted narrative passed

An accepted narrative is the candidate itself, and it passed every rule.  The
tokens of a text are those of its parts when the parts meet at a separator.
-/

namespace FireCrow.Schemas

open FireCrow.Library FireCrow.Services

section Rules

/-! ## Rules -/

@[simp]
theorem forbid_eq_ok (condition : Prop) [Decidable condition]
    (violation : NarrativeViolation) (result : Unit) :
    forbid condition violation = .ok result ↔ ¬ condition := by
  rw [forbid, Result.refuseIf_eq_ok]

@[simp]
theorem refuse_ne_ok {Result : Type} (violation : NarrativeViolation)
    (result : Result) : refuse violation ≠ .ok result := nofun

theorem checkIdentifiers_eq_ok (knownIdentifiers identifiers : List Text) :
    checkIdentifiers knownIdentifiers identifiers = .ok () ↔
      ∀ identifier ∈ identifiers, identifier ∈ knownIdentifiers := by
  induction identifiers with
  | nil => simp [checkIdentifiers]
  | cons identifier rest ih =>
      simp [checkIdentifiers, ih]

variable [FloatFormat] {report : CanonicalAuditReport}

theorem checkSeverity_eq_ok (explanation : FindingExplanation) :
    checkSeverity report explanation = .ok () ↔
      ∀ claimed, explanation.severity = some claimed →
        ∃ canonical, severityOf report explanation.findingId = some canonical ∧
          Text.eqIgnoreAsciiCase claimed canonical.asStr = true := by
  unfold checkSeverity
  cases explanation.severity with
  | none => simp
  | some claimed =>
      cases severityOf report explanation.findingId with
      | none | some => simp

/-- What the rules say of the explanations. -/
theorem checkExplanations_eq_ok (explained : List Text)
    (explanations : List FindingExplanation) :
    checkExplanations report explained explanations = .ok () →
      (∀ explanation ∈ explanations,
        explanation.findingId ∈ knownFindings report ∧
          explanation.findingId ∉ explained ∧
          checkSeverity report explanation = .ok ()) ∧
      (explanations.map FindingExplanation.findingId).Nodup := by
  induction explanations generalizing explained with
  | nil => exact fun _ => ⟨nofun, List.nodup_nil⟩
  | cons explanation rest ih =>
      intro accepted
      simp only [checkExplanations, Result.then_eq_ok, forbid_eq_ok,
        not_not] at accepted
      rcases accepted with ⟨known, fresh, _, _, severity, further⟩
      rcases ih _ further with ⟨each, once⟩
      refine ⟨?_, ?_⟩
      · intro other member
        rcases List.mem_cons.1 member with rfl | inside
        · exact ⟨known, fresh, severity⟩
        · rcases each other inside with ⟨known, fresh, severity⟩
          exact ⟨known, fun before => fresh (List.mem_cons_of_mem _ before),
            severity⟩
      · rw [List.map_cons, List.nodup_cons]
        refine ⟨fun again => ?_, once⟩
        rcases List.mem_map.1 again with ⟨other, inside, same⟩
        exact (each other inside).2.1 (same ▸ List.mem_cons_self)

/-- What the rules say of the guidance. -/
theorem checkGuidance_eq_ok (guided : List Text)
    (guidance : List RemediationGuidance) :
    checkGuidance report guided guidance = .ok () →
      (∀ advice ∈ guidance, advice.findingId ∈ knownFindings report ∧
        advice.findingId ∉ guided ∧ advice.verified = false) ∧
      (guidance.map RemediationGuidance.findingId).Nodup := by
  induction guidance generalizing guided with
  | nil => exact fun _ => ⟨nofun, List.nodup_nil⟩
  | cons advice rest ih =>
      intro accepted
      simp only [checkGuidance, Result.then_eq_ok, forbid_eq_ok, not_not,
        Bool.not_eq_true] at accepted
      rcases accepted with ⟨known, fresh, unverified, _, _, further⟩
      rcases ih _ further with ⟨each, once⟩
      refine ⟨?_, ?_⟩
      · intro other member
        rcases List.mem_cons.1 member with rfl | inside
        · exact ⟨known, fresh, unverified⟩
        · rcases each other inside with ⟨known, fresh, unverified⟩
          exact ⟨known, fun before => fresh (List.mem_cons_of_mem _ before),
            unverified⟩
      · rw [List.map_cons, List.nodup_cons]
        refine ⟨fun again => ?_, once⟩
        rcases List.mem_map.1 again with ⟨other, inside, same⟩
        exact (each other inside).2.1 (same ▸ List.mem_cons_self)

theorem checkLimitations_eq_ok (limitations : List Text) :
    checkLimitations report limitations = .ok () ↔
      ∀ limitation ∈ limitations, limitation ∈ report.limitations := by
  induction limitations with
  | nil => simp [checkLimitations]
  | cons limitation rest ih =>
      simp [checkLimitations, ih]

variable [tables : UnicodeTables]

omit [FloatFormat] in
theorem checkLocation_eq_ok (text : Text) :
    checkLocation text = .ok () ↔ inventedLocation text = some none := by
  unfold checkLocation
  split <;> simp_all

theorem checkTexts_eq_ok (knownIdentifiers texts : List Text) :
    checkTexts report knownIdentifiers texts = .ok () ↔
      ∀ text ∈ texts, checkText report knownIdentifiers text = .ok () := by
  induction texts with
  | nil => simp [checkTexts]
  | cons text rest ih =>
      simp only [checkTexts, Result.then_eq_ok, ih, List.forall_mem_cons]

/-- What the rules say of one text. -/
theorem checkText_eq_ok {knownIdentifiers : List Text} {text : Text}
    (accepted : checkText report knownIdentifiers text = .ok ()) :
    inventedLocation text = some none ∧
      ∀ identifier ∈ proseIdentifiers text, identifier ∈ knownIdentifiers := by
  simp only [checkText, Result.then_eq_ok, checkLocation_eq_ok,
    checkIdentifiers_eq_ok] at accepted
  rcases accepted with ⟨_, located, _, _, identifiers⟩
  exact ⟨located, identifiers⟩

theorem validateNarrative_eq_ok {narrative result : ReportNarrative}
    (accepted : validateNarrative report narrative = .ok result) :
    validateStructure report narrative = .ok () ∧
      (∀ text ∈ narrative.texts,
        checkText report (canonicalIdentifiers report) text = .ok ()) ∧
      result = narrative := by
  simp only [validateNarrative, validateProse, Result.then_eq_ok,
    Result.pure_eq_ok, checkTexts_eq_ok] at accepted
  rcases accepted with ⟨shaped, texts, _, _, _, same⟩
  exact ⟨shaped, texts, same.symm⟩

end Rules

/-! ## Tokens -/

section Tokens

variable [tables : UnicodeTables]

/-- A token goes on over its characters. -/
theorem proseIdentifiersAfter_append {word : Text}
    (token : ∀ character ∈ word, isTokenCharacter character = true)
    (current rest : Text) :
    proseIdentifiersAfter current (word ++ rest) =
      proseIdentifiersAfter (current ++ word) rest := by
  induction word generalizing current with
  | nil => rw [List.nil_append, List.append_nil]
  | cons character word ih =>
      rw [List.cons_append, proseIdentifiersAfter,
        if_pos (token character List.mem_cons_self),
        ih fun other member => token other (List.mem_cons_of_mem _ member),
        List.append_assoc, List.singleton_append]

variable {separator : Char}

/-- A separator ends the token before it. -/
theorem proseIdentifiersAfter_separator
    (separates : isTokenCharacter separator = false)
    (current before rest : Text) :
    proseIdentifiersAfter current (before ++ separator :: rest) =
      proseIdentifiersAfter current (before ++ [' ']) ++
        proseIdentifiersAfter [] rest := by
  induction before generalizing current with
  | nil =>
      have blank : isTokenCharacter ' ' = false := by decide
      rw [List.nil_append, List.nil_append, proseIdentifiersAfter,
        proseIdentifiersAfter, separates, blank]
      simp [proseIdentifiersAfter]
  | cons character before ih =>
      rw [List.cons_append, List.cons_append, proseIdentifiersAfter,
        proseIdentifiersAfter]
      split
      · exact ih _
      · simp only [ih, List.append_assoc]

theorem proseIdentifiers_separator
    (separates : isTokenCharacter separator = false) (before after : Text) :
    proseIdentifiers (before ++ separator :: after) =
      proseIdentifiers before ++ proseIdentifiers after := by
  rw [proseIdentifiers, List.append_assoc, List.cons_append,
    proseIdentifiersAfter_separator separates]
  rfl

theorem proseIdentifiers_nil : proseIdentifiers [] = [] := by
  simp [proseIdentifiers, proseIdentifiersAfter, isTokenCharacter,
    Text.toUppercase, looksLikeIdentifier, Text.startsWith]

/-- The text is empty or ends with a separator. -/
def EndsApart (text : Text) : Prop :=
  text = [] ∨ ∃ init separator,
    text = init ++ [separator] ∧ isTokenCharacter separator = false

/-- The text is empty or begins with a separator. -/
def BeginsApart (text : Text) : Prop :=
  text = [] ∨ ∃ separator rest,
    text = separator :: rest ∧ isTokenCharacter separator = false

theorem proseIdentifiers_snoc
    (separates : isTokenCharacter separator = false) (text : Text) :
    proseIdentifiers (text ++ [separator]) = proseIdentifiers text := by
  rw [proseIdentifiers_separator separates, proseIdentifiers_nil,
    List.append_nil]

theorem proseIdentifiers_cons
    (separates : isTokenCharacter separator = false) (text : Text) :
    proseIdentifiers (separator :: text) = proseIdentifiers text := by
  have apart := proseIdentifiers_separator separates [] text
  rwa [proseIdentifiers_nil, List.nil_append, List.nil_append] at apart

/-- Parts that meet at separators have their own tokens. -/
theorem proseIdentifiers_append {before middle after : Text}
    (ends : EndsApart before) (begins : BeginsApart after) :
    proseIdentifiers (before ++ middle ++ after) =
      proseIdentifiers before ++ proseIdentifiers middle ++
        proseIdentifiers after := by
  have left : ∀ rest : Text, proseIdentifiers (before ++ rest) =
      proseIdentifiers before ++ proseIdentifiers rest := by
    intro rest
    rcases ends with rfl | ⟨init, separator, rfl, separates⟩
    · rw [proseIdentifiers_nil, List.nil_append, List.nil_append]
    · rw [List.append_assoc, List.singleton_append,
        proseIdentifiers_separator separates, proseIdentifiers_snoc separates]
  have right : proseIdentifiers (middle ++ after) =
      proseIdentifiers middle ++ proseIdentifiers after := by
    rcases begins with rfl | ⟨separator, rest, rfl, separates⟩
    · rw [proseIdentifiers_nil, List.append_nil, List.append_nil]
    · rw [proseIdentifiers_separator separates, proseIdentifiers_cons separates]
  rw [List.append_assoc, left, right, List.append_assoc]

/-- A text of token characters only is one token. -/
theorem proseIdentifiers_token {token : Text}
    (word : ∀ character ∈ token, isTokenCharacter character = true) :
    proseIdentifiers token =
      if looksLikeIdentifier token.toUppercase then [token.toUppercase]
      else [] := by
  have blank : isTokenCharacter ' ' = false := by decide
  rw [proseIdentifiers, proseIdentifiersAfter_append word, List.nil_append,
    proseIdentifiersAfter, blank, if_neg Bool.false_ne_true]
  simp [proseIdentifiersAfter]

end Tokens

end FireCrow.Schemas
