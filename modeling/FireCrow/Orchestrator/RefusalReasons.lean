import FireCrow.Orchestrator.CanonicalAudit

/-!
# The reasons of refusals

A finding is refused with one of the fixed texts: letters, spaces and
underscores, whatever the finding says.
-/

namespace FireCrow.Orchestrator

open FireCrow.Library FireCrow.Schemas FireCrow.Agents

/-- A character of a reason. -/
def isReasonCharacter (character : Char) : Bool :=
  Text.isAsciiLowercase character || Text.isAsciiUppercase character ||
    character == ' ' || character == '_'

/-- A reason without the texts of a finding. -/
def PlainReason (reason : Text) : Prop := reason.all isReasonCharacter = true

instance (reason : Text) : Decidable (PlainReason reason) :=
  inferInstanceAs (Decidable (_ = true))

theorem plainReason_append {left right : Text} :
    PlainReason (left ++ right) ↔ PlainReason left ∧ PlainReason right := by
  rw [PlainReason, List.all_append, Bool.and_eq_true]
  exact Iff.rfl

/-- Other characters do not occur in a reason. -/
theorem PlainReason.not_mem {reason : Text} (plain : PlainReason reason)
    {character : Char} (other : isReasonCharacter character = false) :
    character ∉ reason := by
  intro inside
  rw [List.all_eq_true.1 plain character inside] at other
  cases other

/-- The computation fails with plain reasons only. -/
def PlainErrors {Value : Type*} (computation : Except Text Value) : Prop :=
  ∀ reason, computation = .error reason → PlainReason reason

theorem plainErrors_ok {Value : Type*} (value : Value) :
    PlainErrors (.ok value : Except Text Value) :=
  fun _ failed => Except.noConfusion rfl rfl (heq_of_eq failed)

theorem plainErrors_error {Value : Type*} {reason : Text}
    (plain : PlainReason reason) :
    PlainErrors (.error reason : Except Text Value) := by
  intro other failed
  cases failed
  exact plain

theorem PlainErrors.bind {Value Result : Type} {first : Except Text Value}
    {next : Value → Except Text Result} (early : PlainErrors first)
    (late : ∀ value, PlainErrors (next value)) :
    PlainErrors (first >>= next) := by
  cases first with
  | ok value => exact late value
  | error reason =>
      intro other failed
      cases failed
      exact early reason rfl

theorem plainErrors_refuseIf (condition : Prop) [Decidable condition]
    {reason : Text} (plain : PlainReason reason) :
    PlainErrors (refuseIf condition reason) := by
  unfold refuseIf
  split
  · exact plainErrors_error plain
  · exact plainErrors_ok ()

theorem plainErrors_mapError {Value Error : Type*}
    {computation : Except Error Value} {change : Error → Text}
    (plain : ∀ error, PlainReason (change error)) :
    PlainErrors (computation.mapError change) := by
  cases computation with
  | ok value => exact plainErrors_ok value
  | error error => exact plainErrors_error (plain error)

theorem plainErrors_checkText {field : Text} (plain : PlainReason field)
    (value : Text) : PlainErrors (checkText field value) := by
  unfold checkText
  split
  · apply plainErrors_error
    rw [plainReason_append, plainReason_append]
    exact ⟨⟨by decide, plain⟩, by decide⟩
  split
  · apply plainErrors_error
    rw [plainReason_append, plainReason_append]
    exact ⟨⟨by decide, plain⟩, by decide⟩
  · exact plainErrors_ok ()

section Refusals

variable [FloatFormat]

variable (metadata : JsonMap)

theorem plainErrors_requiredText {key : Text}
    (plain : PlainReason key) : PlainErrors (requiredText metadata key) := by
  have reason : PlainReason (("finding metadata has no " : Text) ++ key) :=
    plainReason_append.2 ⟨by decide, plain⟩
  unfold requiredText
  split
  · split
    · exact plainErrors_error reason
    · exact plainErrors_ok _
  · exact plainErrors_error reason

theorem plainErrors_metadataNumber {key : Text}
    (plain : PlainReason key) : PlainErrors (metadataNumber metadata key) := by
  unfold metadataNumber
  split
  · exact plainErrors_ok _
  · exact plainErrors_ok _
  · split
    · exact plainErrors_ok _
    · apply plainErrors_error
      rw [plainReason_append, plainReason_append]
      exact ⟨⟨by decide, plain⟩, by decide⟩

variable (finding : Finding)

theorem plainErrors_parseMetadata : PlainErrors (parseMetadata finding) := by
  unfold parseMetadata
  split
  · exact plainErrors_error (by decide)
  · exact plainErrors_ok _
  · exact plainErrors_error (by decide)

theorem plainErrors_nativeRuleId : PlainErrors (nativeRuleId metadata) := by
  unfold nativeRuleId
  dsimp only
  split
  · exact plainErrors_ok _
  · exact plainErrors_error (by decide)

theorem plainErrors_nativeFingerprint :
    PlainErrors (nativeFingerprint metadata) := by
  unfold nativeFingerprint
  split
  · split
    · exact plainErrors_error (by decide)
    · exact plainErrors_ok _
  · exact plainErrors_error (by decide)

theorem plainErrors_findingProvenance
    (metadata : JsonMap) (snapshotCommit : Option Text) :
    PlainErrors (findingProvenance finding metadata snapshotCommit) := by
  unfold findingProvenance
  refine PlainErrors.bind (plainErrors_requiredText metadata (by decide))
    fun version => ?_
  refine PlainErrors.bind (plainErrors_requiredText metadata (by decide))
    fun parser => ?_
  refine PlainErrors.bind (plainErrors_requiredText metadata (by decide))
    fun image => ?_
  refine PlainErrors.bind (plainErrors_nativeRuleId metadata) fun rule => ?_
  refine PlainErrors.bind (plainErrors_nativeFingerprint metadata)
    fun fingerprint => ?_
  refine PlainErrors.bind (plainErrors_mapError fun _ => by decide)
    fun commit => ?_
  exact plainErrors_ok _

omit [FloatFormat] in
theorem plainErrors_checkRange (line : Int32)
    (startColumn endLine endColumn : Option Int64) :
    PlainErrors (checkRange line startColumn endLine endColumn) := by
  unfold checkRange
  split
  · exact plainErrors_ok _
  split
  · exact plainErrors_error (by decide)
  split
  · split
    · split
      · exact plainErrors_error (by decide)
      · exact plainErrors_ok _
    · exact plainErrors_ok _
  · exact plainErrors_ok _

theorem plainErrors_findingLocation (metadata : JsonMap) :
    PlainErrors (findingLocation finding metadata) := by
  have file : PlainErrors (findingFile finding) := by
    unfold findingFile
    split
    · exact plainErrors_mapError fun _ => by decide
    · exact plainErrors_error (by decide)
  have line : PlainErrors (findingLine finding) := by
    unfold findingLine
    split
    · split
      · exact plainErrors_ok _
      · exact plainErrors_error (by decide)
    · exact plainErrors_error (by decide)
  unfold findingLocation
  refine PlainErrors.bind file fun file => ?_
  refine PlainErrors.bind line fun line => ?_
  refine PlainErrors.bind (plainErrors_metadataNumber metadata (by decide))
    fun startColumn => ?_
  refine PlainErrors.bind (plainErrors_metadataNumber metadata (by decide))
    fun endLine => ?_
  refine PlainErrors.bind (plainErrors_metadataNumber metadata (by decide))
    fun endColumn => ?_
  refine PlainErrors.bind (plainErrors_refuseIf _ (by decide)) fun _ => ?_
  refine PlainErrors.bind (plainErrors_refuseIf _ (by decide)) fun _ => ?_
  refine PlainErrors.bind
    (plainErrors_checkRange line startColumn endLine endColumn) fun _ => ?_
  exact plainErrors_ok _

theorem plainErrors_checkMetadataSize :
    PlainErrors (checkMetadataSize metadata) := by
  unfold checkMetadataSize
  dsimp only
  split
  · exact plainErrors_error (by decide)
  split
  · exact plainErrors_error (by decide)
  · exact plainErrors_ok _

omit [FloatFormat] in
theorem plainErrors_checkEvidence (kind : EvidenceKind) (evidence : Text) :
    PlainErrors (checkEvidence kind evidence) := by
  unfold checkEvidence
  split
  · exact plainErrors_error (by decide)
  split
  · split
    · exact plainErrors_ok _
    · exact plainErrors_error (by decide)
  · split
    · exact plainErrors_error (by decide)
    · exact plainErrors_ok _

variable [TextDigest]

theorem plainErrors_normalizeFinding (snapshotCommit : Option Text) :
    PlainErrors (normalizeFinding finding snapshotCommit) := by
  have identity : PlainErrors (scannerIdentity finding) := by
    unfold scannerIdentity
    split
    · exact plainErrors_ok _
    · exact plainErrors_error (by decide)
  have remediation : PlainErrors (checkRemediation finding) := by
    unfold checkRemediation
    split
    · exact plainErrors_checkText (by decide) _
    · exact plainErrors_ok _
  have evidence : PlainErrors (evidenceText finding) := by
    unfold evidenceText
    split
    · split
      · exact plainErrors_error (by decide)
      · exact plainErrors_ok _
    · exact plainErrors_error (by decide)
  unfold normalizeFinding
  refine PlainErrors.bind identity ?_
  rintro ⟨scanner, mode⟩
  dsimp only
  refine PlainErrors.bind (plainErrors_refuseIf _ (by decide)) fun _ => ?_
  refine PlainErrors.bind (plainErrors_refuseIf _ (by decide)) fun _ => ?_
  refine PlainErrors.bind (plainErrors_refuseIf _ (by decide)) fun _ => ?_
  refine PlainErrors.bind (plainErrors_refuseIf _ (by decide)) fun _ => ?_
  refine PlainErrors.bind (plainErrors_checkText (by decide) finding.title)
    fun _ => ?_
  refine PlainErrors.bind (plainErrors_checkText (by decide) finding.description)
    fun _ => ?_
  refine PlainErrors.bind remediation fun _ => ?_
  refine PlainErrors.bind (plainErrors_parseMetadata finding)
    fun metadata => ?_
  refine PlainErrors.bind (plainErrors_checkMetadataSize metadata) fun _ => ?_
  refine PlainErrors.bind (plainErrors_nativeRuleId metadata) fun rule => ?_
  refine PlainErrors.bind (plainErrors_nativeFingerprint metadata)
    fun fingerprint => ?_
  refine PlainErrors.bind
    (plainErrors_findingProvenance finding metadata snapshotCommit)
    fun provenance => ?_
  refine PlainErrors.bind (plainErrors_findingLocation finding metadata)
    fun location => ?_
  refine PlainErrors.bind evidence fun text => ?_
  refine PlainErrors.bind (plainErrors_checkEvidence _ text) fun _ => ?_
  exact plainErrors_ok _

end Refusals

end FireCrow.Orchestrator
