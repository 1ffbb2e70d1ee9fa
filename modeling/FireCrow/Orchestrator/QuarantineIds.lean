import FireCrow.Orchestrator.NormalizersAgree
import FireCrow.Orchestrator.OrderIndependence
import FireCrow.Orchestrator.RefusalReasons

/-!
# Identifiers of quarantined findings

The identifier of a refused finding is the digest of its stable fields, joined
by bars, and of its number among those with the same fields.  The reason and
the numbers have no bar, so only the bar between the scanner and the file can
be taken for a part of either.
-/

namespace FireCrow.Orchestrator

open FireCrow.Library FireCrow.Schemas

/-! ## Joined fields -/

/-- The last field, which has no bar, can be told from the rest. -/
theorem append_bar_inj {front front' last last' : Text} (plain : '|' ∉ last)
    (plain' : '|' ∉ last')
    (same : front ++ '|' :: last = front' ++ '|' :: last') :
    front = front' ∧ last = last' := by
  have reversed := congrArg List.reverse same
  simp only [List.reverse_append, List.reverse_cons, List.append_assoc,
    List.singleton_append] at reversed
  have cut : ∀ {text rest : Text}, '|' ∉ text →
      (text.reverse ++ '|' :: rest).takeWhile (· != '|') = text.reverse := by
    intro text rest without
    rw [List.takeWhile_append_of_pos]
    · rw [List.takeWhile_cons_of_neg (by simp), List.append_nil]
    · intro character inside
      rw [bne_iff_ne]
      exact fun bar => without (bar ▸ List.mem_reverse.1 inside)
  have ends := congrArg (List.takeWhile (· != '|')) reversed
  rw [cut plain, cut plain', List.reverse_inj] at ends
  subst ends
  rw [List.append_cancel_left_eq, List.cons.injEq, List.reverse_inj] at reversed
  exact ⟨reversed.2, rfl⟩

theorem ofNat_injective : Function.Injective Text.ofNat := by
  intro first second same
  have values := congrArg (Nat.ofDigitChars 10 · 0) same
  simp only [Text.ofNat, Nat.ofDigitChars_ten_toDigits] at values
  exact values

theorem bar_not_mem_ofNat (number : Nat) : '|' ∉ Text.ofNat number := by
  intro inside
  have digit := List.all_eq_true.1 (Text.ofNat_digits number) _ inside
  exact absurd digit (by decide)

/-- The scanner and the file as an identifier joins them. -/
def joinedOrigin (scanner file : Option Text) : Text :=
  scanner.getD [] ++ '|' :: file.getD []

section Identifiers

variable [TextDigest]

variable {second first : InvalidFinding}

/-- What two refused findings with one identifier have in common. -/
theorem invalidId_inj
    {firstNumber secondNumber : Nat} (injective : Function.Injective sha256Hex)
    (firstPlain : PlainReason first.reason)
    (secondPlain : PlainReason second.reason)
    (same : invalidId first firstNumber = invalidId second secondNumber) :
    joinedOrigin first.scanner first.file =
        joinedOrigin second.scanner second.file ∧
      first.reason = second.reason ∧
      first.evidenceChars.getD 0 = second.evidenceChars.getD 0 ∧
      firstNumber = secondNumber := by
  have texts := injective (List.append_cancel_left same)
  obtain ⟨texts, number⟩ := append_bar_inj (bar_not_mem_ofNat _)
    (bar_not_mem_ofNat _) texts
  obtain ⟨texts, chars⟩ := append_bar_inj (bar_not_mem_ofNat _)
    (bar_not_mem_ofNat _) texts
  obtain ⟨origin, reason⟩ := append_bar_inj (firstPlain.not_mem rfl)
    (secondPlain.not_mem rfl) texts
  exact ⟨origin, reason, ofNat_injective chars, ofNat_injective number⟩

theorem invalidId_congr (number : Nat)
    (origin : joinedOrigin first.scanner first.file =
      joinedOrigin second.scanner second.file)
    (reason : first.reason = second.reason)
    (chars : first.evidenceChars.getD 0 = second.evidenceChars.getD 0) :
    invalidId first number = invalidId second number := by
  have texts : joinedOrigin first.scanner first.file ++ '|' :: first.reason ++
      '|' :: Text.ofNat (first.evidenceChars.getD 0) ++
        '|' :: Text.ofNat number =
      joinedOrigin second.scanner second.file ++ '|' :: second.reason ++
        '|' :: Text.ofNat (second.evidenceChars.getD 0) ++
          '|' :: Text.ofNat number := by
    rw [origin, reason, chars]
  exact congrArg (fun text => ("invalid-v1:" : Text) ++ sha256Hex text) texts

omit [TextDigest] in
theorem invalidKey_eq_iff (first second : InvalidFinding) :
    invalidKey first = invalidKey second ↔
      first.scanner.getD [] = second.scanner.getD [] ∧
        first.file.getD [] = second.file.getD [] ∧
        first.reason = second.reason ∧
        first.evidenceChars.getD 0 = second.evidenceChars.getD 0 := by
  simp only [invalidKey, toLex_inj, Prod.mk.injEq]

/-- The identifier is one of the key. -/
theorem invalidId_of_key
    (same : invalidKey first = invalidKey second) (number : Nat) :
    invalidId first number = invalidId second number := by
  obtain ⟨scanner, file, reason, chars⟩ := (invalidKey_eq_iff _ _).1 same
  apply invalidId_congr number _ reason chars
  rw [joinedOrigin, joinedOrigin, scanner, file]

/-! ## Numbers -/

/-- The number of each record. -/
def numbering : Option InvalidKey → Nat → List InvalidFinding →
    List (InvalidFinding × Nat)
  | _, _, [] => []
  | lastKey, occurrence, item :: rest =>
      let next := if lastKey = some (invalidKey item) then occurrence + 1 else 0
      (item, next) :: numbering (some (invalidKey item)) next rest

theorem numberInvalid_eq (lastKey : Option InvalidKey) (occurrence : Nat)
    (items : List InvalidFinding) :
    numberInvalid lastKey occurrence items =
      (numbering lastKey occurrence items).map fun entry =>
        { entry.1 with id := invalidId entry.1 entry.2 } := by
  induction items generalizing lastKey occurrence with
  | nil => rfl
  | cons item rest ih => rw [numberInvalid, numbering, List.map_cons, ih]

variable {items : List InvalidFinding} {occurrence : Nat}

variable {lastKey : Option InvalidKey}

omit [TextDigest] in
theorem mem_of_mem_numbering {entry : InvalidFinding × Nat}
    (inside : entry ∈ numbering lastKey occurrence items) :
    entry.1 ∈ items := by
  induction items generalizing lastKey occurrence with
  | nil => cases inside
  | cons item rest ih =>
      rcases List.mem_cons.1 inside with rfl | later
      · exact List.mem_cons_self
      · exact List.mem_cons_of_mem _ (ih later)

omit [TextDigest] in
/-- Where equal keys are adjacent, the numbers of the last key go on. -/
theorem lt_of_mem_numbering {last : InvalidKey}
    (sorted : items.Pairwise fun left right =>
      invalidKey left ≤ invalidKey right)
    (above : ∀ item ∈ items, last ≤ invalidKey item)
    {entry : InvalidFinding × Nat}
    (inside : entry ∈ numbering (some last) occurrence items)
    (same : invalidKey entry.1 = last) : occurrence < entry.2 := by
  induction items generalizing last occurrence with
  | nil => cases inside
  | cons item rest ih =>
      rw [List.pairwise_cons] at sorted
      rcases List.mem_cons.1 inside with rfl | later
      · dsimp only
        rw [if_pos (by rw [same])]
        exact Nat.lt_succ_self occurrence
      · have member := mem_of_mem_numbering later
        have between : invalidKey item = last := by
          apply le_antisymm
          · rw [← same]
            exact sorted.1 _ member
          · exact above item List.mem_cons_self
        have further := ih sorted.2 (fun other inRest => sorted.1 other inRest)
          later (same.trans between.symm)
        rw [if_pos (by rw [between])] at further
        exact Nat.lt_of_succ_lt further

omit [TextDigest] in
theorem nodup_numbering
    (sorted : items.Pairwise fun left right =>
      invalidKey left ≤ invalidKey right) :
    ((numbering lastKey occurrence items).map fun entry =>
      (invalidKey entry.1, entry.2)).Nodup := by
  induction items generalizing lastKey occurrence with
  | nil => exact List.nodup_nil
  | cons item rest ih =>
      rw [List.pairwise_cons] at sorted
      rw [numbering, List.map_cons, List.nodup_cons]
      refine ⟨?_, ih sorted.2⟩
      intro again
      obtain ⟨entry, inside, same⟩ := List.mem_map.1 again
      rw [Prod.mk.injEq] at same
      have later := lt_of_mem_numbering sorted.2
        (fun other inRest => sorted.1 other inRest) inside same.1
      rw [same.2] at later
      exact Nat.lt_irrefl _ later

omit [TextDigest] in
/-- The first record of a key has the number zero. -/
theorem exists_first_numbering {item : InvalidFinding}
    (inside : item ∈ items) (fresh : lastKey ≠ some (invalidKey item)) :
    ∃ entry ∈ numbering lastKey occurrence items,
      invalidKey entry.1 = invalidKey item ∧ entry.2 = 0 := by
  induction items generalizing lastKey occurrence with
  | nil => cases inside
  | cons head rest ih =>
      by_cases same : invalidKey head = invalidKey item
      · refine ⟨_, List.mem_cons_self, same, ?_⟩
        exact if_neg (by rw [same]; exact fresh)
      · have later : item ∈ rest := by
          rcases List.mem_cons.1 inside with rfl | later
          · exact absurd rfl same
          · exact later
        obtain ⟨entry, member, facts⟩ := ih later
          (fun equal => same (Option.some.inj equal))
        exact ⟨entry, List.mem_cons_of_mem _ member, facts⟩

/-- Identifiers are unique where the joined fields determine the key. -/
theorem nodup_identifyInvalid_iff (injective : Function.Injective sha256Hex)
    (plain : ∀ item ∈ items, PlainReason item.reason) :
    ((identifyInvalid items).map InvalidFinding.id).Nodup ↔
      ∀ first ∈ items, ∀ second ∈ items, first.reason = second.reason →
        first.evidenceChars.getD 0 = second.evidenceChars.getD 0 →
        joinedOrigin first.scanner first.file =
          joinedOrigin second.scanner second.file →
        invalidKey first = invalidKey second := by
  have sorted := pairwise_sortBy invalidKey items
  have ids : (identifyInvalid items).map InvalidFinding.id =
      (numbering none 0 (sortBy invalidKey items)).map fun entry =>
        invalidId entry.1 entry.2 := by
    rw [identifyInvalid, numberInvalid_eq, List.map_map]
    rfl
  rw [ids]
  constructor
  · intro distinct first firstInside second secondInside reason chars origin
    have number : ∀ item ∈ items, ∃ entry ∈
        numbering none 0 (sortBy invalidKey items),
        invalidKey entry.1 = invalidKey item ∧ entry.2 = 0 := by
      intro item inside
      exact exists_first_numbering (mem_sortBy.2 inside)
        (Option.some_ne_none _).symm
    obtain ⟨one, oneInside, oneKey, oneNumber⟩ := number first firstInside
    obtain ⟨other, otherInside, otherKey, otherNumber⟩ :=
      number second secondInside
    have same : invalidId one.1 one.2 = invalidId other.1 other.2 := by
      rw [oneNumber, otherNumber, invalidId_of_key oneKey,
        invalidId_of_key otherKey]
      exact invalidId_congr 0 origin reason chars
    have equal := List.inj_on_of_nodup_map distinct oneInside otherInside same
    rw [← oneKey, ← otherKey, equal]
  · intro determined
    apply List.Nodup.map_on
    · intro one oneInside other otherInside same
      have member : ∀ {entry}, entry ∈
          numbering none 0 (sortBy invalidKey items) → entry.1 ∈ items := by
        intro entry inside
        have inSorted : entry.1 ∈ sortBy invalidKey items :=
          mem_of_mem_numbering inside
        exact mem_sortBy.1 inSorted
      obtain ⟨origin, reason, chars, number⟩ := invalidId_inj injective
        (plain _ (member oneInside)) (plain _ (member otherInside)) same
      have key := determined _ (member oneInside) _ (member otherInside) reason
        chars origin
      exact List.inj_on_of_nodup_map (nodup_numbering sorted) oneInside
        otherInside (Prod.ext key number)
    · exact (nodup_numbering sorted).of_map _

/-! ## The two normalizers -/

variable [FloatFormat]

/-- The identifiers of the refused findings are distinct, among the persisted
ones and in every document. -/
structure QuarantineIdsUnique (findings : List Finding) : Prop where
  persisted : ((normalizeFindingsForPersist findings).invalid.map
    InvalidFinding.id).Nodup
  document : ∀ request audit, request.findings = findings →
    canonicalAudit request = .ok audit →
      (audit.invalidFindings.map InvalidFinding.id).Nodup

/-- Findings refused for one reason, with evidence of one length, whose
scanners and files are joined to one text, name the same scanner. -/
def OriginsTold (findings : List Finding) : Prop :=
  ∀ first ∈ findings, ∀ second ∈ findings, ∀ reason,
    normalizeFinding first none = .error reason →
      normalizeFinding second none = .error reason →
      (first.evidence.getD []).length = (second.evidence.getD []).length →
      joinedOrigin first.scannerName first.filePath =
        joinedOrigin second.scannerName second.filePath →
      first.scannerName.getD [] = second.scannerName.getD []

theorem plainReason_of_rejected {findings : List Finding}
    {snapshotCommit : Option Text} {item : InvalidFinding}
    (inside : item ∈ rejected findings snapshotCommit) :
    PlainReason item.reason := by
  obtain ⟨finding, _, reason, failed, rfl⟩ := mem_rejected.1 inside
  exact plainErrors_normalizeFinding finding snapshotCommit reason failed

omit [TextDigest] [FloatFormat] in
theorem length_evidence (finding : Finding) (reason : Text) :
    (invalidRecord finding reason).evidenceChars.getD 0 =
      (finding.evidence.getD []).length := by
  rw [invalidRecord]
  cases finding.evidence <;> rfl

/-- The origins of refused findings are told apart where their keys are. -/
theorem originsTold_iff (findings : List Finding) :
    OriginsTold findings ↔
      ∀ first ∈ rejected findings none, ∀ second ∈ rejected findings none,
        first.reason = second.reason →
        first.evidenceChars.getD 0 = second.evidenceChars.getD 0 →
        joinedOrigin first.scanner first.file =
          joinedOrigin second.scanner second.file →
        invalidKey first = invalidKey second := by
  constructor
  · intro told first firstInside second secondInside reason chars origin
    obtain ⟨left, leftMem, leftReason, leftFailed, rfl⟩ :=
      mem_rejected.1 firstInside
    obtain ⟨right, rightMem, rightReason, rightFailed, rfl⟩ :=
      mem_rejected.1 secondInside
    obtain rfl : leftReason = rightReason := reason
    rw [length_evidence, length_evidence] at chars
    have scanner := told left leftMem right rightMem leftReason leftFailed
      rightFailed chars origin
    have file : left.filePath.getD [] = right.filePath.getD [] := by
      have texts : left.scannerName.getD [] ++ '|' :: left.filePath.getD [] =
          right.scannerName.getD [] ++ '|' :: right.filePath.getD [] := origin
      rw [scanner, List.append_cancel_left_eq, List.cons.injEq] at texts
      exact texts.2
    rw [invalidKey_invalidRecord_eq_iff]
    exact ⟨scanner, file, rfl, chars⟩
  · intro determined left leftMem right rightMem reason leftFailed rightFailed
      chars origin
    have key := determined _
      (mem_rejected.2 ⟨left, leftMem, reason, leftFailed, rfl⟩) _
      (mem_rejected.2 ⟨right, rightMem, reason, rightFailed, rfl⟩) rfl
      (by rw [length_evidence, length_evidence, chars]) origin
    exact ((invalidKey_invalidRecord_eq_iff _ _ _ _).1 key).1

/-- The identifiers are unique exactly when no bar in a scanner or a file makes
two origins one. -/
theorem quarantine_ids_unique_iff (injective : Function.Injective sha256Hex)
    (findings : List Finding) :
    QuarantineIdsUnique findings ↔ OriginsTold findings := by
  have unique := nodup_identifyInvalid_iff injective
    fun item (inside : item ∈ rejected findings none) =>
      plainReason_of_rejected inside
  rw [← originsTold_iff] at unique
  have persisted : (normalizeFindingsForPersist findings).invalid =
      identifyInvalid (rejected findings none) := rfl
  constructor
  · intro ids
    have distinct := ids.persisted
    rw [persisted] at distinct
    exact unique.1 distinct
  · intro told
    constructor
    · rw [persisted]
      exact unique.2 told
    · rintro request audit rfl audited
      obtain ⟨commit, admissible, rfl⟩ :=
        (canonicalAudit_eq_ok_iff _ _).1 audited
      have document : (auditDocument request commit).invalidFindings =
          identifyInvalid (rejected request.findings commit) := rfl
      rw [document, rejected_valid admissible.validCommit]
      exact unique.2 told

end Identifiers

/-! ## A bar in a scanner -/

section Samples

attribute [local instance] FloatFormat.integersOnly

/-- A digest that is injective: the text itself. -/
@[reducible]
def plainDigest : TextDigest where
  hexDigest := id

attribute [local instance] plainDigest

def barredRow (scanner file : Text) : Finding :=
  { apiKeyRow with scannerName := some scanner, filePath := some file }

/-- Two refused rows whose scanner and file are joined to one text. -/
def barredRows : List Finding := [barredRow "a|b" "c", barredRow "a" "b|c"]

theorem quarantine_ids_unique_iff_barredRows :
    QuarantineIdsUnique barredRows ↔ OriginsTold barredRows :=
  quarantine_ids_unique_iff (fun _ _ same => same) barredRows

theorem barredRow_refused (scanner file : Text)
    (unknown : (scanner, ("secret" : Text)) ∉ knownScanners) :
    normalizeFinding (barredRow scanner file) none =
      .error "finding has an unknown scanner identity" := by
  have identity : scannerIdentity (barredRow scanner file) =
      .ok (scanner, "secret") := rfl
  rw [normalizeFinding, identity]
  have refused : refuseIf ((scanner, ("secret" : Text)) ∉ knownScanners)
      ("finding has an unknown scanner identity" : Text) =
        .error "finding has an unknown scanner identity" := if_pos unknown
  show (refuseIf _ _ >>= _) = _
  rw [refused]
  rfl

/-- The two rows have one identifier. -/
theorem barredRows_one_id :
    ¬ ∀ [TextDigest], Function.Injective sha256Hex →
      ∀ findings : List Finding, QuarantineIdsUnique findings := by
  intro claim
  have unique := @claim plainDigest (fun _ _ same => same) barredRows
  have first := barredRow_refused "a|b" "c" (by decide)
  have second := barredRow_refused "a" "b|c" (by decide)
  have distinct := (nodup_identifyInvalid_iff (fun _ _ same => same)
    fun item (inside : item ∈ rejected barredRows none) =>
      plainReason_of_rejected inside).1 unique.persisted
  have key := distinct _
    (mem_rejected.2 ⟨_, List.mem_cons_self, _, first, rfl⟩) _
    (mem_rejected.2 ⟨_, List.mem_cons_of_mem _ List.mem_cons_self, _, second,
      rfl⟩) rfl rfl rfl
  have scanners : ("a|b" : Text) = ("a" : Text) :=
    ((invalidKey_invalidRecord_eq_iff _ _ _ _).1 key).1
  exact absurd scanners (by decide)

end Samples

end FireCrow.Orchestrator
