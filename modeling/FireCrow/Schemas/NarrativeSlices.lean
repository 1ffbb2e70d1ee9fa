import FireCrow.Schemas.NarrativeSoundness

/-!
# The slices of the location rule

The location rule finds a line marker in the lower case of a text and slices
the text itself there, and it counts a package name in characters and steps
back as many bytes.  Each slice exists when the two counts lead to the start of
a character; where one does not, the validation panics.
-/

namespace FireCrow.Schemas

open FireCrow.Library FireCrow.Services

section Slices

variable [tables : UnicodeTables]

/-! ## Lines -/

omit tables in
/-- A text split before its first line marker. -/
structure FirstLine (text before rest : Text) : Prop where
  split : text = before ++ rest
  marks : marksLine rest = true
  first : ∀ suffix, suffix <:+ before → suffix ≠ [] →
    marksLine (suffix ++ rest) = false

/-- Where the slice behind the first line marker starts: the lower case of what
stands before the marker is longer by whole characters behind the marker, or
shorter by whole characters up to the end of the marker. -/
inductive LineTail (before rest : Text) : Text → Prop where
  | longer {skipped tail : Text} (behind : rest.drop 5 = skipped ++ tail)
      (grown : before.toLowercase.byteLen =
        before.byteLen + skipped.byteLen) :
      LineTail before rest tail
  | shorter {kept lost : Text} (upTo : before ++ rest.take 5 = kept ++ lost)
      (shrunk : before.toLowercase.byteLen + lost.byteLen = before.byteLen) :
      LineTail before rest (lost ++ rest.drop 5)

/-- The slice behind the first line marker, if there is one, starts at a
character. -/
def LineSliceable (text : Text) : Prop :=
  ∀ before rest, FirstLine text before rest → ∃ tail, LineTail before rest tail

/-- The slice behind the first line marker starts with a digit. -/
def NumberedLine (text : Text) : Prop :=
  ∃ before rest digit tail, FirstLine text before rest ∧
    LineTail before rest (digit :: tail) ∧ Text.isAsciiDigit digit = true

omit tables in
theorem firstLine_or (text : Text) :
    (∃ before rest, FirstLine text before rest) ∨
      ∀ suffix, suffix <:+ text → marksLine suffix = false := by
  induction text with
  | nil =>
      right
      intro suffix inside
      rw [List.suffix_nil.1 inside]
      decide
  | cons character text ih =>
      cases here : marksLine (character :: text)
      · rcases ih with ⟨before, rest, found⟩ | none
        · left
          refine ⟨character :: before, rest, ?_, found.marks, ?_⟩
          · rw [found.split, List.cons_append]
          · intro suffix inside nonempty
            rcases List.suffix_cons_iff.1 inside with rfl | inside
            · rw [List.cons_append, ← found.split, here]
            · exact found.first suffix inside nonempty
        · right
          intro suffix inside
          rcases List.suffix_cons_iff.1 inside with rfl | inside
          · exact here
          · exact none suffix inside
      · left
        refine ⟨[], character :: text, rfl, here, ?_⟩
        intro suffix inside nonempty
        exact absurd (List.suffix_nil.1 inside) nonempty

/-- The slice behind the marker is where `LineTail` says. -/
theorem fromByte_line {before rest tail : Text} (marks : marksLine rest = true) :
    Text.fromByte (before.toLowercase.byteLen + 5) (before ++ rest) =
        some tail ↔
      LineTail before rest tail := by
  have five := byteLen_line marks
  have whole : before ++ rest = (before ++ rest.take 5) ++ rest.drop 5 := by
    rw [List.append_assoc, List.take_append_drop]
  rw [Text.fromByte_eq_some, whole]
  constructor
  · rintro ⟨init, same, bytes⟩
    rcases List.append_eq_append_iff.1 same with
      ⟨skipped, rfl, behind⟩ | ⟨lost, upTo, rfl⟩
    · refine .longer behind ?_
      rw [Text.byteLen_append, Text.byteLen_append, five] at bytes
      omega
    · refine .shorter upTo ?_
      have bytesOf := congrArg Text.byteLen upTo
      rw [Text.byteLen_append, Text.byteLen_append, five] at bytesOf
      omega
  · rintro (⟨behind, grown⟩ | ⟨upTo, shrunk⟩)
    · rename_i skipped
      refine ⟨before ++ rest.take 5 ++ skipped, ?_, ?_⟩
      · rw [behind, ← List.append_assoc]
      · rw [Text.byteLen_append, Text.byteLen_append, five, grown]
        omega
    · rename_i kept lost
      refine ⟨kept, ?_, ?_⟩
      · rw [upTo, List.append_assoc]
      · have bytesOf := congrArg Text.byteLen upTo
        rw [Text.byteLen_append, Text.byteLen_append, five] at bytesOf
        omega

section Lines

variable (present : ∀ character, tables.lowercase character ≠ [])
include present

/-- The slice that the line rule takes. -/
theorem inventedLine_of_first {text before rest : Text}
    (first : FirstLine text before rest) :
    inventedLine text =
      (Text.fromByte (before.toLowercase.byteLen + 5) text).map fun tail =>
        if (tail.takeWhile Text.isAsciiDigit).isEmpty then none
        else some (("line " : Text) ++ tail.takeWhile Text.isAsciiDigit) := by
  have position : Text.find "line " text.toLowercase =
      some before.toLowercase.byteLen := by
    rw [first.split]
    apply Text.find_toLowercase (fun character _ => present character)
      findable_line (by decide)
      (marksLine_iff.1 first.marks)
    intro suffix inside nonempty
    have unmarked := first.first suffix inside nonempty
    rw [← Bool.not_eq_true, marksLine_iff] at unmarked
    exact unmarked
  rw [inventedLine, position]

theorem inventedLine_of_none {text : Text}
    (unmarked : ∀ suffix, suffix <:+ text → marksLine suffix = false) :
    inventedLine text = some none := by
  have position : Text.find "line " text.toLowercase = none := by
    apply Text.find_toLowercase_eq_none (fun character _ => present character)
      findable_line (by decide)
    intro suffix inside
    have other := unmarked suffix inside
    rw [← Bool.not_eq_true, marksLine_iff] at other
    exact other
  rw [inventedLine, position]

/-- The line rule panics exactly where its slice does not start at a
character. -/
theorem inventedLine_eq_none {text : Text} :
    inventedLine text = none ↔ ¬ LineSliceable text := by
  constructor
  · intro panics sliceable
    rcases firstLine_or text with ⟨before, rest, first⟩ | unmarked
    · rcases sliceable before rest first with ⟨tail, there⟩
      rw [inventedLine_of_first present first, first.split,
        (fromByte_line first.marks).2 there] at panics
      cases panics
    · rw [inventedLine_of_none present unmarked] at panics
      cases panics
  · intro stuck
    simp only [LineSliceable, not_forall, not_exists] at stuck
    rcases stuck with ⟨before, rest, first, apart⟩
    rw [inventedLine_of_first present first, Option.map_eq_none_iff,
      Option.eq_none_iff_forall_ne_some]
    intro tail found
    rw [first.split, fromByte_line first.marks] at found
    exact apart tail found

/-- The line rule says nothing exactly where its slice starts with no digit. -/
theorem inventedLine_eq_some_none {text : Text} :
    inventedLine text = some none ↔
      LineSliceable text ∧ ¬ NumberedLine text := by
  have sliceable : inventedLine text = some none → LineSliceable text := by
    intro silent
    by_contra stuck
    rw [(inventedLine_eq_none present).2 stuck] at silent
    cases silent
  constructor
  · intro silent
    refine ⟨sliceable silent, ?_⟩
    rintro ⟨before, rest, digit, tail, first, there, digits⟩
    rw [inventedLine_of_first present first, first.split,
      (fromByte_line first.marks).2 there, Option.map_some,
      List.takeWhile_cons_of_pos digits] at silent
    cases silent
  · rintro ⟨sliceable, unnumbered⟩
    rcases firstLine_or text with ⟨before, rest, first⟩ | unmarked
    · rcases sliceable before rest first with ⟨tail, there⟩
      rw [inventedLine_of_first present first, first.split,
        (fromByte_line first.marks).2 there, Option.map_some]
      cases tail with
      | nil => rfl
      | cons character tail =>
          have letter : ¬ Text.isAsciiDigit character = true := fun digits =>
            unnumbered ⟨before, rest, character, tail, first, there, digits⟩
          rw [List.takeWhile_cons_of_neg letter]
          rfl
    · exact inventedLine_of_none present unmarked

end Lines

/-! ## Coordinates -/

/-- The name before the first package marker with a version behind it has as
many characters as the last characters before the marker have bytes. -/
def CoordinateSliceable (text : Text) : Prop :=
  ∀ preceding following, text = preceding ++ '@' :: following →
    preceding ≠ [] → '@' ∉ preceding.tail →
    3 ≤ (following.takeWhile isVersionCharacter).length →
    ∃ last, last <:+ preceding ∧
      Text.byteLen last = (preceding.rtakeWhile isPackageCharacter).length

omit tables in
theorem splitAtMarker_eq_some {marker : Char} {text preceding following : Text} :
    splitAtMarker marker text = some (preceding, following) ↔
      preceding ≠ [] ∧ marker ∉ preceding.tail ∧
        ∃ rest, following = marker :: rest ∧
          text = preceding ++ marker :: rest := by
  constructor
  · intro found
    by_cases inside : marker ∈ text.tail
    · cases text with
      | nil => cases inside
      | cons first text =>
          rcases List.eq_append_cons_of_mem inside with
            ⟨front, back, same, fresh⟩
          rw [List.tail_cons] at same
          subst same
          rw [← List.cons_append, splitAtMarker_append (List.cons_ne_nil _ _)
            fresh, Option.some.injEq, Prod.mk.injEq] at found
          rcases found with ⟨rfl, rfl⟩
          exact ⟨List.cons_ne_nil _ _, fresh, back, rfl, rfl⟩
    · rw [splitAtMarker_eq_none.2 inside] at found
      cases found
  · rintro ⟨nonempty, fresh, rest, rfl, rfl⟩
    exact splitAtMarker_append nonempty fresh

omit tables in
theorem isAscii_of_isAsciiDigit {character : Char}
    (digit : Text.isAsciiDigit character = true) :
    Text.isAscii character = true := by
  rw [Text.isAsciiDigit, Bool.and_eq_true, decide_eq_true_eq,
    decide_eq_true_eq] at digit
  have bound : character.val.toNat ≤ 57 := UInt32.le_iff_toNat_le.1 digit.2
  rw [Text.isAscii, decide_eq_true_eq]
  omega

omit tables in
theorem byteLen_version (text : Text) :
    Text.byteLen (text.takeWhile isVersionCharacter) =
      (text.takeWhile isVersionCharacter).length := by
  have single : ∀ character ∈ text.takeWhile isVersionCharacter,
      character.utf8Size = 1 := by
    intro character member
    have version := List.mem_takeWhile_imp member
    apply Text.utf8Size_of_ascii
    rw [isVersionCharacter, Bool.or_eq_true, decide_eq_true_eq] at version
    rcases version with digit | rfl
    · exact isAscii_of_isAsciiDigit digit
    · decide
  rw [Text.byteLen, List.map_congr_left single, List.map_const',
    List.sum_replicate_nat, Nat.mul_one]

omit tables in
/-- The last bytes before a place are whole characters. -/
theorem exists_suffix_iff {before : Text} {back : Nat} (after : Text)
    (positive : 0 < back) (within : back ≤ before.byteLen) :
    (∃ init tail, before ++ after = init ++ tail ∧
        Text.byteLen init = before.byteLen - back) ↔
      ∃ last, last <:+ before ∧ Text.byteLen last = back := by
  constructor
  · rintro ⟨init, tail, same, bytes⟩
    rcases List.append_eq_append_iff.1 same with
      ⟨middle, rfl, _⟩ | ⟨last, rfl, _⟩
    · rw [Text.byteLen_append] at bytes
      omega
    · refine ⟨last, List.suffix_append _ _, ?_⟩
      rw [Text.byteLen_append] at bytes within
      omega
  · rintro ⟨last, ⟨init, rfl⟩, bytes⟩
    refine ⟨init, last ++ after, List.append_assoc _ _ _, ?_⟩
    rw [Text.byteLen_append, bytes, Nat.add_sub_cancel]

/-- The coordinate rule panics exactly where its slice does not start at a
character. -/
theorem inventedCoordinate_eq_none {text : Text} :
    inventedCoordinate text = none ↔ ¬ CoordinateSliceable text := by
  have counted (preceding : Text) :
      (preceding.reverse.takeWhile isPackageCharacter).length =
        (preceding.rtakeWhile isPackageCharacter).length := by
    rw [List.rtakeWhile, List.length_reverse]
  cases found : splitAtMarker '@' text with
  | none =>
      rw [inventedCoordinate, found]
      have sliceable : CoordinateSliceable text := by
        rintro preceding following rfl nonempty fresh
        rw [splitAtMarker_append nonempty fresh] at found
        cases found
      exact iff_of_false (Option.some_ne_none _) (not_not_intro sliceable)
  | some parts =>
      rcases parts with ⟨preceding, following⟩
      rcases splitAtMarker_eq_some.1 found with
        ⟨nonempty, fresh, rest, rfl, rfl⟩
      have version := List.takeWhile_append_dropWhile (p := isVersionCharacter)
        (l := rest)
      have ended : preceding.byteLen + 1 +
          (rest.takeWhile isVersionCharacter).length =
            Text.byteLen
              (preceding ++ '@' :: rest.takeWhile isVersionCharacter) := by
        rw [Text.byteLen_append, Text.byteLen_cons, byteLen_version,
          Text.utf8Size_of_ascii (by decide), Nat.add_assoc]
      have whole : preceding ++ '@' :: rest =
          (preceding ++ '@' :: rest.takeWhile isVersionCharacter) ++
            rest.dropWhile isVersionCharacter := by
        rw [List.append_assoc, List.cons_append, version]
      have sliceable : CoordinateSliceable (preceding ++ '@' :: rest) ↔
          (3 ≤ (rest.takeWhile isVersionCharacter).length →
            ∃ last, last <:+ preceding ∧ Text.byteLen last =
              (preceding.rtakeWhile isPackageCharacter).length) := by
        constructor
        · exact fun sliceable =>
            sliceable preceding rest rfl nonempty fresh
        · intro last other following same present clean
          have again : splitAtMarker '@' (preceding ++ '@' :: rest) =
              some (other, '@' :: following) := by
            rw [same]
            exact splitAtMarker_append present clean
          rw [found, Option.some.injEq, Prod.mk.injEq,
            List.cons.injEq] at again
          rcases again with ⟨rfl, _, rfl⟩
          exact last
      rw [sliceable, inventedCoordinate, found]
      dsimp only
      rw [List.tail_cons, counted]
      split
      · rename_i both
        have within : (preceding.rtakeWhile isPackageCharacter).length ≤
            preceding.byteLen :=
          (List.rtakeWhile_suffix _ _).length_le.trans
            (Text.length_le_byteLen preceding)
        have stop (front back : Text) :
            min front.byteLen (Text.byteLen (front ++ back)) =
              front.byteLen := by
          rw [Text.byteLen_append]
          exact Nat.min_eq_left (Nat.le_add_right _ _)
        rw [ended, Option.map_eq_none_iff, whole, stop,
          Text.slice_append_eq_none, ← exists_suffix_iff
            ('@' :: rest.takeWhile isVersionCharacter) both.1 within]
        · constructor
          · intro apart last
            rcases last both.2 with ⟨init, tail, same, bytes⟩
            exact apart init tail same bytes
          · intro stuck init tail same bytes
            exact stuck fun _ => ⟨init, tail, same, bytes⟩
        · rw [← ended]
          omega
      · rename_i short
        refine iff_of_false (Option.some_ne_none _)
          (not_not_intro fun long => ⟨[], ?_, ?_⟩)
        · exact List.nil_suffix
        · rw [Text.byteLen_nil]
          omega

/-! ## Locations -/

/-- Every slice of the location rule starts at a character, as far as the rule
goes on: a path or a line with a number ends it. -/
def Sliceable (text : Text) : Prop :=
  '/' ∈ text.tail ∨
    LineSliceable text ∧ (NumberedLine text ∨ CoordinateSliceable text)

/-- The location rule returns a value exactly on the texts whose slices start
at characters. -/
theorem inventedLocation_ne_none
    (present : ∀ character, tables.lowercase character ≠ []) (text : Text) :
    inventedLocation text ≠ none ↔ Sliceable text := by
  rw [inventedLocation]
  cases path : splitAtMarker '/' text with
  | some parts =>
      have inside : '/' ∈ text.tail := by
        by_contra absent
        rw [splitAtMarker_eq_none.2 absent] at path
        cases path
      exact iff_of_true (Option.some_ne_none _) (Or.inl inside)
  | none =>
      have absent := splitAtMarker_eq_none.1 path
      rw [Sliceable, or_iff_right absent]
      dsimp only
      cases line : inventedLine text with
      | none =>
          have stuck := (inventedLine_eq_none present).1 line
          exact iff_of_false (fun none => none rfl) fun both => stuck both.1
      | some found =>
          have sliceable : LineSliceable text := by
            by_contra stuck
            rw [(inventedLine_eq_none present).2 stuck] at line
            cases line
          rw [and_iff_right sliceable]
          cases found with
          | none =>
              have unnumbered := ((inventedLine_eq_some_none present).1 line).2
              rw [or_iff_right unnumbered]
              dsimp only
              rw [ne_eq, inventedCoordinate_eq_none, not_not]
          | some number =>
              refine iff_of_true (Option.some_ne_none _) (Or.inl ?_)
              by_contra unnumbered
              have silent := (inventedLine_eq_some_none present).2
                ⟨sliceable, unnumbered⟩
              rw [line] at silent
              cases silent

/-! ## Narratives -/

omit tables in
theorem then_eq_panic {Result : Type} (check : Except NarrativeStop Unit)
    (next : Unit → Except NarrativeStop Result) :
    (check >>= next) = .error .panic ↔
      check = .error .panic ∨ check = .ok () ∧ next () = .error .panic := by
  cases check with
  | error | ok => simp [bind, Except.bind]

omit tables in
@[simp]
theorem forbid_ne_panic (condition : Prop) [Decidable condition]
    (violation : NarrativeViolation) :
    forbid condition violation ≠ .error .panic := by
  unfold forbid refuseIf
  split
  · intro same
    cases same
  · intro same
    cases same

omit tables in
@[simp]
theorem refuse_ne_panic {Result : Type} (violation : NarrativeViolation) :
    (refuse violation : Except NarrativeStop Result) ≠ .error .panic := by
  intro same
  cases same

omit tables in
theorem pure_ne_panic {Result : Type} (result : Result) :
    (pure result : Except NarrativeStop Result) ≠ .error .panic := by
  intro same
  cases same

omit tables in
theorem checkIdentifiers_ne_panic (known identifiers : List Text) :
    checkIdentifiers known identifiers ≠ .error .panic := by
  induction identifiers with
  | nil => intro same; cases same
  | cons identifier rest ih => simp [checkIdentifiers, then_eq_panic, ih]

theorem checkRemediation_ne_panic (guidance : List RemediationGuidance) :
    checkRemediation guidance ≠ .error .panic := by
  induction guidance with
  | nil => intro same; cases same
  | cons advice rest ih => simp [checkRemediation, then_eq_panic, ih]

theorem checkScanners_ne_panic (joined : Text) (scanners : List (Text × Text)) :
    checkScanners joined scanners ≠ .error .panic := by
  induction scanners with
  | nil => intro same; cases same
  | cons scanner rest ih => simp [checkScanners, then_eq_panic, ih]

theorem checkConfidence_ne_panic (texts : List Text) :
    checkConfidence texts ≠ .error .panic := by
  induction texts with
  | nil => intro same; cases same
  | cons text rest ih => simp [checkConfidence, then_eq_panic, ih]

theorem checkLocation_eq_panic (text : Text) :
    checkLocation text = .error .panic ↔ inventedLocation text = none := by
  unfold checkLocation
  split <;> simp_all

section Reports

variable [FloatFormat] {report : CanonicalAuditReport}

theorem checkCoverage_ne_panic (text : Text) :
    checkCoverage report text ≠ .error .panic := by
  unfold checkCoverage
  split
  · intro same
    cases same
  · split
    · intro same
      cases same
    · exact refuse_ne_panic _

omit tables in
theorem checkSeverity_ne_panic (explanation : FindingExplanation) :
    checkSeverity report explanation ≠ .error .panic := by
  unfold checkSeverity
  split
  · intro same
    cases same
  · split
    · exact refuse_ne_panic _
    · exact forbid_ne_panic _ _

omit tables in
theorem checkExplanations_ne_panic (explained : List Text)
    (explanations : List FindingExplanation) :
    checkExplanations report explained explanations ≠ .error .panic := by
  induction explanations generalizing explained with
  | nil => intro same; cases same
  | cons explanation rest ih =>
      simp [checkExplanations, then_eq_panic, checkSeverity_ne_panic, ih]

omit tables in
theorem checkGuidance_ne_panic (guided : List Text)
    (guidance : List RemediationGuidance) :
    checkGuidance report guided guidance ≠ .error .panic := by
  induction guidance generalizing guided with
  | nil => intro same; cases same
  | cons advice rest ih => simp [checkGuidance, then_eq_panic, ih]

omit tables in
theorem checkLimitations_ne_panic (limitations : List Text) :
    checkLimitations report limitations ≠ .error .panic := by
  induction limitations with
  | nil => intro same; cases same
  | cons limitation rest ih => simp [checkLimitations, then_eq_panic, ih]

omit tables in
theorem validateStructure_ne_panic (narrative : ReportNarrative) :
    validateStructure report narrative ≠ .error .panic := by
  simp [validateStructure, then_eq_panic, checkExplanations_ne_panic,
    checkGuidance_ne_panic, checkLimitations_ne_panic]

/-- The rules on a text panic where the location rule does, unless the text is
refused before. -/
theorem checkText_eq_panic (known : List Text) (text : Text) :
    checkText report known text = .error .panic ↔
      Redaction.containsKnownCredentialAssignment text = false ∧
        inventedLocation text = none := by
  simp [checkText, then_eq_panic, checkLocation_eq_panic,
    checkCoverage_ne_panic, checkIdentifiers_ne_panic]

/-- The rules on the texts panic at the first text that does not pass. -/
theorem checkTexts_eq_panic (known texts : List Text) :
    checkTexts report known texts = .error .panic ↔
      ∃ done text later, texts = done ++ text :: later ∧
        (∀ other ∈ done, checkText report known other = .ok ()) ∧
        checkText report known text = .error .panic := by
  induction texts with
  | nil =>
      constructor
      · intro same
        cases same
      · rintro ⟨done, text, later, same, _⟩
        exact absurd same.symm (List.append_ne_nil_of_right_ne_nil _
          (List.cons_ne_nil _ _))
  | cons first texts ih =>
      rw [checkTexts, then_eq_panic, ih]
      constructor
      · rintro (panics | ⟨passed, done, text, later, rfl, before, panics⟩)
        · exact ⟨[], first, texts, rfl, List.forall_mem_nil _, panics⟩
        · exact ⟨first :: done, text, later, rfl,
            List.forall_mem_cons.2 ⟨passed, before⟩, panics⟩
      · rintro ⟨done, text, later, same, before, panics⟩
        cases done with
        | nil =>
            rw [List.nil_append, List.cons.injEq] at same
            rw [same.1]
            exact Or.inl panics
        | cons other done =>
            rw [List.cons_append, List.cons.injEq] at same
            rcases same with ⟨rfl, rfl⟩
            rw [List.forall_mem_cons] at before
            exact Or.inr ⟨before.1, done, text, later, rfl, before.2, panics⟩

/-- The location rule reads the text: the narrative has its shape, every text
before this one passes, and this one holds no credential. -/
def LocationReads (report : CanonicalAuditReport) (narrative : ReportNarrative)
    (text : Text) : Prop :=
  validateStructure report narrative = .ok () ∧
    (∃ done later, narrative.texts = done ++ text :: later ∧
      ∀ other ∈ done,
        checkText report (canonicalIdentifiers report) other = .ok ()) ∧
    Redaction.containsKnownCredentialAssignment text = false

/-- The validation panics exactly where the location rule does, on a text that
it reads. -/
theorem validateNarrative_eq_panic (narrative : ReportNarrative) :
    validateNarrative report narrative = .error .panic ↔
      ∃ text, LocationReads report narrative text ∧ inventedLocation text = none := by
  simp only [validateNarrative, validateProse, then_eq_panic,
    validateStructure_ne_panic, checkRemediation_ne_panic,
    checkScanners_ne_panic, checkConfidence_ne_panic, checkTexts_eq_panic,
    checkText_eq_panic, pure_ne_panic, false_or, and_false, or_false]
  constructor
  · rintro ⟨shaped, done, text, later, texts, passed, plain, panics⟩
    exact ⟨text, ⟨shaped, ⟨done, later, texts, passed⟩, plain⟩, panics⟩
  · rintro ⟨text, ⟨shaped, ⟨done, later, texts, passed⟩, plain⟩, panics⟩
    exact ⟨shaped, done, text, later, texts, passed, plain, panics⟩

end Reports

end Slices

section Samples

/-- The lower case of ASCII and of the capitals that have ASCII in theirs. -/
def accentedLowercase (character : Char) : Text :=
  if character = '\u0130' then ['i', '\u0307']
  else if character = '\u212A' then ['k']
  else [character.toLower]

theorem accentedLowercase_ascii (character : Char)
    (ascii : Text.isAscii character = true) :
    accentedLowercase character = [character.toLower] := by
  rw [accentedLowercase, if_neg, if_neg]
  · rintro rfl
    exact absurd ascii (by decide)
  · rintro rfl
    exact absurd ascii (by decide)

theorem ascii_of_mem_accentedLowercase (character lower : Char)
    (member : lower ∈ accentedLowercase character)
    (ascii : Text.isAscii lower = true) :
    Text.isAscii character = true ∨
      (character = '\u0130' ∧
        accentedLowercase character = ['i', '\u0307']) ∨
      character = '\u212A' ∧ accentedLowercase character = ['k'] := by
  by_cases dotted : character = '\u0130'
  · subst dotted
    exact Or.inr (Or.inl ⟨rfl, rfl⟩)
  · by_cases kelvin : character = '\u212A'
    · subst kelvin
      exact Or.inr (Or.inr ⟨rfl, rfl⟩)
    · rw [accentedLowercase, if_neg dotted, if_neg kelvin,
        List.mem_singleton] at member
      rw [member] at ascii
      exact Or.inl (Text.isAscii_of_toLower ascii)

/-- The letters and digits of ASCII and one accented letter. -/
def isAccentedAlphanumeric (character : Char) : Bool :=
  Text.isAsciiAlphanumeric character || character = '\u00E9'

theorem isAccentedAlphanumeric_ascii (character : Char)
    (ascii : Text.isAscii character = true) :
    isAccentedAlphanumeric character = Text.isAsciiAlphanumeric character := by
  have plain : character ≠ '\u00E9' := by
    rintro rfl
    exact absurd ascii (by decide)
  rw [isAccentedAlphanumeric, decide_eq_false plain, Bool.or_false]

/-- Tables that know one accented letter and the capitals whose lower case has
ASCII in it. -/
@[reducible]
def accentedTables : UnicodeTables where
  lowercase := accentedLowercase
  uppercase := UnicodeTables.ascii.uppercase
  isAlphanumeric := isAccentedAlphanumeric
  isCased := UnicodeTables.ascii.isCased
  isCaseIgnorable := UnicodeTables.ascii.isCaseIgnorable
  lowercase_ascii := accentedLowercase_ascii
  uppercase_ascii := UnicodeTables.ascii.uppercase_ascii
  isAlphanumeric_ascii := isAccentedAlphanumeric_ascii
  ascii_of_mem_lowercase := ascii_of_mem_accentedLowercase

/-- For every text and every narrative: the location rule returns a value
exactly when its slices start at characters, and the validation does exactly
when they do in every text that the rule reads. -/
theorem validateNarrative_returns [tables : UnicodeTables] [FloatFormat]
    (present : ∀ character, tables.lowercase character ≠ []) :
    (∀ text, inventedLocation text ≠ none ↔ Sliceable text) ∧
      ∀ report narrative, validateNarrative report narrative ≠ .error .panic ↔
        ∀ text, LocationReads report narrative text → Sliceable text := by
  refine ⟨inventedLocation_ne_none present, ?_⟩
  intro report narrative
  rw [ne_eq, validateNarrative_eq_panic, not_exists]
  apply forall_congr'
  intro text
  rw [not_and, ← inventedLocation_ne_none present]

section Ascii

attribute [local instance] UnicodeTables.ascii FloatFormat.integersOnly

theorem validateNarrative_returns_summary :
    Sliceable "Update lodash@4.17.21 first." ∧
      ∀ text, LocationReads (sampleReport []) (sampleNarrative inventedSummary []) text →
        Sliceable text := by
  have present : ∀ character,
      UnicodeTables.ascii.lowercase character ≠ [] := by
    intro character
    exact List.cons_ne_nil _ _
  constructor
  · exact ((validateNarrative_returns present).1 _).1 (by decide)
  · exact ((validateNarrative_returns present).2 _ _).1 (by decide)

end Ascii

section Accented

attribute [local instance] accentedTables FloatFormat.integersOnly

/-- A coordinate whose name is not ASCII, and a line behind a dotted capital,
are sliced inside a character. -/
theorem accented_narrative_panics :
    inventedLocation "\u00E9@1.2.3" = none ∧
      inventedLocation "\u0130line \u00E9" = none ∧
      validateNarrative (sampleReport [])
        (sampleNarrative "\u00E9@1.2.3" []) = .error .panic := by
  refine ⟨?_, ?_, ?_⟩
  · decide
  · decide
  · decide

end Accented

end Samples

end FireCrow.Schemas
