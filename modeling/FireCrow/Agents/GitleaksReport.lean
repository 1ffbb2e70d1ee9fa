import FireCrow.Agents.Adapters

/-!
# Reading the report of Gitleaks

The report is a JSON array, and an empty body or `null` is an empty one.  When
the output is none of these, what stands between its first opening and its last
closing bracket is read instead.  `serde_json` is a parameter: what is used of
it is which texts are an empty array, and that an array stands in brackets.
-/

namespace FireCrow.Agents

open FireCrow.Library FireCrow.Schemas

/-- JSON whitespace only. -/
def IsGap (text : Text) : Prop :=
  ∀ character ∈ text, Json.isSpace character = true

/-- A JSON array without entries. -/
def IsEmptyArray (text : Text) : Prop :=
  ∃ before inside after : Text, IsGap before ∧ IsGap inside ∧ IsGap after ∧
    text = before ++ '[' :: inside ++ ']' :: after

/-- Documented behaviour of `serde_json::from_str` at a vector: no entries are
read from an empty array and from nothing else, and entries are read from a
text in brackets only. -/
structure ReadsArrays (deserialize : Text → Option (List GitleaksFinding)) :
    Prop where
  empty : ∀ text, deserialize text = some [] ↔ IsEmptyArray text
  brackets : ∀ text entries, deserialize text = some entries →
    ∃ before inside after : Text, IsGap before ∧ IsGap after ∧
      text = before ++ '[' :: inside ++ ']' :: after

/-- From the first opening to the last closing bracket. -/
def bracketed (text : Text) : Option Text :=
  let slice := (text.dropWhile (· != '[')).rdropWhile (· != ']')
  if slice.isEmpty then none else some slice

def invalidReport : Text :=
  "Internal server error: gitleaks report was not valid JSON"

section Report

variable (deserialize : Text → Option (List GitleaksFinding))

/-- `parse_gitleaks_report`. -/
def parseGitleaksReport (stdout : Text) : Except Text (List GitleaksFinding) :=
  let trimmed := stdout.trim
  if trimmed.isEmpty || trimmed == ("null" : Text) then .ok []
  else
    match deserialize trimmed with
    | some entries => .ok entries
    | none =>
        -- Other lines may be interleaved with the array.
        match (bracketed trimmed).bind deserialize with
        | some entries => .ok entries
        | none => .error invalidReport

section Classify

variable [FloatFormat]

/-- The findings of a report, each with a fresh storage identifier. -/
def gitleaksFindings (freshId : Nat → Text) (stdout : Text) :
    Except Text (List Finding) := do
  let entries ← parseGitleaksReport deserialize stdout
  return entries.mapIdx fun index found =>
    findingFromGitleaks (freshId index) found

/-- `classify_gitleaks`. -/
def classifyGitleaks (scanner : Scanner) (limits : RunLimits)
    (input : ScanInput) (freshId : Nat → Text) (output : SandboxOutput) :
    ScannerResult :=
  classifyFindings scanner limits input (gitleaksFindings deserialize freshId)
    output

end Classify

end Report

/-! ## Empty reports -/

/-- What Gitleaks writes when it has found nothing. -/
def EmptyReport (trimmed : Text) : Prop :=
  trimmed = [] ∨ trimmed = ("null" : Text) ∨ IsEmptyArray trimmed

/-- Nothing but a gap stands between the first opening and the last closing
bracket. -/
def HollowBrackets (text : Text) : Prop :=
  ∃ front inside back : Text, '[' ∉ front ∧ IsGap inside ∧ ']' ∉ back ∧
    text = front ++ '[' :: inside ++ ']' :: back

variable {text : Text}

theorem IsGap.bracket_not_mem (gap : IsGap text)
    {bracket : Char} (isBracket : Json.isSpace bracket = false) :
    bracket ∉ text := by
  intro member
  rw [gap bracket member] at isBracket
  cases isBracket

variable {front : Text}

theorem dropWhile_ne_append {marker : Char} (rest : Text)
    (without : marker ∉ front) :
    (front ++ marker :: rest).dropWhile (· != marker) = marker :: rest := by
  rw [List.dropWhile_append_of_pos]
  · exact List.dropWhile_cons_of_neg (by simp)
  · intro character member
    rw [bne_iff_ne]
    exact fun same => without (same ▸ member)

variable {back : Text}

theorem rdropWhile_ne_append {marker : Char} (front : Text)
    (without : marker ∉ back) :
    (front ++ marker :: back).rdropWhile (· != marker) =
      front ++ [marker] := by
  have reversed : (front ++ marker :: back).reverse =
      back.reverse ++ marker :: front.reverse := by simp
  rw [List.rdropWhile, reversed, dropWhile_ne_append]
  · simp
  · simpa using without

theorem bracketed_eq {inside : Text} (opening : '[' ∉ front)
    (closing : ']' ∉ back) :
    bracketed (front ++ '[' :: inside ++ ']' :: back) =
      some ('[' :: inside ++ [']']) := by
  have cut : ((front ++ '[' :: inside ++ ']' :: back).dropWhile
      (· != '[')).rdropWhile (· != ']') = '[' :: inside ++ [']'] := by
    rw [List.append_assoc, List.cons_append, dropWhile_ne_append _ opening,
      ← List.cons_append, rdropWhile_ne_append _ closing]
  rw [bracketed, cut]
  rfl

/-- What the search leaves out has no bracket that it looks for. -/
theorem exists_of_bracketed {slice : Text}
    (found : bracketed text = some slice) :
    ∃ front back : Text, '[' ∉ front ∧ ']' ∉ back ∧
      text = front ++ slice ++ back := by
  rw [bracketed] at found
  split at found
  · cases found
  · cases found
    refine ⟨text.takeWhile (· != '['),
      (text.dropWhile (· != '[')).rtakeWhile (· != ']'), ?_, ?_, ?_⟩
    · exact fun member => by simpa using List.mem_takeWhile_imp member
    · exact fun member =>
        absurd (List.mem_rtakeWhile_imp (p := (· != ']')) member) (by simp)
    · rw [List.append_assoc, List.rdropWhile_append_rtakeWhile,
        List.takeWhile_append_dropWhile]

theorem IsEmptyArray.hollow {array : Text}
    (empty : IsEmptyArray array) (opening : '[' ∉ front)
    (closing : ']' ∉ back) : HollowBrackets (front ++ array ++ back) := by
  obtain ⟨before, inside, after, gapBefore, gapInside, gapAfter, rfl⟩ := empty
  refine ⟨front ++ before, inside, after ++ back, ?_, gapInside, ?_, ?_⟩
  · rw [List.mem_append, not_or]
    exact ⟨opening, gapBefore.bracket_not_mem rfl⟩
  · rw [List.mem_append, not_or]
    exact ⟨gapAfter.bracket_not_mem rfl, closing⟩
  · simp only [List.append_assoc, List.cons_append]

/-- A hollow text in brackets is an empty array. -/
theorem HollowBrackets.isEmptyArray {before inside after : Text}
    (hollow : HollowBrackets (before ++ '[' :: inside ++ ']' :: after))
    (gapBefore : IsGap before) (gapAfter : IsGap after) :
    IsEmptyArray (before ++ '[' :: inside ++ ']' :: after) := by
  obtain ⟨front, between, back, opening, gap, closing, same⟩ := hollow
  have slices : bracketed (before ++ '[' :: inside ++ ']' :: after) =
      some ('[' :: inside ++ [']']) :=
    bracketed_eq (gapBefore.bracket_not_mem rfl) (gapAfter.bracket_not_mem rfl)
  rw [same, bracketed_eq opening closing, Option.some.injEq,
    List.append_left_inj, List.cons.injEq] at slices
  exact ⟨before, inside, after, gapBefore, slices.2 ▸ gap, gapAfter, rfl⟩

section Report

variable {deserialize : Text → Option (List GitleaksFinding)}

theorem parseGitleaksReport_eq_nil_iff (reads : ReadsArrays deserialize)
    (stdout : Text) :
    parseGitleaksReport deserialize stdout = .ok [] ↔
      stdout.trim = [] ∨ stdout.trim = ("null" : Text) ∨
        HollowBrackets stdout.trim := by
  rw [parseGitleaksReport]
  generalize stdout.trim = trimmed
  by_cases word : trimmed = [] ∨ trimmed = ("null" : Text)
  · rw [if_pos (by simpa using word)]
    constructor
    · exact fun _ => word.imp_right .inl
    · exact fun _ => rfl
  · rw [if_neg (by simpa using word)]
    rw [← or_assoc, or_iff_right word]
    cases whole : deserialize trimmed with
    | some entries =>
        constructor
        · intro none
          cases none
          have hollow : HollowBrackets ([] ++ trimmed ++ []) :=
            ((reads.empty trimmed).1 whole).hollow List.not_mem_nil
              List.not_mem_nil
          simpa using hollow
        · intro hollow
          obtain ⟨before, inside, after, gapBefore, gapAfter, rfl⟩ :=
            reads.brackets trimmed entries whole
          have empty := hollow.isEmptyArray gapBefore gapAfter
          rw [(reads.empty _).2 empty] at whole
          cases whole
          rfl
    | none =>
        dsimp only
        constructor
        · intro none
          cases found : bracketed trimmed with
          | none =>
              rw [found] at none
              cases none
          | some slice =>
              rw [found, Option.bind_some] at none
              obtain ⟨front, back, opening, closing, rfl⟩ :=
                exists_of_bracketed found
              cases read : deserialize slice with
              | none =>
                  rw [read] at none
                  cases none
              | some entries =>
                  rw [read] at none
                  cases none
                  exact ((reads.empty slice).1 read).hollow opening closing
        · rintro ⟨front, inside, back, opening, gap, closing, rfl⟩
          have empty : IsEmptyArray ('[' :: inside ++ [']']) :=
            ⟨[], inside, [], fun _ member => (List.not_mem_nil member).elim,
              gap, fun _ member => (List.not_mem_nil member).elim, rfl⟩
          rw [bracketed_eq opening closing, Option.bind_some,
            (reads.empty _).2 empty]

section Classify

variable [FloatFormat]

/-- A failure is not read as a clean repository: no findings are reported only
for an empty report of a successful run. -/
structure NeverReadAsClean (output : SandboxOutput) (result : ScannerResult) :
    Prop where
  clean : result.outcome = .success 0 →
    output.success = true ∧ EmptyReport output.stdout.trim
  found : output.success = false → result.outcome.isSuccess = true →
    result.findings ≠ []

/-- An empty report stands alone, and comes from a successful run. -/
structure EmptyAlone (output : SandboxOutput) : Prop where
  array : HollowBrackets output.stdout.trim →
    output.success = true ∧ IsEmptyArray output.stdout.trim
  null : output.stdout.trim = ("null" : Text) → output.success = true

/-- What a successful classification has read. -/
theorem classifyGitleaks_success {scanner : Scanner} {limits : RunLimits}
    {input : ScanInput} {freshId : Nat → Text} {output : SandboxOutput}
    (success : (classifyGitleaks deserialize scanner limits input freshId
      output).outcome.isSuccess = true) :
    ¬ (output.stdout.isBlank = true ∧ output.success = false) ∧
      ∃ entries, parseGitleaksReport deserialize output.stdout = .ok entries ∧
        (classifyGitleaks deserialize scanner limits input freshId
          output).outcome = .success entries.length ∧
        (classifyGitleaks deserialize scanner limits input freshId
          output).findings.length = entries.length := by
  unfold classifyGitleaks classifyFindings gitleaksFindings at success ⊢
  split at success
  · cases success
  · rename_i present
    rw [if_neg present]
    cases parsed : parseGitleaksReport deserialize output.stdout with
    | error reason =>
        rw [parsed] at success
        cases success
    | ok entries =>
        refine ⟨present, entries, rfl, ?_, ?_⟩
        · simp [successResult, resultOf, bind, Except.bind, pure, Except.pure]
        · simp [successResult, resultOf, bind, Except.bind, pure, Except.pure]

theorem classifyGitleaks_empty {scanner : Scanner} {limits : RunLimits}
    {input : ScanInput} {freshId : Nat → Text} {output : SandboxOutput}
    (present : ¬ (output.stdout.isBlank = true ∧ output.success = false))
    (empty : parseGitleaksReport deserialize output.stdout = .ok []) :
    (classifyGitleaks deserialize scanner limits input freshId
      output).outcome = .success 0 := by
  rw [classifyGitleaks, classifyFindings, if_neg present, gitleaksFindings,
    empty]
  rfl

/-- Gitleaks' failures are told from clean repositories exactly when an empty
report stands alone in the output of a successful run. -/
theorem gitleaks_never_clean_iff (reads : ReadsArrays deserialize)
    (scanner : Scanner) (limits : RunLimits) (input : ScanInput)
    (freshId : Nat → Text) (output : SandboxOutput) :
    NeverReadAsClean output
        (classifyGitleaks deserialize scanner limits input freshId output) ↔
      EmptyAlone output := by
  have parsed := parseGitleaksReport_eq_nil_iff reads output.stdout
  have blank := Text.trim_eq_nil output.stdout
  constructor
  · intro never
    have read : output.stdout.trim ≠ [] →
        (output.stdout.trim = ("null" : Text) ∨
          HollowBrackets output.stdout.trim) →
        output.success = true ∧ EmptyReport output.stdout.trim := by
      intro present kind
      apply never.clean
      apply classifyGitleaks_empty
      · exact fun missing => present (blank.2 missing.1)
      · exact parsed.2 (.inr kind)
    constructor
    · intro hollow
      have opened : '[' ∈ output.stdout.trim := by
        obtain ⟨front, inside, back, _, _, _, same⟩ := hollow
        simp [same]
      have ended := read (List.ne_nil_of_mem opened) (.inr hollow)
      rcases ended.2 with nothing | null | array
      · rw [nothing] at opened
        cases opened
      · rw [null] at opened
        exact absurd opened (by decide)
      · exact ⟨ended.1, array⟩
    · intro null
      exact (read (by rw [null]; decide) (.inl null)).1
  · intro alone
    have ended : ¬ (output.stdout.isBlank = true ∧ output.success = false) →
        parseGitleaksReport deserialize output.stdout = .ok [] →
        output.success = true ∧ EmptyReport output.stdout.trim := by
      intro present empty
      rcases parsed.1 empty with nothing | null | hollow
      · constructor
        · rw [← Bool.not_eq_false]
          exact fun failed => present ⟨blank.1 nothing, failed⟩
        · exact .inl nothing
      · exact ⟨alone.null null, .inr (.inl null)⟩
      · exact ⟨(alone.array hollow).1, .inr (.inr (alone.array hollow).2)⟩
    constructor
    · intro clean
      have success : (classifyGitleaks deserialize scanner limits input freshId
          output).outcome.isSuccess = true := by
        rw [clean]
        rfl
      obtain ⟨present, entries, read, outcome, _⟩ :=
        classifyGitleaks_success success
      rw [clean, ScannerOutcome.success.injEq, eq_comm,
        List.length_eq_zero_iff] at outcome
      exact ended present (outcome ▸ read)
    · intro failed success nothing
      obtain ⟨present, entries, read, _, length⟩ :=
        classifyGitleaks_success success
      rw [nothing, List.length_nil, eq_comm, List.length_eq_zero_iff] at length
      rw [(ended present (length ▸ read)).1] at failed
      cases failed

end Classify

end Report

/-! ## Log lines -/

/-- What follows the first bracket, the gap after it left out. -/
def afterOpening (text : Text) : Text :=
  Json.skipSpace (Json.skipSpace text).tail

/-- A reader of empty arrays only. -/
def readEmptyArray (text : Text) : Option (List GitleaksFinding) :=
  if (Json.skipSpace text).head? = some '[' ∧
      (afterOpening text).head? = some ']' ∧
      (afterOpening text).tail.all Json.isSpace = true then some []
  else none

theorem skipSpace_append {before : Text} {head : Char} (rest : Text)
    (gap : IsGap before) (word : Json.isSpace head = false) :
    Json.skipSpace (before ++ head :: rest) = head :: rest := by
  rw [Json.skipSpace, List.dropWhile_append_of_pos gap]
  exact List.dropWhile_cons_of_neg (by simp [word])

theorem exists_of_skipSpace {rest : Text}
    (skipped : Json.skipSpace text = rest) :
    ∃ before : Text, IsGap before ∧ text = before ++ rest := by
  refine ⟨text.takeWhile Json.isSpace, ?_, ?_⟩
  · exact fun character member => List.mem_takeWhile_imp member
  · rw [← skipped, Json.skipSpace, List.takeWhile_append_dropWhile]

theorem readEmptyArray_of_isEmptyArray
    (empty : IsEmptyArray text) : readEmptyArray text = some [] := by
  obtain ⟨before, inside, after, gapBefore, gapInside, gapAfter, rfl⟩ := empty
  have opened : Json.skipSpace (before ++ '[' :: inside ++ ']' :: after) =
      '[' :: (inside ++ ']' :: after) := by
    rw [List.append_assoc, List.cons_append, skipSpace_append _ gapBefore rfl]
  have closed : afterOpening (before ++ '[' :: inside ++ ']' :: after) =
      ']' :: after := by
    rw [afterOpening, opened, List.tail_cons, skipSpace_append _ gapInside rfl]
  rw [readEmptyArray, opened, closed]
  exact if_pos ⟨rfl, rfl, List.all_eq_true.2 gapAfter⟩

theorem isEmptyArray_of_readEmptyArray {entries : List GitleaksFinding}
    (read : readEmptyArray text = some entries) : IsEmptyArray text := by
  unfold readEmptyArray at read
  split at read
  · rename_i shape
    obtain ⟨opening, closing, trailing⟩ := shape
    obtain ⟨rest, opened⟩ := List.head?_eq_some_iff.1 opening
    obtain ⟨after, closed⟩ := List.head?_eq_some_iff.1 closing
    rw [closed, List.tail_cons] at trailing
    rw [afterOpening, opened, List.tail_cons] at closed
    obtain ⟨before, gapBefore, rfl⟩ := exists_of_skipSpace opened
    obtain ⟨inside, gapInside, rfl⟩ := exists_of_skipSpace closed
    refine ⟨before, inside, after, gapBefore, gapInside,
      List.all_eq_true.1 trailing, ?_⟩
    rw [List.append_assoc, List.cons_append]
  · cases read

theorem readEmptyArray_readsArrays : ReadsArrays readEmptyArray := by
  constructor
  · intro text
    constructor
    · exact fun read => isEmptyArray_of_readEmptyArray read
    · exact readEmptyArray_of_isEmptyArray
  · intro text entries read
    obtain ⟨before, inside, after, gapBefore, _, gapAfter, same⟩ :=
      isEmptyArray_of_readEmptyArray read
    exact ⟨before, inside, after, gapBefore, gapAfter, same⟩

section Samples

attribute [local instance] FloatFormat.integersOnly

def smallLimits : RunLimits where
  timeoutSecs := 300
  cpus := unsigned 1
  memory := "512m"
  pidsLimit := 128

def smallInput : ScanInput where
  commitSha := none
  fileCount := 1
  totalSize := 1

def sampleId (index : Nat) : Text := "row-" ++ toString index

/-- A run that has found nothing. -/
def cleanOutput : SandboxOutput where
  stdout := "[]"
  stderr := []
  success := true

theorem gitleaks_never_clean_iff_cleanOutput :
    NeverReadAsClean cleanOutput (classifyGitleaks readEmptyArray .gitleaks
      smallLimits smallInput sampleId cleanOutput) ↔ EmptyAlone cleanOutput :=
  gitleaks_never_clean_iff readEmptyArray_readsArrays .gitleaks smallLimits
    smallInput sampleId cleanOutput

/-- A run that has ended with an error, which names an empty list. -/
def brokenOutput : SandboxOutput where
  stdout := "FTL unable to load the config, rules: []"
  stderr := []
  success := false

/-- The brackets of the log line are taken for an empty report. -/
theorem brokenOutput_read_as_clean :
    ¬ ∀ deserialize, ReadsArrays deserialize → ∀ scanner limits input freshId
      output, NeverReadAsClean output
        (classifyGitleaks deserialize scanner limits input freshId output) := by
  intro claim
  have never := claim readEmptyArray readEmptyArray_readsArrays .gitleaks
    smallLimits smallInput sampleId brokenOutput
  have clean : (classifyGitleaks readEmptyArray .gitleaks smallLimits
      smallInput sampleId brokenOutput).outcome = .success 0 := by
    decide +kernel
  have ended := (never.clean clean).1
  cases ended

end Samples

end FireCrow.Agents
