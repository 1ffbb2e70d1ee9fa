import FireCrow.Library.RegexReplace
import FireCrow.Services.Redaction

/-!
# What the gate finds in a redacted text

The redactor first replaces keyword assignments by texts that are keyword
assignments themselves, then tokens by markers.  The tokens are gone from its
output.  A keyword assignment is found there only where the text had one, or
where the length limit cuts a text behind a keyword and its separator, so that
the truncation mark takes the place of the value.
-/

namespace FireCrow.Services.Redaction

open FireCrow.Library

/-! ## The two kinds of patterns -/

def keywordPatterns : List Pattern :=
  [passwordPattern, tokenPattern, secretPattern, apiKeyPattern,
    authorizationPattern, bearerPattern]

def tokenPatterns : List Pattern :=
  [awsAccessKeyPattern, awsTemporaryKeyPattern, githubTokenPattern,
    githubPatPattern]

theorem credentialAssignmentPatterns_eq :
    credentialAssignmentPatterns = keywordPatterns ++ tokenPatterns := rfl

def keywordRedactions : List (Pattern × Text) := redactions.take 6

def tokenRedactions : List (Pattern × Text) := redactions.drop 6

theorem keywordRedactions_patterns :
    keywordRedactions.map Prod.fst = keywordPatterns := rfl

theorem tokenRedactions_patterns :
    tokenRedactions.map Prod.fst = tokenPatterns ++ [base64Pattern] := rfl

/-- Apply some replacements in order. -/
def redactBy (steps : List (Pattern × Text)) (text : Text) : Text :=
  steps.foldl (fun result step => step.1.replaceAll step.2 result) text

theorem redactPatterns_eq (text : Text) :
    redactPatterns text =
      redactBy tokenRedactions (redactBy keywordRedactions text) := by
  rw [redactBy, redactBy, ← List.foldl_append, keywordRedactions,
    tokenRedactions, List.take_append_drop]
  rfl

/-! ## Keyword assignments -/

/-- A keyword pattern matches the text. -/
def HasKeyword (text : Text) : Prop :=
  ∃ pattern ∈ keywordPatterns, pattern.isMatch text = true

def assignmentHead : Pattern :=
  [.atLeast Text.isWhitespace 0,
    .one fun character => character == '=' || character == ':',
    .atLeast Text.isWhitespace 0]

/-- The value of an assignment, `\S+`. -/
def assignedValue : Pattern :=
  [.atLeast (fun character => !Text.isWhitespace character) 1]

/-- The keyword patterns without the value. -/
def keywordHeads : List Pattern :=
  [foldLiteral "password" ++ assignmentHead, foldLiteral "token" ++ assignmentHead,
    foldLiteral "secret" ++ assignmentHead,
    foldLiteral "api" ++
      .optional (fun character => character == '_' || character == '-') ::
      (foldLiteral "key" ++ assignmentHead),
    foldLiteral "authorization:" ++ [.atLeast Text.isWhitespace 0],
    foldLiteral "bearer" ++ [.atLeast Text.isWhitespace 1]]

theorem keywordPatterns_eq :
    keywordPatterns = keywordHeads.map (· ++ assignedValue) := rfl

/-- A keyword with its separator, up to the value. -/
def KeywordHead (head : Text) : Prop :=
  ∃ pattern ∈ keywordHeads, pattern.Denotes head

/-- The text ends in a keyword and its separator. -/
def EndsInKeyword (text : Text) : Prop :=
  ∃ pre head, KeywordHead head ∧ text = pre ++ head

/-- A text has a keyword assignment where a character that is no white space
follows a keyword and its separator. -/
theorem hasKeyword_iff (text : Text) :
    HasKeyword text ↔ ∃ pre head character post, KeywordHead head ∧
      Text.isWhitespace character = false ∧
      text = pre ++ (head ++ character :: post) := by
  rw [HasKeyword, keywordPatterns_eq]
  constructor
  · rintro ⟨_, member, found⟩
    rcases List.mem_map.1 member with ⟨pattern, known, rfl⟩
    rcases (Pattern.isMatch_iff _ _).1 found with ⟨_, ⟨pre, post, rfl⟩, denotes⟩
    rcases Pattern.denotes_append_iff.1 denotes with
      ⟨head, value, rfl, denoted, assigned⟩
    rcases assigned.head le_rfl with ⟨character, rest, rfl, word⟩
    refine ⟨pre, head, character, rest ++ post, ⟨pattern, known, denoted⟩, ?_, ?_⟩
    · simpa [Piece.atLeast] using word
    · simp only [List.append_assoc, List.cons_append]
  · rintro ⟨pre, head, character, post, ⟨pattern, known, denotes⟩, word, rfl⟩
    refine ⟨_, List.mem_map_of_mem known, (Pattern.isMatch_iff _ _).2
      ⟨head ++ [character], ⟨pre, post, ?_⟩,
        Pattern.denotes_append denotes
          ⟨[character], [], rfl, ?_, ⟨le_rfl, ?_⟩, rfl⟩⟩⟩
    · simp only [List.append_assoc, List.singleton_append]
    · simp [Piece.atLeast, word]
    · intro most bound
      cases bound

/-! ## Markers -/

/-- The marker of a token stands in brackets, and none of the patterns of the
gate has a word in it. -/
theorem tokenRedactions_marker :
    ∀ step ∈ tokenRedactions,
      (∃ inner : Text, step.2 = '[' :: (inner ++ [']'])) ∧
        ∀ pattern ∈ keywordHeads ++ tokenPatterns, pattern.Bars step.2 := by
  have redacted : ("[REDACTED]" : Text) = '[' :: (("REDACTED" : Text) ++ [']']) :=
    rfl
  have encoded : ("[BASE64_REDACTED]" : Text) =
      '[' :: (("BASE64_REDACTED" : Text) ++ [']']) := rfl
  have bars : ∀ marker ∈ [("[REDACTED]" : Text), ("[BASE64_REDACTED]" : Text)],
      ∀ pattern ∈ keywordHeads ++ tokenPatterns, pattern.Bars marker := by
    unfold Pattern.Bars
    decide
  have known : ∀ step ∈ tokenRedactions,
      step.2 ∈ [("[REDACTED]" : Text), ("[BASE64_REDACTED]" : Text)] := by
    decide
  intro step member
  refine ⟨?_, bars _ (known step member)⟩
  rcases List.mem_pair.1 (known step member) with same | same
  · exact ⟨_, same.trans redacted⟩
  · exact ⟨_, same.trans encoded⟩

theorem truncation_barred :
    ∀ pattern ∈ keywordHeads ++ tokenPatterns,
      pattern.Bars ("... [truncated]" : Text) := by
  unfold Pattern.Bars
  decide

theorem marks_avoided :
    ∀ pattern ∈ keywordHeads ++ tokenPatterns,
      ∀ mark ∈ ['[', ']', '.'], pattern.Avoids mark := by
  unfold Pattern.Avoids
  decide

/-! ## Token replacements -/

theorem isWhitespace_of_printed {character : Char}
    (low : '+' ≤ character) (high : character ≤ 'z') :
    Text.isWhitespace character = false := by
  have least : 43 ≤ character.val.toNat := UInt32.le_iff_toNat_le.1 low
  have most : character.val.toNat ≤ 122 := UInt32.le_iff_toNat_le.1 high
  simp only [Text.isWhitespace, Bool.or_eq_false_iff, Bool.and_eq_false_iff,
    decide_eq_false_iff_not, beq_eq_false_iff_ne]
  omega

theorem isWhitespace_of_isWord {character : Char}
    (word : isWord character = true) : Text.isWhitespace character = false := by
  simp only [isWord, Text.isAsciiDigit, Text.isAsciiUppercase,
    Text.isAsciiLowercase, Bool.or_eq_true, Bool.and_eq_true,
    decide_eq_true_eq] at word
  rcases word with (⟨low, high⟩ | ⟨low, high⟩) | ⟨low, high⟩
  · exact isWhitespace_of_printed (le_trans (by decide) low)
      (le_trans high (by decide))
  · exact isWhitespace_of_printed (le_trans (by decide) low)
      (le_trans high (by decide))
  · exact isWhitespace_of_printed (le_trans (by decide) low)
      (le_trans high (by decide))

variable {step : Pattern × Text}

/-- A token pattern starts with a character that is no white space. -/
theorem tokenRedactions_first (member : step ∈ tokenRedactions) :
    ∃ piece rest, step.1 = piece :: rest ∧ 1 ≤ piece.least ∧
      ∀ character, piece.accepts character = true →
        Text.isWhitespace character = false := by
  have letter (expected : Char) (plain : Text.isWhitespace expected = false) :
      ∀ character, (Piece.one (· == expected)).accepts character = true →
        Text.isWhitespace character = false := by
    intro character same
    rw [eq_of_beq same]
    exact plain
  simp only [tokenRedactions, redactions, List.drop_succ_cons, List.drop_zero,
    List.mem_cons, List.not_mem_nil, or_false] at member
  rcases member with rfl | rfl | rfl | rfl | rfl
  · exact ⟨_, _, rfl, le_rfl, letter 'A' (by decide)⟩
  · exact ⟨_, _, rfl, le_rfl, letter 'A' (by decide)⟩
  · exact ⟨_, _, rfl, le_rfl, letter 'g' (by decide)⟩
  · exact ⟨_, _, rfl, le_rfl, letter 'g' (by decide)⟩
  · refine ⟨_, _, rfl, by decide, ?_⟩
    intro character accepted
    simp only [Piece.atLeast, Bool.or_eq_true, beq_iff_eq] at accepted
    rcases accepted with (word | rfl) | rfl
    · exact isWhitespace_of_isWord word
    · decide
    · decide

theorem tokenRedactions_word (member : step ∈ tokenRedactions) {part : Text}
    (denotes : step.1.Denotes part) :
    ∃ character rest, part = character :: rest ∧
      Text.isWhitespace character = false := by
  rcases tokenRedactions_first member with ⟨piece, others, same, least, plain⟩
  rw [same] at denotes
  rcases denotes.head least with ⟨character, rest, rfl, accepts⟩
  exact ⟨character, rest, rfl, plain character accepts⟩

variable {pattern : Pattern} {pre : Text}

/-- A word behind a token replacement that one of the gate's patterns has stood
in the text, and what follows it is rewritten by itself. -/
theorem word_of_token_step (member : step ∈ tokenRedactions)
    (listed : pattern ∈ keywordHeads ++ tokenPatterns)
    {text word post : Text} (denotes : pattern.Denotes word)
    (same : step.1.replaceAll step.2 text = pre ++ (word ++ post)) :
    ∃ before rest, text = before ++ (word ++ rest) ∧
      step.1.NoMatch (word ++ rest) ∧
      Pattern.Rewrites step.1.NoMatch
        (fun part => part ≠ [] ∧ step.1.Denotes part) step.2 rest post := by
  rcases tokenRedactions_marker step member with ⟨⟨inner, marker⟩, bars⟩
  have rewrites := Pattern.replaceAll_rewrites step.1 step.2 text
  have avoids := marks_avoided pattern listed
  have nonempty : word ≠ [] := by
    rintro rfl
    exact (bars pattern listed).not_within denotes List.nil_infix
  rw [same, marker] at rewrites
  rcases rewrites.of_word nonempty
      ((avoids '[' (by simp)).not_mem denotes)
      ((avoids ']' (by simp)).not_mem denotes) with
    inside | stood
  · rw [← marker] at inside
    exact absurd inside ((bars pattern listed).not_within denotes)
  · rw [← marker] at stood
    exact stood

variable {text : Text}

section

variable (member : step ∈ tokenRedactions)
include member

/-- A token replacement brings no keyword assignment. -/
theorem hasKeyword_of_token_step
    (found : HasKeyword (step.1.replaceAll step.2 text)) : HasKeyword text := by
  rcases (hasKeyword_iff _).1 found with
    ⟨pre, head, character, post, ⟨pattern, known, denotes⟩, word, same⟩
  rcases word_of_token_step member (List.mem_append_left _ known) denotes same with
    ⟨before, rest, rfl, _, further⟩
  rw [hasKeyword_iff]
  generalize ends : character :: post = last at further
  cases further with
  | nil => cases ends
  | keep stays later =>
      cases ends
      exact ⟨before, head, _, _, ⟨pattern, known, denotes⟩, word, rfl⟩
  | swap goes later =>
      rcases tokenRedactions_word member goes.2 with ⟨other, part, rfl, plain⟩
      exact ⟨before, head, other, _, ⟨pattern, known, denotes⟩, plain, rfl⟩

/-- A token replacement leaves the end of a text that ends in a keyword. -/
theorem endsInKeyword_of_token_step
    (ends : EndsInKeyword (step.1.replaceAll step.2 text)) :
    EndsInKeyword text := by
  rcases ends with ⟨pre, head, ⟨pattern, known, denotes⟩, same⟩
  rw [← List.append_nil head] at same
  rcases word_of_token_step member (List.mem_append_left _ known) denotes same with
    ⟨before, rest, rfl, _, further⟩
  rcases tokenRedactions_marker step member with ⟨⟨inner, marker⟩, _⟩
  rw [marker] at further
  rw [further.of_nil, List.append_nil]
  exact ⟨before, head, ⟨pattern, known, denotes⟩, rfl⟩

theorem token_of_token_step (known : pattern ∈ tokenPatterns)
    (unmatched : pattern.isMatch text = false) :
    pattern.isMatch (step.1.replaceAll step.2 text) = false := by
  rw [← Bool.not_eq_true, Pattern.isMatch_iff] at unmatched ⊢
  rintro ⟨word, ⟨pre, post, same⟩, denotes⟩
  rw [List.append_assoc] at same
  rcases word_of_token_step member (List.mem_append_right _ known) denotes
      same.symm with
    ⟨before, rest, rfl, _, _⟩
  exact unmatched ⟨word, ⟨before, rest, List.append_assoc _ _ _⟩, denotes⟩

theorem token_step_removes (known : step.1 ∈ tokenPatterns) (text : Text) :
    step.1.isMatch (step.1.replaceAll step.2 text) = false := by
  rw [← Bool.not_eq_true, Pattern.isMatch_iff]
  rintro ⟨word, ⟨pre, post, same⟩, denotes⟩
  rw [List.append_assoc] at same
  rcases word_of_token_step member (List.mem_append_right _ known) denotes
      same.symm with
    ⟨before, rest, _, none, _⟩
  rcases Option.isSome_iff_exists.1 (Pattern.matchHere_isSome denotes rest) with
    ⟨length, found⟩
  cases length with
  | zero =>
      have empty := (Pattern.denotes_of_matchHere found).2
      rcases tokenRedactions_word member empty with ⟨_, _, impossible, _⟩
      cases impossible
  | succ length => exact none length found

end

theorem tokens_removed (known : pattern ∈ tokenPatterns)
    (steps : List (Pattern × Text))
    (listed : ∀ step ∈ steps, step ∈ tokenRedactions) (text : Text)
    (handled : pattern ∈ steps.map Prod.fst ∨ pattern.isMatch text = false) :
    pattern.isMatch (redactBy steps text) = false := by
  induction steps generalizing text with
  | nil =>
      rcases handled with member | unmatched
      · cases member
      · exact unmatched
  | cons step steps ih =>
      rw [List.forall_mem_cons] at listed
      apply ih listed.2
      rcases handled with member | unmatched
      · rw [List.map_cons, List.mem_cons] at member
        rcases member with rfl | later
        · exact Or.inr (token_step_removes listed.1 known text)
        · exact Or.inl later
      · exact Or.inr (token_of_token_step listed.1 known unmatched)

variable {steps : List (Pattern × Text)}

theorem hasKeyword_of_tokens (listed : ∀ step ∈ steps, step ∈ tokenRedactions)
    (found : HasKeyword (redactBy steps text)) : HasKeyword text := by
  induction steps generalizing text with
  | nil => exact found
  | cons step steps ih =>
      rw [List.forall_mem_cons] at listed
      exact hasKeyword_of_token_step listed.1 (ih listed.2 found)

/-! ## Keyword replacements -/

theorem HasKeyword.of_part {part whole : Text} (inside : part <:+: whole)
    (found : HasKeyword part) : HasKeyword whole := by
  rcases found with ⟨pattern, member, found⟩
  exact ⟨pattern, member, Pattern.isMatch_of_infix inside found⟩

theorem keywordRedactions_assign :
    ∀ step ∈ keywordRedactions, HasKeyword step.2 := by
  unfold HasKeyword
  decide

/-- The keyword replacements keep a text without keyword assignment. -/
theorem redactBy_keywords_eq (none : ¬ HasKeyword text)
    (listed : ∀ step ∈ steps, step ∈ keywordRedactions) :
    redactBy steps text = text := by
  induction steps with
  | nil => rfl
  | cons step steps ih =>
      rw [List.forall_mem_cons] at listed
      have known : step.1 ∈ keywordPatterns := by
        rw [← keywordRedactions_patterns]
        exact List.mem_map_of_mem listed.1
      have unmatched : step.1.isMatch text = false := by
        rw [← Bool.not_eq_true]
        exact fun found => none ⟨step.1, known, found⟩
      rw [redactBy, List.foldl_cons, Pattern.replaceAll_eq_self unmatched]
      exact ih listed.2

/-- The keyword replacements leave a keyword assignment where there was one. -/
theorem hasKeyword_redactBy (found : HasKeyword text)
    (listed : ∀ step ∈ steps, step ∈ keywordRedactions) :
    HasKeyword (redactBy steps text) := by
  induction steps generalizing text with
  | nil => exact found
  | cons step steps ih =>
      rw [List.forall_mem_cons] at listed
      apply ih _ listed.2
      show HasKeyword (step.1.replaceAll step.2 text)
      rcases Pattern.replaceAll_eq_self_or_contains step.1 step.2 text with
        same | inside
      · rw [same]
        exact found
      · exact (keywordRedactions_assign step listed.1).of_part inside

/-! ## The gate -/

theorem gate_iff (text : Text) :
    containsKnownCredentialAssignment text = true ↔
      HasKeyword text ∨ ∃ pattern ∈ tokenPatterns, pattern.isMatch text = true := by
  rw [containsKnownCredentialAssignment, credentialAssignmentPatterns_eq,
    List.any_append, Bool.or_eq_true, List.any_eq_true, List.any_eq_true]
  exact Iff.rfl

/-- The length limit cuts the text behind a keyword and its separator. -/
def CutBehindKeyword (text : Text) (maxLength : Nat) : Prop :=
  (0 < maxLength ∧ maxLength < (redactPatterns text).byteLen) ∧
    ∃ pre head, KeywordHead head ∧
      Text.takeBytes maxLength (redactPatterns text) = pre ++ head

/-- Without a limit, the gate finds the keyword assignments only. -/
theorem gate_redactPatterns (text : Text) :
    containsKnownCredentialAssignment (redactPatterns text) = true ↔
      HasKeyword (redactPatterns text) := by
  rw [gate_iff]
  apply or_iff_left
  rintro ⟨pattern, known, found⟩
  have handled : pattern ∈ tokenRedactions.map Prod.fst := by
    rw [tokenRedactions_patterns]
    exact List.mem_append_left _ known
  rw [redactPatterns_eq, tokens_removed known tokenRedactions
    (fun _ member => member) _ (Or.inl handled)] at found
  cases found

theorem not_hasKeyword_redactPatterns (none : ¬ HasKeyword text) :
    ¬ HasKeyword (redactPatterns text) := by
  intro found
  rw [redactPatterns_eq] at found
  have before := hasKeyword_of_tokens (fun _ member => member) found
  rw [redactBy_keywords_eq none (fun _ member => member)] at before
  exact none before

/-! ## The length limit -/

/-- A word of a text with a mark in it that avoids the mark stands in front of
the mark or in the rest. -/
theorem word_in_marked {word post front back : Text} {mark : Char}
    (same : pre ++ (word ++ post) = front ++ mark :: back)
    (avoids : mark ∉ word) :
    (∃ middle, front = pre ++ (word ++ middle) ∧ post = middle ++ mark :: back) ∨
      word <:+: mark :: back := by
  rcases List.append_eq_append_iff.1 same with
    ⟨middle, rfl, later⟩ | ⟨middle, _, later⟩
  · rcases List.append_eq_append_iff.1 later with
      ⟨extra, rfl, behind⟩ | ⟨extra, ends, behind⟩
    · exact Or.inl ⟨extra, rfl, behind⟩
    · cases extra with
      | nil =>
          rw [List.append_nil] at ends
          exact Or.inl ⟨[], by rw [ends, List.append_nil], behind.symm⟩
      | cons first extra =>
          cases behind
          exact absurd (by rw [ends]; simp) avoids
  · exact Or.inr ⟨middle, post, by rw [List.append_assoc]; exact later.symm⟩

theorem takeBytes_starts (limit : Nat) (text : Text) :
    Text.takeBytes limit text <+: text := by
  induction text generalizing limit with
  | nil => exact List.prefix_rfl
  | cons character rest ih =>
      rw [Text.takeBytes]
      split
      · exact List.cons_prefix_cons.2 ⟨rfl, ih _⟩
      · exact List.nil_prefix

variable {maxLength : Nat}

theorem redactText_cut
    (cut : 0 < maxLength ∧ maxLength < (redactPatterns text).byteLen) :
    redactText text maxLength =
      Text.takeBytes maxLength (redactPatterns text) ++
        '.' :: (".. [truncated]" : Text) :=
  if_pos cut

theorem redactText_whole
    (whole : ¬ (0 < maxLength ∧ maxLength < (redactPatterns text).byteLen)) :
    redactText text maxLength = redactPatterns text :=
  if_neg whole

theorem gate_redactText (text : Text) (maxLength : Nat) :
    containsKnownCredentialAssignment (redactText text maxLength) = true ↔
      HasKeyword (redactText text maxLength) := by
  by_cases cut : 0 < maxLength ∧ maxLength < (redactPatterns text).byteLen
  · rw [gate_iff]
    apply or_iff_left
    rintro ⟨pattern, known, found⟩
    rcases (Pattern.isMatch_iff _ _).1 found with ⟨word, ⟨pre, post, same⟩, denotes⟩
    have listed : pattern ∈ keywordHeads ++ tokenPatterns :=
      List.mem_append_right _ known
    rw [redactText_cut cut, List.append_assoc] at same
    rcases word_in_marked same
        ((marks_avoided pattern listed '.' (by simp)).not_mem denotes) with
      ⟨middle, front, _⟩ | inside
    · have kept : word <:+: redactPatterns text :=
        List.IsInfix.trans ⟨pre, middle, by rw [List.append_assoc, ← front]⟩
          (takeBytes_starts _ _).isInfix
      have gone := tokens_removed known tokenRedactions
        (fun _ member => member) (redactBy keywordRedactions text)
        (Or.inl (by
          rw [tokenRedactions_patterns]
          exact List.mem_append_left _ known))
      rw [← redactPatterns_eq, ← Bool.not_eq_true, Pattern.isMatch_iff] at gone
      exact gone ⟨word, kept, denotes⟩
    · exact (truncation_barred pattern listed).not_within denotes inside
  · rw [redactText_whole cut]
    exact gate_redactPatterns text

/-- A text without keyword assignment gets one only from the length limit. -/
theorem hasKeyword_redactText (none : ¬ HasKeyword text) (maxLength : Nat) :
    HasKeyword (redactText text maxLength) ↔ CutBehindKeyword text maxLength := by
  have without := not_hasKeyword_redactPatterns none
  constructor
  · intro found
    by_cases cut : 0 < maxLength ∧ maxLength < (redactPatterns text).byteLen
    · refine ⟨cut, ?_⟩
      rw [redactText_cut cut] at found
      rcases (hasKeyword_iff _).1 found with
        ⟨pre, head, character, post, ⟨pattern, known, denotes⟩, word, same⟩
      have listed : pattern ∈ keywordHeads ++ tokenPatterns :=
        List.mem_append_left _ known
      rcases word_in_marked same.symm
          ((marks_avoided pattern listed '.' (by simp)).not_mem denotes) with
        ⟨middle, front, behind⟩ | inside
      · cases middle with
        | nil =>
            rw [List.append_nil] at front
            exact ⟨pre, head, ⟨pattern, known, denotes⟩, front⟩
        | cons first middle =>
            cases behind
            -- the whole assignment stands in front of the cut
            have kept : HasKeyword (Text.takeBytes maxLength (redactPatterns text)) :=
              (hasKeyword_iff _).2
                ⟨pre, head, _, middle, ⟨pattern, known, denotes⟩, word, front⟩
            exact absurd (kept.of_part (takeBytes_starts _ _).isInfix) without
      · exact absurd inside ((truncation_barred pattern listed).not_within denotes)
    · rw [redactText_whole cut] at found
      exact absurd found without
  · rintro ⟨cut, pre, head, keyword, front⟩
    rw [redactText_cut cut, front, hasKeyword_iff]
    exact ⟨pre, head, '.', (".. [truncated]" : Text), keyword, by decide,
      List.append_assoc _ _ _⟩

/-! ## Where the limit can cut -/

theorem keywordHeads_spaces :
    ∀ pattern ∈ keywordHeads, ∃ front least,
      pattern = front ++ [Piece.atLeast Text.isWhitespace least] := by
  have last : ∀ pattern ∈ keywordHeads, ∃ least,
      pattern.getLast? = some (Piece.atLeast Text.isWhitespace least) := by
    intro pattern known
    simp only [keywordHeads, List.mem_cons, List.not_mem_nil, or_false] at known
    rcases known with rfl | rfl | rfl | rfl | rfl | rfl
    · exact ⟨0, rfl⟩
    · exact ⟨0, rfl⟩
    · exact ⟨0, rfl⟩
    · exact ⟨0, rfl⟩
    · exact ⟨0, rfl⟩
    · exact ⟨1, rfl⟩
  intro pattern known
  rcases last pattern known with ⟨least, found⟩
  rcases List.getLast?_eq_some_iff.1 found with ⟨front, same⟩
  exact ⟨front, least, same⟩

theorem KeywordHead.append_spaces {head spaces : Text}
    (keyword : KeywordHead head) (blank : spaces.all Text.isWhitespace = true) :
    KeywordHead (head ++ spaces) := by
  rcases keyword with ⟨pattern, known, denotes⟩
  refine ⟨pattern, known, ?_⟩
  rcases keywordHeads_spaces pattern known with ⟨front, least, rfl⟩
  rcases Pattern.denotes_append_iff.1 denotes with
    ⟨word, _, rfl, fronts, taken, left, rfl, accepted, allowed, rfl⟩
  rw [List.append_nil, List.append_assoc]
  refine Pattern.denotes_append fronts
    ⟨taken ++ spaces, [], (List.append_nil _).symm, ?_, ⟨?_, ?_⟩, rfl⟩
  · rw [List.all_append, accepted, Bool.true_and]
    exact blank
  · rw [List.length_append]
    exact le_trans allowed.1 (Nat.le_add_right _ _)
  · intro most bound
    cases bound

/-- A text goes on behind a keyword and its separator with white space only, or
it has a keyword assignment. -/
theorem endsInKeyword_of_head {head tail : Text}
    (none : ¬ HasKeyword text) (keyword : KeywordHead head)
    (same : text = pre ++ (head ++ tail)) : EndsInKeyword text := by
  induction tail generalizing head with
  | nil => exact ⟨pre, head, keyword, by rw [same, List.append_nil]⟩
  | cons character tail ih =>
      cases blank : Text.isWhitespace character with
      | false =>
          exact absurd ((hasKeyword_iff _).2
            ⟨pre, head, character, tail, keyword, blank, same⟩) none
      | true =>
          have longer : KeywordHead (head ++ [character]) := by
            apply keyword.append_spaces
            rw [List.all_cons, blank]
            rfl
          apply ih longer
          rw [same, List.append_assoc, List.singleton_append]

theorem endsInKeyword_of_tokens
    (listed : ∀ step ∈ steps, step ∈ tokenRedactions)
    (ends : EndsInKeyword (redactBy steps text)) : EndsInKeyword text := by
  induction steps generalizing text with
  | nil => exact ends
  | cons step steps ih =>
      rw [List.forall_mem_cons] at listed
      exact endsInKeyword_of_token_step listed.1 (ih listed.2 ends)

/-- The limit can only cut behind a keyword where the text ends in one. -/
theorem CutBehindKeyword.endsInKeyword
    (cut : CutBehindKeyword text maxLength) (none : ¬ HasKeyword text) :
    EndsInKeyword text := by
  rcases cut with ⟨_, pre, head, keyword, front⟩
  rcases takeBytes_starts maxLength (redactPatterns text) with ⟨tail, same⟩
  rw [front, List.append_assoc] at same
  have ends := endsInKeyword_of_head (not_hasKeyword_redactPatterns none)
    keyword same.symm
  rw [redactPatterns_eq] at ends
  have before := endsInKeyword_of_tokens (fun _ member => member) ends
  rwa [redactBy_keywords_eq none (fun _ member => member)] at before

/-! ## Texts with a keyword assignment -/

/-- Replacements none of which finds anything keep the text. -/
theorem redactBy_eq_self
    (unmatched : ∀ step ∈ steps, step.1.isMatch text = false) :
    redactBy steps text = text := by
  induction steps with
  | nil => rfl
  | cons step steps ih =>
      rw [List.forall_mem_cons] at unmatched
      rw [redactBy, List.foldl_cons, Pattern.replaceAll_eq_self unmatched.1]
      exact ih unmatched.2

/-- No token replacement and no length limit applies behind the keyword
replacements. -/
def StopsAtKeywords (text : Text) (maxLength : Nat) : Prop :=
  (∀ step ∈ tokenRedactions,
      step.1.isMatch (redactBy keywordRedactions text) = false) ∧
    (maxLength = 0 ∨ (redactBy keywordRedactions text).byteLen ≤ maxLength)

theorem StopsAtKeywords.redactText_eq (stops : StopsAtKeywords text maxLength) :
    redactText text maxLength = redactBy keywordRedactions text := by
  have plain : redactPatterns text = redactBy keywordRedactions text := by
    rw [redactPatterns_eq, redactBy_eq_self stops.1]
  rw [redactText_whole, plain]
  rw [plain]
  rintro ⟨positive, longer⟩
  rcases stops.2 with zero | within
  · omega
  · omega

/-- A redacted text without keyword assignment passes the gate unless the length
limit cuts it behind a keyword, where it ends.  A text with a keyword assignment
does not pass where no later replacement follows. -/
theorem redacted_text_passes_iff (text : Text) (maxLength : Nat) :
    (¬ HasKeyword text →
      (containsKnownCredentialAssignment (redactText text maxLength) = false ↔
        ¬ (EndsInKeyword text ∧ CutBehindKeyword text maxLength))) ∧
    (HasKeyword text → StopsAtKeywords text maxLength →
      containsKnownCredentialAssignment (redactText text maxLength) = true) := by
  constructor
  · intro none
    rw [← Bool.not_eq_true, gate_redactText, hasKeyword_redactText none]
    exact not_congr (iff_and_self.2 fun cut => cut.endsInKeyword none)
  · intro found stops
    rw [gate_redactText, stops.redactText_eq]
    exact hasKeyword_redactBy found (fun _ member => member)

theorem plain_text_and_password :
    containsKnownCredentialAssignment
        (redactText ("eval(input)" : Text) 400) = false ∧
      containsKnownCredentialAssignment
        (redactText ("password=hunter2" : Text) 400) = true := by
  have plain : ¬ HasKeyword ("eval(input)" : Text) := by
    unfold HasKeyword
    decide
  have whole : ¬ CutBehindKeyword ("eval(input)" : Text) 400 := by
    rintro ⟨⟨_, longer⟩, _⟩
    exact absurd longer (by decide)
  have assigned : HasKeyword ("password=hunter2" : Text) := by
    unfold HasKeyword
    decide
  have stops : StopsAtKeywords ("password=hunter2" : Text) 400 := by
    unfold StopsAtKeywords
    decide
  exact ⟨((redacted_text_passes_iff _ 400).1 plain).2 fun both => whole both.2,
    (redacted_text_passes_iff _ 400).2 assigned stops⟩

theorem redacted_password_found :
    containsKnownCredentialAssignment
      (redactText ("password=hunter2" : Text) 0) = true := by
  decide

end FireCrow.Services.Redaction
