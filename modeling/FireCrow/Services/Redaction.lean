import FireCrow.Library.Regex

/-!
# Redaction and the credential gate

The ten patterns of `CREDENTIAL_ASSIGNMENT_PATTERNS` with the redactor and the
gate that share them.  Case-insensitive letters match their simple case
folding, so `k` and `s` also match the Kelvin sign and the long s.
-/

namespace FireCrow.Services.Redaction

open FireCrow.Library

/-- A letter of a case-insensitive pattern, given in lower case. -/
def foldLetter (letter character : Char) : Bool :=
  character == letter || character == letter.toUpper ||
    (letter == 'k' && character == '\u212A') ||
    (letter == 's' && character == '\u017F')

/-- A case-insensitive literal. -/
def foldLiteral (text : Text) : Pattern :=
  text.map fun letter => .one (foldLetter letter)

def isWord (character : Char) : Bool :=
  Text.isAsciiDigit character || Text.isAsciiUppercase character ||
    Text.isAsciiLowercase character

/-- `\s*[=:]\s*\S+`, the assignment after a keyword. -/
def assignment : Pattern :=
  [.atLeast Text.isWhitespace 0,
    .one fun character => character == '=' || character == ':',
    .atLeast Text.isWhitespace 0,
    .atLeast (fun character => !Text.isWhitespace character) 1]

def passwordPattern : Pattern := foldLiteral "password" ++ assignment

def tokenPattern : Pattern := foldLiteral "token" ++ assignment

def secretPattern : Pattern := foldLiteral "secret" ++ assignment

def apiKeyPattern : Pattern :=
  foldLiteral "api" ++
    .optional (fun character => character == '_' || character == '-') ::
    (foldLiteral "key" ++ assignment)

def authorizationPattern : Pattern :=
  foldLiteral "authorization:" ++
    [.atLeast Text.isWhitespace 0,
      .atLeast (fun character => !Text.isWhitespace character) 1]

def bearerPattern : Pattern :=
  foldLiteral "bearer" ++
    [.atLeast Text.isWhitespace 1,
      .atLeast (fun character => !Text.isWhitespace character) 1]

def isUpperAlnum (character : Char) : Bool :=
  Text.isAsciiDigit character || Text.isAsciiUppercase character

def awsAccessKeyPattern : Pattern :=
  literal "AKIA" ++ [.exactly isUpperAlnum 16]

def awsTemporaryKeyPattern : Pattern :=
  literal "ASIA" ++ [.exactly isUpperAlnum 16]

def githubTokenPattern : Pattern :=
  literal "gh" ++
    .one (fun character => character ∈ "pousr".toList) ::
    (literal "_" ++ [.atLeast isWord 36])

def githubPatPattern : Pattern :=
  literal "github_pat_" ++
    [.atLeast (fun character => isWord character || character == '_') 22]

def credentialAssignmentPatterns : List Pattern :=
  [passwordPattern, tokenPattern, secretPattern, apiKeyPattern,
    authorizationPattern, bearerPattern, awsAccessKeyPattern,
    awsTemporaryKeyPattern, githubTokenPattern, githubPatPattern]

def base64Pattern : Pattern :=
  [.atLeast
      (fun character =>
        isWord character || character == '+' || character == '/') 40,
    ⟨fun character => character == '=', 0, some 2⟩]

/-- Whether text contains a high-precision credential assignment. -/
def containsKnownCredentialAssignment (text : Text) : Bool :=
  credentialAssignmentPatterns.any fun pattern => pattern.isMatch text

/-- The replacements of the redactor, in the order it applies them. -/
def redactions : List (Pattern × Text) :=
  [(passwordPattern, "password=[REDACTED]"),
    (tokenPattern, "token=[REDACTED]"),
    (secretPattern, "secret=[REDACTED]"),
    (apiKeyPattern, "api_key=[REDACTED]"),
    (authorizationPattern, "authorization: [REDACTED]"),
    (bearerPattern, "bearer [REDACTED]"),
    (awsAccessKeyPattern, "[REDACTED]"),
    (awsTemporaryKeyPattern, "[REDACTED]"),
    (githubTokenPattern, "[REDACTED]"),
    (githubPatPattern, "[REDACTED]"),
    (base64Pattern, "[BASE64_REDACTED]")]

/-- Every pattern replaced by its marker, in order. -/
def redactPatterns (text : Text) : Text :=
  redactions.foldl
    (fun result redaction => redaction.1.replaceAll redaction.2 result) text

def redactText (text : Text) (maxLength : Nat) : Text :=
  let result := redactPatterns text
  if 0 < maxLength ∧ maxLength < result.byteLen then
    Text.takeBytes maxLength result ++ ("... [truncated]" : Text)
  else result

/-- A credential assignment in a part is one in the whole. -/
theorem containsKnownCredentialAssignment_of_infix {part whole : Text}
    (inside : part <:+: whole)
    (found : containsKnownCredentialAssignment part = true) :
    containsKnownCredentialAssignment whole = true := by
  simp only [containsKnownCredentialAssignment, List.any_eq_true] at found ⊢
  rcases found with ⟨pattern, member, found⟩
  exact ⟨pattern, member, Pattern.isMatch_of_infix inside found⟩

/-! ## Redaction markers -/

/-- The text shows that something was redacted. -/
def HasMarker (text : Text) : Prop :=
  ("[REDACTED]" : Text) <:+: text ∨ ("[BASE64_REDACTED]" : Text) <:+: text

theorem HasMarker.of_infix {part whole : Text} (inside : part <:+: whole)
    (marked : HasMarker part) : HasMarker whole :=
  marked.imp (·.trans inside) (·.trans inside)

theorem hasMarker_trim (text : Text) : HasMarker text.trim ↔ HasMarker text := by
  constructor
  · exact HasMarker.of_infix (Text.trim_infix text)
  · exact Or.imp (Text.infix_trim (by decide)) (Text.infix_trim (by decide))

/-! ## Keywords before a colon -/

theorem denotes_foldLiteral (text : Text) : (foldLiteral text).Denotes text := by
  induction text with
  | nil => rfl
  | cons letter text ih =>
      refine ⟨[letter], text, rfl, ?_, ⟨le_rfl, ?_⟩, ih⟩
      · simp [Piece.one, foldLetter]
      · intro most equal
        cases equal
        exact le_rfl

/-- A colon with a word after it is an assignment. -/
theorem denotes_assignment {value : Text} (nonempty : value ≠ [])
    (word : ∀ character ∈ value, Text.isWhitespace character = false) :
    assignment.Denotes (':' :: value) := by
  have unbounded : ∀ (accepts : Char → Bool) (least : Nat) (taken : Text),
      least ≤ taken.length →
        (Piece.atLeast accepts least).Allows taken.length :=
    fun _ _ _ enough => ⟨enough, fun _ equal => by cases equal⟩
  refine ⟨[], _, rfl, rfl, unbounded _ _ _ le_rfl, [':'], _, rfl, by decide,
    ⟨le_rfl, fun most equal => by cases equal; exact le_rfl⟩, [], _, rfl, rfl,
    unbounded _ _ _ le_rfl, value, [], by simp, ?_, unbounded _ _ _ ?_, rfl⟩
  · simpa [Piece.atLeast] using word
  · exact List.length_pos_iff.2 nonempty

/-- The keywords that start an assignment. -/
def credentialKeywords : List Text :=
  ["password", "token", "secret", "api-key", "api_key", "apikey"]

/-- A keyword, a colon and a word form a credential assignment. -/
theorem containsKnownCredentialAssignment_keyword {keyword value : Text}
    (known : keyword ∈ credentialKeywords) (nonempty : value ≠ [])
    (word : ∀ character ∈ value, Text.isWhitespace character = false) :
    containsKnownCredentialAssignment (keyword ++ ':' :: value) = true := by
  have assigned := denotes_assignment nonempty word
  have found : ∀ pattern ∈ credentialAssignmentPatterns,
      pattern.Denotes (keyword ++ ':' :: value) →
        containsKnownCredentialAssignment (keyword ++ ':' :: value) = true := by
    intro pattern member denotes
    rw [containsKnownCredentialAssignment, List.any_eq_true]
    exact ⟨pattern, member, (Pattern.isMatch_iff _ _).2
      ⟨_, List.infix_rfl, denotes⟩⟩
  have separated : ∀ separator : Text,
      separator.all (fun character => character == '_' || character == '-') =
        true → separator.length ≤ 1 →
      apiKeyPattern.Denotes
        (("api" : Text) ++ (separator ++ (("key" : Text) ++ ':' :: value))) := by
    intro separator accepted short
    refine Pattern.denotes_append (denotes_foldLiteral _)
      ⟨separator, _, rfl, accepted, ⟨Nat.zero_le _, ?_⟩,
        Pattern.denotes_append (denotes_foldLiteral _) assigned⟩
    intro most equal
    cases equal
    exact short
  simp only [credentialKeywords, List.mem_cons, List.not_mem_nil, or_false]
    at known
  rcases known with rfl | rfl | rfl | rfl | rfl | rfl
  · exact found passwordPattern (by simp [credentialAssignmentPatterns])
      (Pattern.denotes_append (denotes_foldLiteral _) assigned)
  · exact found tokenPattern (by simp [credentialAssignmentPatterns])
      (Pattern.denotes_append (denotes_foldLiteral _) assigned)
  · exact found secretPattern (by simp [credentialAssignmentPatterns])
      (Pattern.denotes_append (denotes_foldLiteral _) assigned)
  · exact found apiKeyPattern (by simp [credentialAssignmentPatterns])
      (separated ['-'] rfl le_rfl)
  · exact found apiKeyPattern (by simp [credentialAssignmentPatterns])
      (separated ['_'] rfl le_rfl)
  · exact found apiKeyPattern (by simp [credentialAssignmentPatterns])
      (separated [] rfl (Nat.zero_le 1))

end FireCrow.Services.Redaction
