import FireCrow.Library.JsonCharacters
import FireCrow.Library.RegexGroup
import FireCrow.Library.Utf8
import FireCrow.Services.Redaction

/-!
# The HTTP audit logger

What the logger writes of a body and of a URI.  A body that parses as JSON has
the values of its sensitive members replaced; any other text is redacted by
patterns, one after another, and loses its control characters.  The class of
word characters, which the boundary before `code` reads, is a parameter.
-/

namespace FireCrow.Middleware.HttpLogger

open FireCrow.Library
open FireCrow.Services.Redaction (foldLiteral)

/-! ## JSON bodies -/

section Values

variable [FloatFormat] [UnicodeTables]

def sensitiveParts : List Text :=
  ["password", "secret", "token", "auth", "cookie", "key", "credential",
    "p256dh", "private", "email", "evidence", "snippet"]

/-- Whether the value of a member is redacted. -/
def redactsKey (key : Text) : Bool :=
  let lower := Text.toLowercase key
  sensitiveParts.any (fun part => lower.contains part) ||
    decide (lower = ("code" : Text))

mutual

def redactJsonValue : Json → Json
  | .object members => .object (redactMembers members)
  | .array items => .array (redactItems items)
  | .string text =>
      if text.startsWith "Bearer " || text.startsWith "eyJ" then
        .string "[REDACTED_JWT_TOKEN]"
      else .string text
  | .null => .null
  | .bool value => .bool value
  | .int value => .int value
  | .float value => .float value

def redactItems : List Json → List Json
  | [] => []
  | item :: items => redactJsonValue item :: redactItems items

def redactMembers : List (Text × Json) → List (Text × Json)
  | [] => []
  | (key, value) :: members =>
      (key,
        if redactsKey key then .string "[REDACTED]"
        else redactJsonValue value) :: redactMembers members

end

end Values

/-! ## URIs -/

def sensitiveQueryKeys : List Text :=
  ["token", "access_token", "refresh_token", "code", "password", "secret",
    "client_secret", "api_key"]

def isSensitiveQueryKey (key : Text) : Bool :=
  sensitiveQueryKeys.any fun sensitive => sensitive.eqIgnoreAsciiCase key

/-- One pair of the query as it is logged. -/
def redactPair (pair : Text) : Text :=
  match pair.splitOnce '=' with
  | some (key, _) =>
      if isSensitiveQueryKey key then key ++ ("=[REDACTED]" : Text) else pair
  | none => pair

def redactUriForLog (uri : Text) : Text :=
  match uri.splitOnce '?' with
  | none => uri
  | some (path, query) =>
      if query = [] then uri
      else path ++ '?' :: Text.join ['&'] ((query.splitOn '&').map redactPair)

/-! ## Other bodies -/

def truncateUtf8Safe (text : Text) (maxLen : Nat) : Text :=
  if text.byteLen ≤ maxLen then text
  else Text.takeBytes maxLen text ++ ("... [truncated]" : Text)

/-- The class `[:=]`. -/
def isMark (character : Char) : Bool := character == ':' || character == '='

/-- The class `[^\s&,}]`. -/
def isValue (character : Char) : Bool :=
  !(Text.isWhitespace character || character ∈ ['&', ',', '}'])

/-- `(word\s*[:=]\s*)[^\s&,}]+` in any case, where a match may begin. -/
def wordPattern (begins : Option Char → Bool) (word : Text) :
    GroupPattern where
  begins := begins
  group := foldLiteral word ++
    [.atLeast Text.isWhitespace 0, .one isMark, .atLeast Text.isWhitespace 0]
  value := [.atLeast isValue 1]

/-- The boundary `\b` before a letter. -/
def atBoundary (wordChar : Char → Bool) (before : Option Char) : Bool :=
  !before.any wordChar

def unboundedWords : List Text :=
  ["password", "secret", "token", "authorization", "bearer", "cookie",
    "api_key", "gemini_api_key", "encryption_key", "secret_key"]

def textRedactPatterns (wordChar : Char → Bool) : List GroupPattern :=
  unboundedWords.map (wordPattern fun _ => true) ++
    [wordPattern (atBoundary wordChar) "code"]

/-- A body that is not JSON: every pattern replaced in turn, then the control
characters dropped. -/
def redactBody (wordChar : Char → Bool) (text : Text) : Text :=
  ((textRedactPatterns wordChar).foldl
    (fun result pattern => pattern.replaceAll "[REDACTED]" result) text).filter
      fun character => !Text.isControl character

/-- Bytes that are UTF-8, as text. -/
def fromUtf8 (bytes : Bytes) : Option Text :=
  bytes.toByteArray.utf8Decode?.map Array.toList

def safePayloadSnippet [FloatFormat] [UnicodeTables]
    (wordChar : Char → Bool) (bytes : Bytes) (maxLen : Nat) : Text :=
  if bytes = [] then "<empty>"
  else
    match fromUtf8 bytes with
    | some text =>
        match Json.parse text with
        | some value => truncateUtf8Safe (redactJsonValue value).render maxLen
        | none => truncateUtf8Safe (redactBody wordChar text) maxLen
    | none =>
        "<binary data " ++ Text.ofNat bytes.length ++ (" bytes>" : Text)

/-! ## What the snippet of a text is -/

theorem fromUtf8_toBytes (text : Text) : fromUtf8 text.toBytes = some text := by
  have decoded : text.toBytes.toByteArray.utf8Decode? = some text.toArray :=
    List.utf8Decode?_utf8Encode
  rw [fromUtf8, decoded, Option.map_some, List.toList_toArray]

theorem toBytes_ne_nil {text : Text} (nonempty : text ≠ []) :
    text.toBytes ≠ [] := by
  intro none
  have decoded := fromUtf8_toBytes text
  rw [none, ← show Text.toBytes [] = [] from rfl, fromUtf8_toBytes] at decoded
  exact nonempty (Option.some.inj decoded).symm

section Snippets

variable [FloatFormat] [UnicodeTables] {wordChar : Char → Bool} {text : Text}

theorem snippet_of_parsed {value : Json} (parsed : Json.parse text = some value)
    (maxLen : Nat) :
    safePayloadSnippet wordChar text.toBytes maxLen =
      truncateUtf8Safe (redactJsonValue value).render maxLen := by
  have nonempty : text ≠ [] := by
    rintro rfl
    cases parsed
  rw [safePayloadSnippet, if_neg (toBytes_ne_nil nonempty), fromUtf8_toBytes]
  simp only [parsed]

theorem snippet_of_unparsed (nonempty : text ≠ [])
    (unparsed : Json.parse text = none) (maxLen : Nat) :
    safePayloadSnippet wordChar text.toBytes maxLen =
      truncateUtf8Safe (redactBody wordChar text) maxLen := by
  rw [safePayloadSnippet, if_neg (toBytes_ne_nil nonempty), fromUtf8_toBytes]
  simp only [unparsed]

/-- The snippets of two bodies that are not JSON agree at every length only if
their redacted texts do. -/
theorem redactBody_of_snippets {other : Text} (nonempty : text ≠ [])
    (otherNonempty : other ≠ []) (unparsed : Json.parse text = none)
    (otherUnparsed : Json.parse other = none)
    (same : ∀ maxLen, safePayloadSnippet wordChar text.toBytes maxLen =
      safePayloadSnippet wordChar other.toBytes maxLen) :
    redactBody wordChar text = redactBody wordChar other := by
  have whole := same (max (redactBody wordChar text).byteLen
    (redactBody wordChar other).byteLen)
  rwa [snippet_of_unparsed nonempty unparsed,
    snippet_of_unparsed otherNonempty otherUnparsed, truncateUtf8Safe,
    truncateUtf8Safe, if_pos (le_max_left _ _), if_pos (le_max_right _ _)]
    at whole

end Snippets

/-! ## Redacting by patterns -/

section Patterns

variable {wordChar : Char → Bool}

theorem redactBody_eq (text : Text) :
    redactBody wordChar text =
      (GroupPattern.replaceInTurn (textRedactPatterns wordChar) "[REDACTED]"
        none text).filter fun character => !Text.isControl character :=
  rfl

theorem mem_textRedactPatterns {pattern : GroupPattern}
    (member : pattern ∈ textRedactPatterns wordChar) :
    ∃ begins, ∃ word ∈ ("code" : Text) :: unboundedWords,
      pattern = wordPattern begins word := by
  rw [textRedactPatterns, List.mem_append, List.mem_map,
    List.mem_singleton] at member
  rcases member with ⟨word, inside, rfl⟩ | rfl
  · exact ⟨_, word, List.mem_cons_of_mem _ inside, rfl⟩
  · exact ⟨_, "code", List.mem_cons_self, rfl⟩

/-- The characters at which a value ends. -/
theorem textRedactPatterns_avoids (wordChar : Char → Bool) {divider : Char}
    (ends : divider ∈ ['&', ',']) :
    ∀ pattern ∈ textRedactPatterns wordChar, pattern.whole.Avoids divider := by
  intro pattern member piece inside
  have letters : ∀ word ∈ ("code" : Text) :: unboundedWords,
      ∀ mark ∈ ['&', ','], ∀ piece ∈ foldLiteral word,
        piece.accepts mark = false := by decide +kernel
  have others : ∀ mark ∈ ['&', ','],
      Text.isWhitespace mark = false ∧ isMark mark = false ∧
        isValue mark = false := by decide
  rcases mem_textRedactPatterns member with ⟨begins, word, isWord, rfl⟩
  rcases others divider ends with ⟨space, mark, value⟩
  rw [GroupPattern.whole, wordPattern, List.append_assoc, List.mem_append]
    at inside
  rcases inside with letter | rest
  · exact letters word isWord divider ends piece letter
  · simp only [List.cons_append, List.nil_append, List.mem_cons,
      List.not_mem_nil, or_false] at rest
    rcases rest with rfl | rfl | rfl | rfl
    · exact space
    · exact mark
    · exact space
    · exact value

/-- A word of a pattern has a mark with something behind it. -/
theorem denotes_mark {begins : Option Char → Bool} {word found : Text}
    (denotes : (wordPattern begins word).whole.Denotes found) :
    ∃ front mark back, found = front ++ mark :: back ∧ isMark mark = true ∧
      back ≠ [] := by
  have parts : (wordPattern begins word).whole =
      (foldLiteral word ++ [.atLeast Text.isWhitespace 0, .one isMark]) ++
        [.atLeast Text.isWhitespace 0, .atLeast isValue 1] := by
    simp [GroupPattern.whole, wordPattern]
  rw [parts] at denotes
  rcases Pattern.denotes_append_iff.1 denotes with
    ⟨first, second, rfl, opening, closing⟩
  rcases opening.required (List.mem_append_right _
    (List.mem_cons_of_mem _ List.mem_cons_self)) le_rfl with
    ⟨mark, inFirst, isMark⟩
  rcases closing.required (List.mem_cons_of_mem _ List.mem_cons_self) le_rfl with
    ⟨value, inSecond, _⟩
  rcases List.append_of_mem inFirst with ⟨front, back, rfl⟩
  refine ⟨front, mark, back ++ second, by simp, isMark, ?_⟩
  intro none
  rw [(List.append_eq_nil_iff.1 none).2] at inSecond
  cases inSecond

theorem redacts_nothing (wordChar : Char → Bool) (text : Text)
    (unmarked : ∀ character ∈ text.dropLast, isMark character = false)
    (before : Option Char) :
    GroupPattern.replaceInTurn (textRedactPatterns wordChar) "[REDACTED]"
      before text = text := by
  apply GroupPattern.replaceInTurn_eq_self
  intro pattern member found inside denotes
  rcases mem_textRedactPatterns member with ⟨begins, word, _, rfl⟩
  rcases denotes_mark denotes with ⟨front, mark, back, rfl, isMark, nonempty⟩
  rcases inside with ⟨first, last, rfl⟩
  have early : mark ∈
      (first ++ (front ++ mark :: back) ++ last).dropLast := by
    have split : first ++ (front ++ mark :: back) ++ last =
        (first ++ front ++ [mark]) ++ (back ++ last) := by simp
    rw [split, List.dropLast_append_of_ne_nil
      (List.append_ne_nil_of_left_ne_nil nonempty last)]
    simp
  rw [unmarked mark early] at isMark
  cases isMark

/-- A part between two dividers is redacted apart from what surrounds it. -/
theorem redacts_between (wordChar : Char → Bool) {divider : Char}
    (ends : divider ∈ ['&', ',']) {opening closing : Text}
    (opened : opening = [] ∨ ∃ front, opening = front ++ [divider])
    (closed : closing = [] ∨ ∃ back, closing = divider :: back) :
    ∃ before left right, ∀ part,
      GroupPattern.replaceInTurn (textRedactPatterns wordChar) "[REDACTED]"
          none (opening ++ part ++ closing) =
        left ++ GroupPattern.replaceInTurn (textRedactPatterns wordChar)
          "[REDACTED]" before part ++ right := by
  have avoids := textRedactPatterns_avoids wordChar ends
  have behind : ∀ before, ∃ right, ∀ part,
      GroupPattern.replaceInTurn (textRedactPatterns wordChar) "[REDACTED]"
          before (part ++ closing) =
        GroupPattern.replaceInTurn (textRedactPatterns wordChar) "[REDACTED]"
          before part ++ right := by
    intro before
    rcases closed with rfl | ⟨back, rfl⟩
    · exact ⟨[], fun part => by rw [List.append_nil, List.append_nil]⟩
    · exact ⟨_, fun part => GroupPattern.replaceInTurn_divided avoids _ _ _⟩
  rcases opened with rfl | ⟨front, rfl⟩
  · rcases behind none with ⟨right, same⟩
    exact ⟨none, [], right, fun part => by
      rw [List.nil_append, same, List.nil_append]⟩
  · rcases behind (some divider) with ⟨right, same⟩
    refine ⟨some divider,
      GroupPattern.replaceInTurn (textRedactPatterns wordChar) "[REDACTED]"
        none front ++ [divider], right, fun part => ?_⟩
    rw [List.append_assoc, List.append_assoc, List.singleton_append,
      GroupPattern.replaceInTurn_divided avoids, same, List.append_assoc,
      List.append_assoc, List.singleton_append]

end Patterns

end FireCrow.Middleware.HttpLogger
