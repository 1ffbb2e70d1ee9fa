import FireCrow.Library.JoinedText
import FireCrow.Middleware.HttpLogger

/-!
# What the audit log shows of sensitive values

Bodies and URIs that differ only in the values of sensitive fields.  A body
that is not JSON hides its values only when it has none: a form shows whether
a value is empty, and a broken document shows what stands behind a quoted
name.
-/

namespace FireCrow.Middleware.HttpLogger

open FireCrow.Library

def sensitiveFields : List Text :=
  ["password", "secret", "token", "authorization", "cookie", "api_key", "code"]

/-- The name of a sensitive field, in any case. -/
def Sensitive (name : Text) : Prop :=
  ∃ field ∈ sensitiveFields, name.eqIgnoreAsciiCase field = true

/-! ## Documents -/

section Documents

variable [FloatFormat]

mutual

/-- Two documents that differ only in the values of sensitive members. -/
inductive Agree : Json → Json → Prop where
  | same (value : Json) : Agree value value
  | array {items others : List Json} (agree : AgreeItems items others) :
      Agree (.array items) (.array others)
  | object {members others : List (Text × Json)}
      (agree : AgreeMembers members others) :
      Agree (.object members) (.object others)

inductive AgreeItems : List Json → List Json → Prop where
  | nil : AgreeItems [] []
  | cons {item other : Json} {items others : List Json}
      (head : Agree item other) (tail : AgreeItems items others) :
      AgreeItems (item :: items) (other :: others)

inductive AgreeMembers : List (Text × Json) → List (Text × Json) → Prop where
  | nil : AgreeMembers [] []
  | shown {key : Text} {value other : Json} {members others : List (Text × Json)}
      (head : Agree value other) (tail : AgreeMembers members others) :
      AgreeMembers ((key, value) :: members) ((key, other) :: others)
  | hidden {key : Text} {members others : List (Text × Json)}
      (sensitive : Sensitive key) (value other : Json)
      (tail : AgreeMembers members others) :
      AgreeMembers ((key, value) :: members) ((key, other) :: others)

end

variable [UnicodeTables]

omit [FloatFormat] in
theorem toLowercaseAfter_ascii {text : Text}
    (ascii : ∀ character ∈ text, Text.isAscii character = true) (before : Text) :
    Text.toLowercaseAfter before text = text.toAsciiLowercase := by
  induction text generalizing before with
  | nil => rfl
  | cons character rest ih =>
      have here := ascii character List.mem_cons_self
      have plain : character ≠ '\u03A3' := by
        rintro rfl
        cases here
      rw [Text.toLowercaseAfter, if_neg plain, UnicodeTables.lowercase_ascii _ here,
        ih fun other member => ascii other (List.mem_cons_of_mem _ member)]
      rfl

omit [FloatFormat] in
theorem Sensitive.redacted {name : Text} (sensitive : Sensitive name) :
    redactsKey name = true := by
  rcases sensitive with ⟨field, member, same⟩
  have facts : ∀ field ∈ sensitiveFields,
      Text.toAsciiLowercase field = field ∧
        (∀ letter ∈ field, Text.isAscii letter = true) ∧
        (sensitiveParts.any (fun part => Text.contains field part) ||
          decide (field = ("code" : Text))) = true := by decide +kernel
  rcases facts field member with ⟨lower, ascii, redacted⟩
  have spelled : name.toAsciiLowercase = field := by
    rw [← lower]
    exact of_decide_eq_true same
  have plain : ∀ letter ∈ name, Text.isAscii letter = true := by
    intro letter inside
    apply Text.isAscii_of_toLower
    apply ascii
    rw [← spelled]
    exact List.mem_map_of_mem inside
  rw [redactsKey, Text.toLowercase, toLowercaseAfter_ascii plain, spelled]
  exact redacted

mutual

theorem redactJsonValue_agree {value other : Json} (agree : Agree value other) :
    redactJsonValue value = redactJsonValue other := by
  cases agree with
  | same => rfl
  | array agree =>
      rw [redactJsonValue, redactJsonValue, redactItems_agree agree]
  | object agree =>
      rw [redactJsonValue, redactJsonValue, redactMembers_agree agree]

theorem redactItems_agree {items others : List Json}
    (agree : AgreeItems items others) :
    redactItems items = redactItems others := by
  cases agree with
  | nil => rfl
  | cons head tail =>
      rw [redactItems, redactItems, redactJsonValue_agree head,
        redactItems_agree tail]

theorem redactMembers_agree {members others : List (Text × Json)}
    (agree : AgreeMembers members others) :
    redactMembers members = redactMembers others := by
  cases agree with
  | nil => rfl
  | shown head tail =>
      rw [redactMembers, redactMembers, redactJsonValue_agree head,
        redactMembers_agree tail]
  | hidden sensitive value other tail =>
      rw [redactMembers, redactMembers, if_pos sensitive.redacted,
        if_pos sensitive.redacted, redactMembers_agree tail]

end

end Documents

/-! ## Forms -/

/-- A character that a form spells a name or a value with. -/
def isFormChar (character : Char) : Bool :=
  Text.isAsciiAlphanumeric character ||
    character ∈ ['%', '+', '*', '-', '.', '_', '~', '!', '\'', '(', ')']

def Spelled (text : Text) : Prop := ∀ character ∈ text, isFormChar character = true

def pairText (pair : Text × Text) : Text := pair.1 ++ '=' :: pair.2

def formText (pairs : List (Text × Text)) : Text :=
  Text.join ['&'] (pairs.map pairText)

/-- A form around the value of one field. -/
structure Form where
  front : List (Text × Text)
  name : Text
  back : List (Text × Text)
  spelled : ∀ pair ∈ front ++ back, Spelled pair.1 ∧ Spelled pair.2
  nameSpelled : Spelled name

def Form.text (form : Form) (value : Text) : Text :=
  formText (form.front ++ (form.name, value) :: form.back)

/-! ## Broken documents -/

/-- Whether a quote ends the text of a string literal. -/
def hasQuote : Text → Bool
  | [] => false
  | '\\' :: _ :: rest => hasQuote rest
  | character :: rest => character = '"' || hasQuote rest

/-- A text up to the value of a sensitive field. -/
def OpensField (opening : Text) : Prop :=
  ∃ before name gap space, Sensitive name ∧ gap.all Json.isSpace = true ∧
    space.all Json.isSpace = true ∧
    opening = before ++ '"' :: name ++ '"' :: gap ++ ':' :: space

/-- The value of a field and what follows it: any JSON value, a string in which
a character may be broken, or a value that is cut off. -/
inductive FieldValue [FloatFormat] : Text → Text → Prop where
  | whole {value : Text} (parsed : (Json.parse value).isSome = true)
      (rest : Text) : FieldValue value rest
  | quoted {content : Text} (closed : hasQuote content = false) (rest : Text) :
      FieldValue ('"' :: content ++ ['"']) rest
  | cutOff {value missing : Text}
      (parsed : (Json.parse (value ++ missing)).isSome = true) :
      FieldValue value []

/-! ## What the log may not tell apart -/

section Claims

variable [FloatFormat]

/-- Two bodies that differ only in the values of sensitive fields. -/
inductive Differ : Text → Text → Prop where
  | json {text other : Text} {value otherValue : Json}
      (parsed : Json.parse text = some value)
      (otherParsed : Json.parse other = some otherValue)
      (agree : Agree value otherValue) : Differ text other
  | form (form : Form) (sensitive : Sensitive form.name) {value other : Text}
      (spelled : Spelled value) (otherSpelled : Spelled other) :
      Differ (form.text value) (form.text other)
  | broken {opening value other rest : Text} (opens : OpensField opening)
      (valued : FieldValue value rest) (otherValued : FieldValue other rest)
      (unparsed : Json.parse (opening ++ value ++ rest) = none)
      (otherUnparsed : Json.parse (opening ++ other ++ rest) = none) :
      Differ (opening ++ value ++ rest) (opening ++ other ++ rest)

/-- A body has a sensitive field, in a form or in a broken document. -/
def CarriesField (text : Text) : Prop :=
  (∃ (form : Form) (value : Text), Sensitive form.name ∧ Spelled value ∧
    text = form.text value) ∨
  ∃ opening value rest, OpensField opening ∧ FieldValue value rest ∧
    text = opening ++ value ++ rest

/-- No snippet of a body tells the values of its sensitive fields. -/
def HidesValues [UnicodeTables] (wordChar : Char → Bool) (text : Text) : Prop :=
  ∀ other, Relation.ReflTransGen Differ text other → ∀ maxLen,
    safePayloadSnippet wordChar text.toBytes maxLen =
      safePayloadSnippet wordChar other.toBytes maxLen

end Claims

/-- Two URIs that differ only in the value of a sensitive query key. -/
inductive UriDiffer : Text → Text → Prop where
  | value {path key value other : Text} {front back : List Text}
      (pathPlain : '?' ∉ path) (keyPlain : '=' ∉ key ∧ '&' ∉ key)
      (sensitive : isSensitiveQueryKey key = true)
      (plain : ∀ part ∈ value :: other :: (front ++ back), '&' ∉ part) :
      UriDiffer
        (path ++ '?' :: Text.join ['&'] (front ++ (key ++ '=' :: value) :: back))
        (path ++ '?' :: Text.join ['&'] (front ++ (key ++ '=' :: other) :: back))

/-! ## What a form shows -/

section Forms

variable (form : Form)

theorem Form.around :
    ∃ opening closing,
      (opening = [] ∨ ∃ before, opening = before ++ ['&']) ∧
      (closing = [] ∨ ∃ after, closing = '&' :: after) ∧
      ∀ value, form.text value =
        opening ++ (form.name ++ '=' :: value) ++ closing := by
  rcases Text.join_around '&' (form.front.map pairText) (form.back.map pairText) with
    ⟨opening, closing, opened, closed, same⟩
  refine ⟨opening, closing, opened, closed, fun value => ?_⟩
  rw [Form.text, formText, List.map_append, List.map_cons, same, pairText]

theorem Form.characters {value : Text} (spelled : Spelled value) :
    ∀ character ∈ form.text value,
      isFormChar character = true ∨ character = '=' ∨ character = '&' := by
  intro character member
  have inPair : ∀ pair : Text × Text, Spelled pair.1 → Spelled pair.2 →
      character ∈ pairText pair →
        isFormChar character = true ∨ character = '=' ∨ character = '&' := by
    intro pair name value inside
    rw [pairText, List.mem_append, List.mem_cons] at inside
    rcases inside with inName | equals | inValue
    · exact Or.inl (name character inName)
    · exact Or.inr (Or.inl equals)
    · exact Or.inl (value character inValue)
  rcases Text.mem_join '&' member with separator | ⟨part, inside, inPart⟩
  · exact Or.inr (Or.inr separator)
  rw [List.mem_map] at inside
  rcases inside with ⟨pair, inPairs, rfl⟩
  rw [List.mem_append, List.mem_cons] at inPairs
  rcases inPairs with front | rfl | back
  · have both := form.spelled pair (List.mem_append_left _ front)
    exact inPair pair both.1 both.2 inPart
  · exact inPair _ form.nameSpelled spelled inPart
  · have both := form.spelled pair (List.mem_append_right _ back)
    exact inPair pair both.1 both.2 inPart

theorem Form.equals_mem (value : Text) : '=' ∈ form.text value := by
  rcases form.around with ⟨opening, closing, _, _, same⟩
  rw [same]
  simp

theorem foreign_equals : Json.Foreign '=' where
  number := by decide
  space := by decide
  words := by decide

theorem Form.unparsed [FloatFormat] {value : Text} (spelled : Spelled value) :
    Json.parse (form.text value) = none := by
  rw [Option.eq_none_iff_forall_ne_some]
  intro document parsed
  apply foreign_equals.not_mem_of_parse _ parsed (form.equals_mem value)
  intro head rest same
  have inside : head ∈ form.text value := by
    apply (List.dropWhile_sublist Json.isSpace).subset
    rw [← Json.skipSpace, same]
    exact List.mem_cons_self
  have strange : ∀ mark ∈ ['"', '[', '\x7b'],
      isFormChar mark = false ∧ mark ≠ '=' ∧ mark ≠ '&' := by decide
  have differs : ∀ mark ∈ ['"', '[', '\x7b'], head ≠ mark := by
    rintro mark member rfl
    rcases strange head member with ⟨unspelled, noEquals, noSeparator⟩
    rcases form.characters spelled head inside with spells | equals | separator
    · rw [unspelled] at spells
      cases spells
    · exact noEquals equals
    · exact noSeparator separator
  exact ⟨differs _ (by decide), differs _ (by decide), differs _ (by decide)⟩

theorem unmarked_of_spelled {text : Text} (spelled : Spelled text) :
    ∀ character ∈ text, isMark character = false := by
  intro character member
  rw [Bool.eq_false_iff]
  intro mark
  have marks : ∀ mark ∈ [':', '='], isFormChar mark = false := by decide
  rw [isMark, Bool.or_eq_true, beq_iff_eq, beq_iff_eq] at mark
  have strange := marks character (by simpa using mark)
  rw [spelled character member] at strange
  cases strange

/-- A character that stays in the log and is no equals sign. -/
def Shown (character : Char) : Prop :=
  character ≠ '=' ∧ Text.isControl character = false

/-- The log tells an empty value from one that is not. -/
theorem Form.shows (wordChar : Char → Bool) :
    redactBody wordChar (form.text []) ≠ redactBody wordChar (form.text ['x']) := by
  intro same
  rcases form.around with ⟨opening, closing, opened, closed, around⟩
  rcases redacts_between wordChar (by decide) opened closed with ⟨before, left, right, between⟩
  have unmarked :
      ∀ character ∈ (form.name ++ ['=']).dropLast, isMark character = false := by
    rw [List.dropLast_concat]
    exact unmarked_of_spelled form.nameSpelled
  have blank := redacts_nothing wordChar (form.name ++ ['=']) unmarked before
  rw [redactBody_eq, redactBody_eq, around, around, between, between, blank]
    at same
  simp only [List.filter_append, List.append_cancel_left_eq,
    List.append_cancel_right_eq] at same
  have shown : GroupPattern.Ends Shown (GroupPattern.replaceInTurn
      (textRedactPatterns wordChar) "[REDACTED]" before
        (form.name ++ ['=', 'x'])) := by
    apply GroupPattern.replaceInTurn_ends
    · exact ⟨']', rfl, by decide, by decide⟩
    · exact ⟨'x', by simp, by decide, by decide⟩
  have visible : ∀ character, Shown character →
      (!Text.isControl character) = true := by
    intro character shows
    rw [shows.2, Bool.not_false]
  rcases shown.filter visible with ⟨last, ending, shows⟩
  rw [← same, List.getLast?_append] at ending
  exact shows.1 (Option.some.inj ending).symm

end Forms

/-! ## What a broken document shows -/

/-- A value of which a part stands between two dividers. -/
def shownValue (count : Nat) : Text :=
  '"' :: ('\x01' :: ',' :: List.replicate count '~' ++ [',']) ++ ['"']

theorem hasQuote_of_plain {text : Text} (noQuote : '"' ∉ text)
    (noEscape : '\\' ∉ text) : hasQuote text = false := by
  fun_induction hasQuote text with
  | case1 => rfl
  | case2 => simp at noEscape
  | case3 character rest _ ih =>
      rw [List.mem_cons, not_or] at noQuote noEscape
      rw [ih noQuote.2 noEscape.2, Bool.or_false, decide_eq_false_iff_not]
      exact fun same => noQuote.1 same.symm

theorem unwritten_one : Json.Unwritten '\x01' where
  control := by decide
  space := by decide

section Broken

variable [FloatFormat]

theorem shownValue_valued (count : Nat) (rest : Text) :
    FieldValue (shownValue count) rest := by
  apply FieldValue.quoted
  apply hasQuote_of_plain <;> simp

theorem shownValue_unparsed (opening rest : Text) (count : Nat) :
    Json.parse (opening ++ shownValue count ++ rest) = none := by
  rw [Option.eq_none_iff_forall_ne_some]
  intro document parsed
  apply unwritten_one.not_mem_of_parse parsed
  simp [shownValue]

omit [FloatFormat] in
theorem shownValue_shows (wordChar : Char → Bool) (opening rest : Text)
    (count : Nat) :
    count ≤ (redactBody wordChar (opening ++ shownValue count ++ rest)).count '~' := by
  have comma : ',' ∈ ['&', ','] := by decide
  rcases redacts_between wordChar comma
    (Or.inr ⟨opening ++ ['"', '\x01'], rfl⟩) (Or.inr ⟨'"' :: rest, rfl⟩) with
    ⟨before, left, right, between⟩
  have around : opening ++ shownValue count ++ rest =
      opening ++ ['"', '\x01'] ++ [','] ++ List.replicate count '~' ++
        ',' :: '"' :: rest := by simp [shownValue]
  have unmarked : ∀ character ∈ (List.replicate count '~').dropLast,
      isMark character = false := by
    intro character member
    rw [List.eq_of_mem_replicate ((List.dropLast_sublist _).subset member)]
    rfl
  have kept := redacts_nothing wordChar (List.replicate count '~') unmarked before
  have visible : (List.replicate count '~').filter
      (fun character => !Text.isControl character) =
        List.replicate count '~' := by
    rw [List.filter_replicate]
    rfl
  rw [redactBody_eq, around, between, kept, List.filter_append,
    List.filter_append, visible, List.count_append, List.count_append,
    List.count_replicate_self]
  omega

end Broken

/-! ## Bodies and URIs -/

section Bodies

variable [FloatFormat] [UnicodeTables] {wordChar : Char → Bool} {text : Text}

/-- A document and what differs from it in sensitive values alone have one
snippet. -/
theorem Differ.of_parsed (wordChar : Char → Bool) {other : Text}
    (differ : Differ text other) (parsed : (Json.parse text).isSome = true) :
    (Json.parse other).isSome = true ∧ ∀ maxLen,
      safePayloadSnippet wordChar text.toBytes maxLen =
        safePayloadSnippet wordChar other.toBytes maxLen := by
  cases differ with
  | json here there agree =>
      refine ⟨Option.isSome_iff_exists.2 ⟨_, there⟩, fun maxLen => ?_⟩
      rw [snippet_of_parsed here, snippet_of_parsed there,
        redactJsonValue_agree agree]
  | form form _ spelled =>
      rw [form.unparsed spelled] at parsed
      cases parsed
  | broken _ _ _ unparsed =>
      rw [unparsed] at parsed
      cases parsed

omit [UnicodeTables] in
theorem Differ.carries {other : Text} (differ : Differ text other)
    (unparsed : Json.parse text = none) : CarriesField text := by
  cases differ with
  | json here =>
      rw [unparsed] at here
      cases here
  | form form sensitive spelled =>
      exact Or.inl ⟨form, _, sensitive, spelled, rfl⟩
  | broken opens valued =>
      exact Or.inr ⟨_, _, _, opens, valued, rfl⟩

theorem hidesValues_of_parsed (parsed : (Json.parse text).isSome = true) :
    HidesValues wordChar text := by
  intro other path
  have both : (Json.parse other).isSome = true ∧ ∀ maxLen,
      safePayloadSnippet wordChar text.toBytes maxLen =
        safePayloadSnippet wordChar other.toBytes maxLen := by
    induction path with
    | refl => exact ⟨parsed, fun _ => rfl⟩
    | tail _ differ ih =>
        have next := differ.of_parsed wordChar ih.1
        exact ⟨next.1, fun maxLen => (ih.2 maxLen).trans (next.2 maxLen)⟩
  exact both.2

theorem not_hidesValues_of_form (form : Form) (sensitive : Sensitive form.name)
    {value : Text} (spelled : Spelled value) :
    ¬ HidesValues wordChar (form.text value) := by
  intro hides
  have blank : Spelled [] := fun character member => absurd member List.not_mem_nil
  have letter : Spelled ['x'] := by
    intro character member
    rw [List.mem_singleton.1 member]
    rfl
  have nonempty : ∀ value, form.text value ≠ [] := fun value =>
    List.ne_nil_of_mem (form.equals_mem value)
  apply form.shows wordChar
  apply redactBody_of_snippets (nonempty _) (nonempty _) (form.unparsed blank)
    (form.unparsed letter)
  intro maxLen
  rw [← hides _ (.single (.form form sensitive spelled blank)) maxLen,
    ← hides _ (.single (.form form sensitive spelled letter)) maxLen]

theorem not_hidesValues_of_broken {opening value rest : Text}
    (opens : OpensField opening) (valued : FieldValue value rest)
    (unparsed : Json.parse (opening ++ value ++ rest) = none) :
    ¬ HidesValues wordChar (opening ++ value ++ rest) := by
  intro hides
  have nonempty : ∀ value, opening ++ value ++ rest ≠ [] := by
    rcases opens with ⟨before, name, gap, space, _, _, _, rfl⟩
    simp
  have same : ∀ count,
      redactBody wordChar (opening ++ value ++ rest) =
        redactBody wordChar (opening ++ shownValue count ++ rest) := by
    intro count
    apply redactBody_of_snippets (nonempty _) (nonempty _) unparsed
      (shownValue_unparsed opening rest count)
    exact hides _ (.single (.broken opens valued (shownValue_valued count rest)
      unparsed (shownValue_unparsed opening rest count)))
  have shows := shownValue_shows wordChar opening rest
    ((redactBody wordChar (opening ++ value ++ rest)).count '~' + 1)
  rw [← same] at shows
  omega

/-- The log hides the sensitive values of a body when it is a document, and
otherwise only when it has none. -/
theorem hidesValues_rules :
    HidesValues wordChar text ↔
      (Json.parse text).isSome = true ∨ ¬ CarriesField text := by
  constructor
  · intro hides
    by_contra exposed
    rw [not_or, not_not, Bool.not_eq_true, Option.isSome_eq_false_iff,
      Option.isNone_iff_eq_none] at exposed
    rcases exposed with ⟨unparsed, carries⟩
    rcases carries with ⟨form, value, sensitive, spelled, rfl⟩ |
      ⟨opening, value, rest, opens, valued, rfl⟩
    · exact not_hidesValues_of_form form sensitive spelled hides
    · exact not_hidesValues_of_broken opens valued unparsed hides
  · rintro (parsed | bare)
    · exact hidesValues_of_parsed parsed
    · by_cases parsed : (Json.parse text).isSome = true
      · exact hidesValues_of_parsed parsed
      · rw [Bool.not_eq_true, Option.isSome_eq_false_iff,
          Option.isNone_iff_eq_none] at parsed
        intro other path maxLen
        rcases Relation.ReflTransGen.cases_head path with rfl | ⟨next, differ, _⟩
        · rfl
        · exact absurd (differ.carries parsed) bare

end Bodies

theorem redactPair_of_sensitive {key : Text} (plain : '=' ∉ key)
    (sensitive : isSensitiveQueryKey key = true) (value : Text) :
    redactPair (key ++ '=' :: value) = key ++ ("=[REDACTED]" : Text) := by
  rw [redactPair, Text.splitOnce_append value plain]
  simp only [sensitive, if_true]

/-- The logged URI does not depend on the value of a sensitive key. -/
theorem redactUriForLog_differ {uri other : Text} (differ : UriDiffer uri other) :
    redactUriForLog uri = redactUriForLog other := by
  cases differ with
  | @value path key value other front back pathPlain keyPlain sensitive plain =>
      have logged : ∀ value : Text, '&' ∉ value →
          redactUriForLog (path ++ '?' ::
            Text.join ['&'] (front ++ (key ++ '=' :: value) :: back)) =
          path ++ '?' :: Text.join ['&'] (front.map redactPair ++
            (key ++ ("=[REDACTED]" : Text)) :: back.map redactPair) := by
        intro value single
        have parts : ∀ part ∈ front ++ (key ++ '=' :: value) :: back,
            '&' ∉ part := by
          intro part member
          rw [List.mem_append, List.mem_cons] at member
          rcases member with inFront | rfl | inBack
          · exact plain part (by simp [inFront])
          · simp [keyPlain.2, single]
          · exact plain part (by simp [inBack])
        have split : (Text.join ['&']
            (front ++ (key ++ '=' :: value) :: back)).splitOn '&' =
              front ++ (key ++ '=' :: value) :: back :=
          List.splitOn_intercalate '&' parts (by simp)
        have nonempty :
            Text.join ['&'] (front ++ (key ++ '=' :: value) :: back) ≠ [] := by
          rcases Text.join_around '&' front back with ⟨opening, closing, _, _, same⟩
          rw [same]
          simp
        rw [redactUriForLog, Text.splitOnce_append _ pathPlain]
        simp only [nonempty, if_false, split, List.map_append, List.map_cons,
          redactPair_of_sensitive keyPlain.1 sensitive]
      rw [logged value (plain value (by simp)), logged other (plain other (by simp))]

theorem redactUriForLog_rules {uri other : Text}
    (path : Relation.ReflTransGen UriDiffer uri other) :
    redactUriForLog uri = redactUriForLog other := by
  induction path with
  | refl => rfl
  | tail _ differ ih => exact ih.trans (redactUriForLog_differ differ)

section Logins

attribute [local instance] FloatFormat.integersOnly UnicodeTables.ascii

def eventsUri (token : Text) : Text :=
  ("/events" : Text) ++ '?' ::
    Text.join ['&'] ([] ++ (("token" : Text) ++ '=' :: token) :: [])

/-- The opening of a login up to its password. -/
def loginOpening : Text := "\x7b\"password\": "

def cutLogin (password : Text) : Text := loginOpening ++ '"' :: password ++ []

theorem loginOpening_opens : OpensField loginOpening :=
  ⟨['\x7b'], "password", [], [' '], ⟨"password", by decide, rfl⟩, rfl, rfl, rfl⟩

end Logins

end FireCrow.Middleware.HttpLogger
