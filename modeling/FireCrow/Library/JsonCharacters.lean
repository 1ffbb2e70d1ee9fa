import FireCrow.Library.Json

/-!
# Characters that no JSON text has

What the parser takes off the head of a text it has read: a number literal is
digits, signs, points and exponent marks, a string literal has no control
character, and between tokens stands only space.
-/

namespace FireCrow.Library

/-- The characters of number literals. -/
def NumberText.isPart (character : Char) : Bool :=
  Text.isAsciiDigit character || character ∈ ['-', '+', '.', 'e', 'E']

theorem mem_dropWhile_of_refused {accepts : Char → Bool} {character : Char}
    {text : Text} (refused : accepts character = false)
    (member : character ∈ text) : character ∈ text.dropWhile accepts := by
  rw [← List.takeWhile_append_dropWhile (p := accepts) (l := text)] at member
  rcases List.mem_append.1 member with taken | left
  · have accepted := List.mem_takeWhile_imp taken
    rw [refused] at accepted
    cases accepted
  · exact left

namespace NumberText

variable {character : Char} {text rest : Text}

section

variable (foreign : isPart character = false)
include foreign

theorem not_digit_of_not_part : Text.isAsciiDigit character = false := by
  rw [isPart, Bool.or_eq_false_iff] at foreign
  exact foreign.1

theorem ne_of_not_part {mark : Char}
    (part : isPart mark = true) : character ≠ mark := by
  rintro rfl
  rw [foreign] at part
  cases part

theorem mem_of_scanSign
    (member : character ∈ text) : character ∈ (scanSign text).2 := by
  cases text with
  | nil => cases member
  | cons sign rest =>
      rw [scanSign]
      split
      · rename_i minus
        rcases List.mem_cons.1 member with rfl | later
        · exact absurd minus (ne_of_not_part foreign (by decide))
        · exact later
      · exact member

theorem mem_of_scanFraction {fraction : Option Text} (member : character ∈ text)
    (found : scanFraction text = some (fraction, rest)) : character ∈ rest := by
  cases text with
  | nil => cases member
  | cons point after =>
      rw [scanFraction] at found
      split at found
      · rename_i isPoint
        dsimp only at found
        split at found
        · cases found
        · cases found
          rcases List.mem_cons.1 member with rfl | later
          · exact absurd isPoint (ne_of_not_part foreign (by decide))
          · exact mem_dropWhile_of_refused (not_digit_of_not_part foreign) later
      · cases found
        exact member

theorem mem_of_scanExponent {exponent : Option (Text × Text)}
    (member : character ∈ text)
    (found : scanExponent text = some (exponent, rest)) : character ∈ rest := by
  have digit := not_digit_of_not_part foreign
  cases text with
  | nil => cases member
  | cons letter after =>
      simp only [scanExponent.eq_def] at found
      split at found
      · rename_i isLetter
        have behind : character ∈ after := by
          rcases List.mem_cons.1 member with rfl | later
          · rcases isLetter with lower | upper
            · exact absurd lower (ne_of_not_part foreign (by decide))
            · exact absurd upper (ne_of_not_part foreign (by decide))
          · exact later
        cases after with
        | nil => cases behind
        | cons sign tail =>
            dsimp only at found
            by_cases signed : sign = '+' ∨ sign = '-'
            · simp only [if_pos signed] at found
              split at found
              · cases found
              · cases found
                rcases List.mem_cons.1 behind with rfl | later
                · rcases signed with plus | minus
                  · exact absurd plus (ne_of_not_part foreign (by decide))
                  · exact absurd minus (ne_of_not_part foreign (by decide))
                · exact mem_dropWhile_of_refused digit later
            · simp only [if_neg signed] at found
              split at found
              · cases found
              · cases found
                exact mem_dropWhile_of_refused digit behind
      · cases found
        exact member

/-- A number literal takes nothing but its own characters off a text. -/
theorem mem_of_scan {number : NumberText} (member : character ∈ text)
    (found : scan text = some (number, rest)) : character ∈ rest := by
  have unsigned := mem_of_scanSign foreign member
  rw [scan] at found
  dsimp only at found
  split at found
  · cases found
  · simp only [Option.bind_eq_bind, Option.bind_eq_some_iff] at found
    rcases found with
      ⟨⟨fraction, second⟩, fractionFound, ⟨exponent, third⟩, exponentFound, same⟩
    cases same
    have digits :=
      mem_dropWhile_of_refused (not_digit_of_not_part foreign) unsigned
    exact mem_of_scanExponent foreign
      (mem_of_scanFraction foreign digits fractionFound) exponentFound

end

end NumberText

namespace Json

/-- A character that neither a number literal nor a fixed word has. -/
structure Foreign (character : Char) : Prop where
  number : NumberText.isPart character = false
  space : isSpace character = false
  words : character ∉ (("nulltruefalse" : Text) : Text)

variable {character : Char}

theorem Foreign.mem_skipSpace {text : Text}
    (foreign : Foreign character) (member : character ∈ text) :
    character ∈ skipSpace text :=
  mem_dropWhile_of_refused foreign.space member

section Words

variable [FloatFormat] {character : Char} {text rest : Text} {value : Json}

theorem mem_of_parseWord {word : Text} {found : Json}
    (foreign : character ∉ word) (member : character ∈ text)
    (parsed : parseWord word value text = some (found, rest)) :
    character ∈ rest := by
  rw [parseWord] at parsed
  split at parsed
  · rename_i starts
    cases parsed
    rw [List.isPrefixOf_iff_prefix] at starts
    rcases starts with ⟨tail, rfl⟩
    rw [List.drop_left]
    exact (List.mem_append.1 member).resolve_left foreign
  · cases parsed

theorem mem_of_parseNumber (foreign : NumberText.isPart character = false)
    (member : character ∈ text)
    (parsed : parseNumber text = some (value, rest)) : character ∈ rest := by
  simp only [parseNumber, Option.bind_eq_bind, Option.bind_eq_some_iff] at parsed
  rcases parsed with ⟨⟨number, after⟩, scanned, read, _, same⟩
  cases same
  exact NumberText.mem_of_scan foreign member scanned

/-- A fixed word or a number literal at the head of a text takes no foreign
character. -/
theorem Foreign.mem_of_plain (foreign : Foreign character)
    (member : character ∈ text)
    (parsed : parseWord "null" .null text = some (value, rest) ∨
      parseWord "true" (.bool true) text = some (value, rest) ∨
      parseWord "false" (.bool false) text = some (value, rest) ∨
      parseNumber text = some (value, rest)) : character ∈ rest := by
  have outside : ∀ part : Text,
      part <:+: (("nulltruefalse" : Text) : Text) → character ∉ part :=
    fun part inside inPart => foreign.words (inside.subset inPart)
  rcases parsed with word | word | word | number
  · exact mem_of_parseWord (outside _ ⟨[], "truefalse", rfl⟩) member word
  · exact mem_of_parseWord (outside _ ⟨"null", "false", rfl⟩) member word
  · exact mem_of_parseWord (outside _ ⟨"nulltrue", [], rfl⟩) member word
  · exact mem_of_parseNumber foreign.number member number

end Words

/-! ## Control characters -/

/-- A control character that is no space. -/
structure Unwritten (character : Char) : Prop where
  control : character.toNat < 0x20
  space : isSpace character = false

theorem Unwritten.ne {other : Char} (unwritten : Unwritten character)
    (written : 0x20 ≤ other.toNat) : other ≠ character := by
  rintro rfl
  exact absurd unwritten.control (Nat.not_lt.2 written)

theorem Unwritten.foreign (unwritten : Unwritten character) :
    Foreign character where
  number := by
    rw [Bool.eq_false_iff]
    intro part
    rw [NumberText.isPart, Bool.or_eq_true, decide_eq_true_eq] at part
    rcases part with digit | mark
    · rw [Text.isAsciiDigit, Bool.and_eq_true, decide_eq_true_eq,
        Char.le_def, UInt32.le_iff_toNat_le] at digit
      exact absurd unwritten.control (Nat.not_lt.2 (le_trans (by decide) digit.1))
    · have written : ∀ mark ∈ ['-', '+', '.', 'e', 'E'], 0x20 ≤ mark.toNat := by
        decide
      exact unwritten.ne (written character mark) rfl
  space := unwritten.space
  words := by
    intro member
    have written : ∀ letter ∈ (("nulltruefalse" : Text) : Text),
        0x20 ≤ letter.toNat := by decide
    exact unwritten.ne (written character member) rfl

theorem hexValue_written {value : Nat}
    (found : hexValue character = some value) : 0x20 ≤ character.toNat := by
  have least : ∀ low : Char, 0x20 ≤ low.toNat → low ≤ character →
      0x20 ≤ character.toNat := by
    intro low written below
    rw [Char.le_def, UInt32.le_iff_toNat_le] at below
    exact written.trans below
  rw [hexValue] at found
  split at found
  · rename_i digit
    rw [Text.isAsciiDigit, Bool.and_eq_true, decide_eq_true_eq] at digit
    exact least '0' (by decide) digit.1
  · split at found
    · rename_i lower
      exact least 'a' (by decide) lower.1
    · split at found
      · rename_i upper
        exact least 'A' (by decide) upper.1
      · cases found

theorem hexQuad_written {a b c d : Char} {code : Nat}
    (found : hexQuad a b c d = some code) :
    ∀ character ∈ [a, b, c, d], 0x20 ≤ character.toNat := by
  simp only [hexQuad, Option.bind_eq_bind, Option.bind_eq_some_iff] at found
  rcases found with ⟨_, first, _, second, _, third, _, fourth, _⟩
  simp only [List.forall_mem_cons, List.not_mem_nil, false_implies, implies_true,
    and_true]
  exact ⟨hexValue_written first, hexValue_written second,
    hexValue_written third, hexValue_written fourth⟩

theorem simpleEscape_written {letter : Char}
    (found : simpleEscape letter = some character) : 0x20 ≤ letter.toNat := by
  rw [simpleEscape] at found
  split at found
  · rename_i same
    rcases same with rfl | rfl | rfl <;> decide
  · repeat
      split at found
      · rename_i same
        rw [same]
        decide
    cases found

theorem Unwritten.mem_of_written
    (unwritten : Unwritten character) (front : Text) {back : Text}
    (written : ∀ other ∈ front, 0x20 ≤ other.toNat)
    (member : character ∈ front ++ back) : character ∈ back := by
  rcases List.mem_append.1 member with inside | later
  · exact absurd unwritten.control (Nat.not_lt.2 (written character inside))
  · exact later

/-- A string literal has no control character. -/
theorem Unwritten.mem_of_parseStringBody
    (unwritten : Unwritten character) (text : Text) :
    ∀ content rest, parseStringBody text = some (content, rest) →
      character ∈ text → character ∈ rest := by
  have marks : ∀ other ∈ ['\\', 'u'], 0x20 ≤ other.toNat := by decide
  fun_induction parseStringBody text with
  | case1 =>
      intro content rest found
      cases found
  | case2 =>
      intro content rest found
      cases found
  | case3 =>
      intro content rest found
      cases found
  | case4 a b c d code quad _ _ e f g h after ih =>
      intro content rest found member
      simp only [Option.bind_eq_bind, Option.bind_eq_some_iff] at found
      rcases found with ⟨low, second, _, _, ⟨inner, last⟩, body, same⟩
      cases same
      have high : character ∈ [a, b, c, d] ++
          (['\\', 'u'] ++ ([e, f, g, h] ++ after)) :=
        unwritten.mem_of_written ['\\', 'u'] marks member
      have escape := unwritten.mem_of_written _ (hexQuad_written quad) high
      have lower := unwritten.mem_of_written _ marks escape
      exact ih inner _ body
        (unwritten.mem_of_written _ (hexQuad_written second) lower)
  | case5 =>
      intro content rest found
      cases found
  | case6 a b c d after code quad _ _ ih =>
      intro content rest found member
      simp only [Option.bind_eq_bind, Option.bind_eq_some_iff] at found
      rcases found with ⟨⟨inner, last⟩, body, same⟩
      cases same
      have digits : character ∈ [a, b, c, d] ++ after :=
        unwritten.mem_of_written ['\\', 'u'] marks member
      exact ih inner _ body
        (unwritten.mem_of_written _ (hexQuad_written quad) digits)
  | case7 letter after _ ih =>
      intro content rest found member
      simp only [Option.bind_eq_bind, Option.bind_eq_some_iff] at found
      rcases found with ⟨escaped, escape, ⟨inner, last⟩, body, same⟩
      cases same
      apply ih inner _ body
      apply unwritten.mem_of_written ['\\', letter] _ member
      intro other inside
      rcases List.mem_cons.1 inside with rfl | inside
      · decide
      · rw [List.mem_singleton.1 inside]
        exact simpleEscape_written escape
  | case8 after =>
      intro content rest found member
      cases found
      exact (List.mem_cons.1 member).resolve_left (unwritten.ne (by decide)).symm
  | case9 =>
      intro content rest found
      cases found
  | case10 letter after _ _ _ legal ih =>
      intro content rest found member
      simp only [Option.bind_eq_bind, Option.bind_eq_some_iff] at found
      rcases found with ⟨⟨inner, last⟩, body, same⟩
      cases same
      apply ih inner _ body
      apply unwritten.mem_of_written [letter] _ member
      intro other inside
      rw [List.mem_singleton.1 inside]
      exact Nat.not_lt.1 fun control => legal (Or.inr control)

section Documents

variable [FloatFormat] {character : Char}

/-- A reader takes no occurrence of the character off a text. -/
def Leaves {Found : Type} (character : Char)
    (read : Text → Option (Found × Text)) : Prop :=
  ∀ text found rest, read text = some (found, rest) →
    character ∈ text → character ∈ rest

omit [FloatFormat] in
/-- Behind the first character that is no space, which is no control character. -/
theorem Unwritten.mem_behind (unwritten : Unwritten character) {text rest : Text}
    {head : Char} (same : skipSpace text = head :: rest)
    (written : 0x20 ≤ head.toNat) (member : character ∈ text) :
    character ∈ rest := by
  have behind := unwritten.foreign.mem_skipSpace member
  rw [same] at behind
  exact (List.mem_cons.1 behind).resolve_left (unwritten.ne written).symm

variable {fuel : Nat}

theorem Unwritten.leaves_parseValue (unwritten : Unwritten character)
    (items : ∀ depth, Leaves character (parseItems fuel depth))
    (members : ∀ depth start, Leaves character (parseMembers fuel depth start))
    (depth : Nat) : Leaves character (parseValue (fuel + 1) depth) := by
  have foreign := unwritten.foreign
  intro text value rest parsed member
  rw [parseValue] at parsed
  split at parsed
  · cases parsed
  rename_i head after same
  have whole : character ∈ head :: after := by
    rw [← same]
    exact foreign.mem_skipSpace member
  split at parsed
  · rename_i quote
    simp only [Option.bind_eq_bind, Option.bind_eq_some_iff,
      Option.some.injEq, Prod.mk.injEq] at parsed
    rcases parsed with ⟨⟨content, last⟩, body, _, rfl⟩
    apply unwritten.mem_of_parseStringBody after content last body
    exact unwritten.mem_behind same (by rw [quote]; decide) member
  split at parsed
  · rename_i bracket
    have inner := unwritten.mem_behind same (by rw [bracket]; decide) member
    split at parsed
    · cases parsed
    split at parsed
    · cases parsed
    rename_i next beyond opened
    split at parsed
    · rename_i closes
      cases parsed
      exact unwritten.mem_behind opened (by rw [closes]; decide) inner
    · simp only [Option.bind_eq_bind, Option.bind_eq_some_iff,
        Option.some.injEq, Prod.mk.injEq] at parsed
      rcases parsed with ⟨⟨found, last⟩, read, _, rfl⟩
      apply items _ _ _ _ read
      rw [← opened]
      exact foreign.mem_skipSpace inner
  split at parsed
  · rename_i brace
    have inner := unwritten.mem_behind same (by rw [brace]; decide) member
    split at parsed
    · cases parsed
    split at parsed
    · cases parsed
    rename_i next beyond opened
    split at parsed
    · rename_i closes
      cases parsed
      exact unwritten.mem_behind opened (by rw [closes]; decide) inner
    · simp only [Option.bind_eq_bind, Option.bind_eq_some_iff,
        Option.some.injEq, Prod.mk.injEq] at parsed
      rcases parsed with ⟨⟨found, last⟩, read, _, rfl⟩
      apply members _ _ _ _ _ read
      rw [← opened]
      exact foreign.mem_skipSpace inner
  split at parsed
  · exact foreign.mem_of_plain whole (Or.inl parsed)
  split at parsed
  · exact foreign.mem_of_plain whole (Or.inr (Or.inl parsed))
  split at parsed
  · exact foreign.mem_of_plain whole (Or.inr (Or.inr (Or.inl parsed)))
  · exact foreign.mem_of_plain whole (Or.inr (Or.inr (Or.inr parsed)))

theorem Unwritten.leaves_parseItems (unwritten : Unwritten character)
    (value : ∀ depth, Leaves character (parseValue fuel depth))
    (items : ∀ depth, Leaves character (parseItems fuel depth)) (depth : Nat) :
    Leaves character (parseItems (fuel + 1) depth) := by
  intro text found rest parsed member
  rw [parseItems] at parsed
  simp only [Option.bind_eq_bind, Option.bind_eq_some_iff] at parsed
  rcases parsed with ⟨⟨first, after⟩, read, parsed⟩
  have inner := value _ _ _ _ read member
  split at parsed
  · cases parsed
  rename_i next beyond opened
  split at parsed
  · rename_i closes
    cases parsed
    exact unwritten.mem_behind opened (by rw [closes]; decide) inner
  split at parsed
  · rename_i comma
    simp only [Option.bind_eq_some_iff, Option.some.injEq,
      Prod.mk.injEq] at parsed
    rcases parsed with ⟨⟨others, last⟩, more, _, rfl⟩
    apply items _ _ _ _ more
    exact unwritten.mem_behind opened (by rw [comma]; decide) inner
  · cases parsed

omit [FloatFormat] in
theorem Unwritten.leaves_parseString (unwritten : Unwritten character)
    {text content rest : Text}
    (parsed : parseString (skipSpace text) = some (content, rest))
    (member : character ∈ text) : character ∈ rest := by
  rw [parseString.eq_def] at parsed
  split at parsed
  · rename_i quote inner same
    split at parsed
    · rename_i quotes
      apply unwritten.mem_of_parseStringBody inner content rest parsed
      exact unwritten.mem_behind same (by rw [quotes]; decide) member
    · cases parsed
  · cases parsed

section

variable (unwritten : Unwritten character)
include unwritten

theorem Unwritten.leaves_parseMembers
    (value : ∀ depth, Leaves character (parseValue fuel depth))
    (members : ∀ depth start, Leaves character (parseMembers fuel depth start))
    (depth : Nat) (start : JsonMap) :
    Leaves character (parseMembers (fuel + 1) depth start) := by
  intro text found rest parsed member
  rw [parseMembers] at parsed
  simp only [Option.bind_eq_bind, Option.bind_eq_some_iff] at parsed
  rcases parsed with ⟨⟨key, after⟩, keyed, parsed⟩
  have behindKey := unwritten.leaves_parseString keyed member
  split at parsed
  · cases parsed
  rename_i next beyond opened
  split at parsed
  · rename_i colon
    have inner := unwritten.mem_behind opened (by rw [colon]; decide) behindKey
    simp only [Option.bind_eq_some_iff] at parsed
    rcases parsed with ⟨⟨first, last⟩, read, parsed⟩
    have behind := value _ _ _ _ read inner
    split at parsed
    · cases parsed
    rename_i mark ending marked
    split at parsed
    · rename_i closes
      cases parsed
      exact unwritten.mem_behind marked (by rw [closes]; decide) behind
    split at parsed
    · rename_i comma
      apply members _ _ _ _ _ parsed
      exact unwritten.mem_behind marked (by rw [comma]; decide) behind
    · cases parsed
  · cases parsed

/-- What the parser takes off a text has no control character but space. -/
theorem Unwritten.leaves_parsed (fuel : Nat) :
    (∀ depth, Leaves character (parseValue fuel depth)) ∧
    (∀ depth, Leaves character (parseItems fuel depth)) ∧
    ∀ depth start, Leaves character (parseMembers fuel depth start) := by
  induction fuel with
  | zero =>
      refine ⟨?_, ?_, ?_⟩
      · intro depth text value rest parsed
        simp [parseValue] at parsed
      · intro depth text items rest parsed
        simp [parseItems] at parsed
      · intro depth start text members rest parsed
        simp [parseMembers] at parsed
  | succ fuel ih =>
      rcases ih with ⟨value, items, members⟩
      exact ⟨unwritten.leaves_parseValue items members,
        unwritten.leaves_parseItems value items,
        unwritten.leaves_parseMembers value members⟩

/-- A document has no control character but space. -/
theorem Unwritten.not_mem_of_parse
    {text : Text} {value : Json} (parsed : parse text = some value) :
    character ∉ text := by
  intro member
  simp only [parse, Option.bind_eq_bind, Option.bind_eq_some_iff] at parsed
  rcases parsed with ⟨⟨found, rest⟩, headed, ending⟩
  have left := (unwritten.leaves_parsed _).1 _ _ _ _ headed member
  have unskipped := unwritten.foreign.mem_skipSpace left
  split at ending
  · rename_i blank
    rw [blank] at unskipped
    cases unskipped
  · cases ending

end

/-- A text that begins with neither a string nor a container is a document only
if it has no foreign character. -/
theorem Foreign.not_mem_of_parse (foreign : Foreign character) {text : Text}
    (plain : ∀ head rest, skipSpace text = head :: rest →
      head ≠ '"' ∧ head ≠ '[' ∧ head ≠ '{')
    {value : Json} (parsed : parse text = some value) : character ∉ text := by
  intro member
  simp only [parse, Option.bind_eq_bind, Option.bind_eq_some_iff] at parsed
  rcases parsed with ⟨⟨found, rest⟩, headed, ending⟩
  have left : character ∈ rest := by
    rw [parseValue] at headed
    split at headed
    · cases headed
    rename_i head after same
    rcases plain head after same with ⟨noQuote, noBracket, noBrace⟩
    rw [if_neg noQuote, if_neg noBracket, if_neg noBrace] at headed
    have whole : character ∈ head :: after := by
      rw [← same]
      exact foreign.mem_skipSpace member
    split at headed
    · exact foreign.mem_of_plain whole (Or.inl headed)
    split at headed
    · exact foreign.mem_of_plain whole (Or.inr (Or.inl headed))
    split at headed
    · exact foreign.mem_of_plain whole (Or.inr (Or.inr (Or.inl headed)))
    · exact foreign.mem_of_plain whole (Or.inr (Or.inr (Or.inr headed)))
  have unskipped := foreign.mem_skipSpace left
  split at ending
  · rename_i blank
    rw [blank] at unskipped
    cases unskipped
  · cases ending

end Documents

end Json

end FireCrow.Library
