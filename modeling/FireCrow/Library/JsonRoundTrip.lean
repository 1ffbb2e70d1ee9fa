import FireCrow.Library.Json

/-!
# Reading back what was rendered

`parse` inverts `render` on values whose objects are sorted and whose nesting
is within the limit of the parser, up to the conversion of floats.  The parser
builds only such values, so rendering a parsed value and reading it again
always succeeds.
-/

namespace FireCrow.Library

namespace Text

theorem isAsciiDigit_eq_isDigit (character : Char) :
    isAsciiDigit character = character.isDigit := by
  rw [isAsciiDigit, Char.isDigit, Bool.eq_iff_iff]
  simp only [Bool.and_eq_true, decide_eq_true_eq]
  exact Iff.rfl

theorem isWhitespace_of_isAsciiDigit {character : Char}
    (digit : isAsciiDigit character = true) :
    isWhitespace character = false := by
  simp only [isAsciiDigit, Bool.and_eq_true, decide_eq_true_eq] at digit
  have low : 48 ≤ character.val.toNat := digit.1
  have high : character.val.toNat ≤ 57 := digit.2
  simp only [isWhitespace, Bool.or_eq_false_iff, Bool.and_eq_false_iff,
    decide_eq_false_iff_not, beq_eq_false_iff_ne]
  omega

theorem ofNat_ne_nil (number : Nat) : ofNat number ≠ [] := Nat.toDigits_ne_nil

theorem ofNat_digits (number : Nat) :
    (ofNat number).all isAsciiDigit = true := by
  rw [List.all_eq_true]
  intro character member
  rw [isAsciiDigit_eq_isDigit]
  exact Nat.isDigit_of_mem_toDigits (by decide) (by decide) member

theorem ofNat_head_ne_zero {number : Nat} (positive : 0 < number) :
    (ofNat number).head? ≠ some '0' := by
  induction number using Nat.strongRecOn with
  | ind number ih =>
      rw [ofNat]
      by_cases small : number < 10
      · rw [Nat.toDigits_of_lt_base small]
        have single :
            ∀ digit < 10, 0 < digit →
              [Nat.digitChar digit].head? ≠ some '0' := by
          decide
        exact single number small positive
      · have shorter : number / 10 < number := by omega
        have leading := ih (number / 10) shorter (by omega)
        rw [Nat.toDigits_of_base_le (by decide) (by omega)]
        rw [List.head?_append_of_ne_nil _ Nat.toDigits_ne_nil]
        exact leading

theorem ofNat_leading (number : Nat) :
    (ofNat number).head? = some '0' → ofNat number = ['0'] := by
  intro leading
  rcases Nat.eq_zero_or_pos number with rfl | positive
  · rfl
  · exact absurd leading (ofNat_head_ne_zero positive)

end Text

/-! ## Number literals -/

/-- What follows a number literal does not continue it. -/
def EndsNumber (rest : Text) : Prop :=
  ∀ head, rest.head? = some head →
    Text.isAsciiDigit head = false ∧ head ≠ '.' ∧ head ≠ 'e' ∧ head ≠ 'E'

theorem endsNumber_cons {head : Char} {rest : Text}
    (notDigit : Text.isAsciiDigit head = false)
    (notPoint : head ≠ '.') (notLower : head ≠ 'e') (notUpper : head ≠ 'E') :
    EndsNumber (head :: rest) := by
  intro other equal
  cases equal
  exact ⟨notDigit, notPoint, notLower, notUpper⟩

theorem endsNumber_nil : EndsNumber [] := by
  intro head equal
  cases equal

/-- A text that does not start with a digit. -/
def EndsDigits (rest : Text) : Prop :=
  ∀ head, rest.head? = some head → Text.isAsciiDigit head = false

theorem EndsNumber.endsDigits {rest : Text} (ends : EndsNumber rest) :
    EndsDigits rest :=
  fun head equal => (ends head equal).1

theorem takeWhile_digits {digits rest : Text}
    (all : digits.all Text.isAsciiDigit = true) (ends : EndsDigits rest) :
    (digits ++ rest).takeWhile Text.isAsciiDigit = digits := by
  induction digits with
  | nil =>
      cases rest with
      | nil => rfl
      | cons head tail => simp [ends head rfl]
  | cons head tail ih =>
      simp only [List.all_cons, Bool.and_eq_true] at all
      simp [all.1, ih all.2]

theorem dropWhile_digits {digits rest : Text}
    (all : digits.all Text.isAsciiDigit = true) (ends : EndsDigits rest) :
    (digits ++ rest).dropWhile Text.isAsciiDigit = rest := by
  induction digits with
  | nil =>
      cases rest with
      | nil => rfl
      | cons head tail => simp [ends head rfl]
  | cons head tail ih =>
      simp only [List.all_cons, Bool.and_eq_true] at all
      simp [all.1, ih all.2]

namespace NumberText

/-- The rendered exponent. -/
def exponentText (number : NumberText) : Text :=
  match number.exponent with
  | none => []
  | some (mark, digits) => mark ++ digits

/-- The rendered fraction. -/
def fractionText (number : NumberText) : Text :=
  match number.fraction with
  | none => []
  | some digits => '.' :: digits

theorem render_eq (number : NumberText) :
    number.render =
      (if number.negative then ['-'] else []) ++ number.whole ++
        number.fractionText ++ number.exponentText := rfl

variable {number : NumberText} {rest : Text}

section

variable (wellFormed : number.WellFormed)
include wellFormed

theorem scanExponent_render (ends : EndsNumber rest) :
    scanExponent (number.exponentText ++ rest) =
      some (number.exponent, rest) := by
  cases exponent : number.exponent with
  | none =>
      cases rest with
      | nil => simp [exponentText, exponent, scanExponent]
      | cons head tail =>
          have first := ends head rfl
          simp [exponentText, exponent, scanExponent, first]
  | some parts =>
      rcases parts with ⟨mark, digits⟩
      rcases wellFormed.exponent_digits mark digits exponent with
        ⟨marks, nonempty, all⟩
      have taken := takeWhile_digits all ends.endsDigits
      have dropped := dropWhile_digits all ends.endsDigits
      rcases List.exists_cons_of_ne_nil nonempty with ⟨digit, more, rfl⟩
      have isDigit : Text.isAsciiDigit digit = true := by
        simp only [List.all_cons, Bool.and_eq_true] at all
        exact all.1
      have notSign : digit ≠ '+' ∧ digit ≠ '-' := by
        constructor <;> rintro rfl <;> exact absurd isDigit (by decide)
      simp only [List.cons_append] at taken dropped
      simp only [List.mem_cons, List.not_mem_nil, or_false] at marks
      rcases marks with rfl | rfl | rfl | rfl | rfl | rfl <;>
        simp [exponentText, exponent, scanExponent, taken, dropped, notSign]

theorem endsDigits_exponent (ends : EndsNumber rest) :
    ∀ head, (number.exponentText ++ rest).head? = some head →
      Text.isAsciiDigit head = false ∧ head ≠ '.' := by
  intro head equal
  cases exponent : number.exponent with
  | none =>
      have same : rest.head? = some head := by
        simpa [exponentText, exponent] using equal
      exact ⟨(ends head same).1, (ends head same).2.1⟩
  | some parts =>
      rcases parts with ⟨mark, digits⟩
      have marks := (wellFormed.exponent_digits mark digits exponent).1
      simp only [List.mem_cons, List.not_mem_nil, or_false] at marks
      rcases marks with rfl | rfl | rfl | rfl | rfl | rfl <;>
        (simp only [exponentText, exponent, List.cons_append,
          List.head?_cons, Option.some.injEq] at equal
         subst equal
         decide)

theorem scanFraction_render (ends : EndsNumber rest) :
    scanFraction
        (number.fractionText ++ (number.exponentText ++ rest)) =
      some (number.fraction, number.exponentText ++ rest) := by
  have after := endsDigits_exponent wellFormed ends
  cases fraction : number.fraction with
  | none =>
      simp only [fractionText, fraction, List.nil_append]
      cases exponentText : number.exponentText ++ rest with
      | nil => rfl
      | cons head tail =>
          have first := after head (by rw [exponentText]; rfl)
          simp [scanFraction, first.2]
  | some digits =>
      rcases wellFormed.fraction_digits digits fraction with ⟨nonempty, all⟩
      have endsDigits : EndsDigits (number.exponentText ++ rest) :=
        fun head equal => (after head equal).1
      have taken := takeWhile_digits all endsDigits
      have dropped := dropWhile_digits all endsDigits
      simp [fractionText, fraction, scanFraction, taken, dropped, nonempty]

theorem endsDigits_fraction (ends : EndsNumber rest) :
    EndsDigits (number.fractionText ++ (number.exponentText ++ rest)) := by
  intro head equal
  cases fraction : number.fraction with
  | none =>
      simp only [fractionText, fraction, List.nil_append] at equal
      exact (endsDigits_exponent wellFormed ends head equal).1
  | some digits =>
      simp only [fractionText, fraction, List.cons_append,
        List.head?_cons, Option.some.injEq] at equal
      subst equal
      decide

/-- Scanning finds a rendered literal and stops right after it. -/
theorem scan_render (ends : EndsNumber rest) :
    scan (number.render ++ rest) = some (number, rest) := by
  have endsDigits := endsDigits_fraction wellFormed ends
  have taken := takeWhile_digits wellFormed.whole_digits endsDigits
  have dropped := dropWhile_digits wellFormed.whole_digits endsDigits
  have signed :
      scanSign (number.render ++ rest) =
        (number.negative, number.whole ++
          (number.fractionText ++ (number.exponentText ++ rest))) := by
    rcases List.exists_cons_of_ne_nil wellFormed.whole_ne_nil with
      ⟨digit, more, whole⟩
    have isDigit : Text.isAsciiDigit digit = true := by
      have all := wellFormed.whole_digits
      rw [whole, List.all_cons, Bool.and_eq_true] at all
      exact all.1
    have notSign : digit ≠ '-' := by
      rintro rfl
      exact absurd isDigit (by decide)
    rw [render_eq]
    cases negative : number.negative <;>
      simp [scanSign, whole, notSign, List.append_assoc]
  have accepted :
      ¬ (number.whole = [] ∨
        (number.whole.head? = some '0' ∧ number.whole ≠ ['0'])) := by
    rintro (empty | ⟨leading, long⟩)
    · exact wellFormed.whole_ne_nil empty
    · exact long (wellFormed.whole_leading leading)
  rw [scan, signed]
  simp only [taken, dropped]
  rw [if_neg accepted, scanFraction_render wellFormed ends]
  simp [scanExponent_render wellFormed ends]

end

/-- The literal of an integer. -/
def ofInt (number : Int) : NumberText :=
  ⟨decide (number < 0), Text.ofNat number.natAbs, none, none⟩

theorem ofInt_wellFormed (number : Int) : (ofInt number).WellFormed where
  whole_ne_nil := Text.ofNat_ne_nil _
  whole_digits := Text.ofNat_digits _
  whole_leading := Text.ofNat_leading _
  fraction_digits := by
    intro digits equal
    cases equal
  exponent_digits := by
    intro mark digits equal
    cases equal

theorem ofInt_render (number : Int) :
    (ofInt number).render = Text.ofInt number := by
  cases number with
  | ofNat number => simp [ofInt, render, Text.ofInt]
  | negSucc number =>
      have negative : Int.negSucc number < 0 := Int.negSucc_lt_zero number
      simp [ofInt, render, Text.ofInt, negative]

end NumberText

/-! ## String literals -/

namespace Json

theorem hexValue_hexDigit :
    ∀ number < 16, hexValue (hexDigit number) = some number := by
  decide

private theorem parseStringBody_simpleEscape {letter character : Char}
    (escape : simpleEscape letter = some character) (notHex : letter ≠ 'u')
    (rest : Text) :
    parseStringBody ('\\' :: letter :: rest) =
      (parseStringBody rest).map fun parsed =>
        (character :: parsed.1, parsed.2) := by
  rw [parseStringBody]
  · rw [escape]
    cases parseStringBody rest <;> rfl
  · rintro _ _ _ _ _ equal
    exact absurd equal notHex

/-- Reading an escaped character gives the character back. -/
theorem parseStringBody_escapeChar (character : Char) (rest : Text) :
    parseStringBody (escapeChar character ++ rest) =
      (parseStringBody rest).map fun parsed =>
        (character :: parsed.1, parsed.2) := by
  unfold escapeChar
  -- the characters with a one-letter escape
  iterate 7
    split
    · subst_vars
      exact parseStringBody_simpleEscape (by decide) (by decide) rest
  split
  · rename_i small
    have high := hexValue_hexDigit (character.toNat / 16) (by omega)
    have low := hexValue_hexDigit (character.toNat % 16) (by omega)
    have zero : hexValue '0' = some 0 := by decide
    have code :
        hexQuad '0' '0' (hexDigit (character.toNat / 16))
            (hexDigit (character.toNat % 16)) =
          some character.toNat := by
      simp only [hexQuad, zero, high, low, Option.bind_eq_bind,
        Option.bind_some]
      congr 1
      omega
    have notLow : ¬ (0xDC00 ≤ character.toNat ∧ character.toNat ≤ 0xDFFF) := by
      omega
    have notHigh :
        ¬ (0xD800 ≤ character.toNat ∧ character.toNat ≤ 0xDBFF) := by
      omega
    simp only [List.cons_append, List.nil_append]
    rw [parseStringBody, code]
    simp only [if_neg notLow, if_neg notHigh, Char.ofNat_toNat]
    cases parseStringBody rest <;> rfl
  · rename_i notQuote notSlash _ _ _ _ _ notSmall
    rw [List.singleton_append, parseStringBody]
    · simp only [if_neg notQuote, notSlash, notSmall, or_self, if_false]
      cases parseStringBody rest <;> rfl
    · rintro _ _ _ _ _ rfl
      exact absurd rfl notSlash
    · rintro _ _ rfl
      exact absurd rfl notSlash

theorem parseStringBody_render (text rest : Text) :
    parseStringBody (text.flatMap escapeChar ++ '"' :: rest) =
      some (text, rest) := by
  induction text with
  | nil =>
      rw [List.flatMap_nil, List.nil_append, parseStringBody]
      · simp
      · rintro _ _ _ _ _ equal
        cases equal
      · rintro _ _ equal
        cases equal
  | cons character text ih =>
      rw [List.flatMap_cons, List.append_assoc, parseStringBody_escapeChar, ih]
      rfl

theorem parseString_render (text rest : Text) :
    parseString (renderString text ++ rest) = some (text, rest) := by
  have body := parseStringBody_render text rest
  simpa [renderString, parseString] using body

/-! ## First characters -/

/-- The first character of a rendered value. -/
def StartsValue (text : Text) : Prop :=
  ∃ head rest, text = head :: rest ∧ isSpace head = false ∧
    head ≠ ']' ∧ head ≠ '}'

theorem StartsValue.skipSpace {text : Text} (starts : StartsValue text)
    (rest : Text) : skipSpace (text ++ rest) = text ++ rest := by
  rcases starts with ⟨head, tail, rfl, notSpace, _, _⟩
  simp [Json.skipSpace, notSpace]

private theorem digit_startsValue {digit : Char}
    (isDigit : Text.isAsciiDigit digit = true) :
    isSpace digit = false ∧ digit ≠ ']' ∧ digit ≠ '}' ∧ digit ≠ '"' ∧
      digit ≠ '[' ∧ digit ≠ '{' ∧ digit ≠ 'n' ∧ digit ≠ 't' ∧ digit ≠ 'f' := by
  refine ⟨?_, ?_, ?_, ?_, ?_, ?_, ?_, ?_, ?_⟩
  · rw [Bool.eq_false_iff]
    intro space
    simp only [isSpace, Bool.or_eq_true, beq_iff_eq] at space
    rcases space with ((rfl | rfl) | rfl) | rfl <;>
      exact absurd isDigit (by decide)
  all_goals
    rintro rfl
    exact absurd isDigit (by decide)

/-- The first character of a rendered number. -/
theorem number_head {number : NumberText} (wellFormed : number.WellFormed) :
    ∃ head rest, number.render = head :: rest ∧
      (head = '-' ∨ Text.isAsciiDigit head = true) := by
  rcases List.exists_cons_of_ne_nil wellFormed.whole_ne_nil with
    ⟨digit, more, whole⟩
  have isDigit : Text.isAsciiDigit digit = true := by
    have all := wellFormed.whole_digits
    rw [whole, List.all_cons, Bool.and_eq_true] at all
    exact all.1
  rw [NumberText.render_eq, whole]
  cases number.negative
  · exact ⟨digit, _, rfl, Or.inr isDigit⟩
  · exact ⟨'-', _, rfl, Or.inl rfl⟩

theorem number_startsValue {number : NumberText}
    (wellFormed : number.WellFormed) : StartsValue number.render := by
  rcases number_head wellFormed with ⟨head, rest, equal, rfl | isDigit⟩
  · exact ⟨'-', rest, equal, by decide, by decide, by decide⟩
  · rcases digit_startsValue isDigit with ⟨space, bracket, brace, _⟩
    exact ⟨head, rest, equal, space, bracket, brace⟩

theorem skipSpace_renderString (text rest : Text) :
    skipSpace (renderString text ++ rest) = renderString text ++ rest := by
  simp [skipSpace, renderString, isSpace]

/-! ## Shape of values -/

section Values

variable [FloatFormat]

mutual

/-- Every object of the value has its members in ascending key order. -/
def Sorted : Json → Prop
  | .array items => SortedItems items
  | .object members =>
      (members.Pairwise fun left right => left.1 < right.1) ∧
        SortedMembers members
  | .null => True
  | .bool _ => True
  | .int _ => True
  | .float _ => True
  | .string _ => True

def SortedItems : List Json → Prop
  | [] => True
  | item :: items => Sorted item ∧ SortedItems items

def SortedMembers : List (Text × Json) → Prop
  | [] => True
  | (_, value) :: members => Sorted value ∧ SortedMembers members

end

mutual

/-- The number of containers on the longest path. -/
def depth : Json → Nat
  | .array items => itemsDepth items + 1
  | .object members => membersDepth members + 1
  | .null => 0
  | .bool _ => 0
  | .int _ => 0
  | .float _ => 0
  | .string _ => 0

def itemsDepth : List Json → Nat
  | [] => 0
  | item :: items => max (depth item) (itemsDepth items)

def membersDepth : List (Text × Json) → Nat
  | [] => 0
  | (_, value) :: members => max (depth value) (membersDepth members)

end

/-- A float after one trip through its text. -/
def rereadFloat (value : FloatFormat.Value) : FloatFormat.Value :=
  (FloatFormat.read (FloatFormat.write value)).get
    (FloatFormat.read_write value)

mutual

/-- A value after one trip through its text. -/
def reread : Json → Json
  | .null => .null
  | .bool value => .bool value
  | .int value => .int value
  | .float value => .float (rereadFloat value)
  | .string text => .string text
  | .array items => .array (rereadItems items)
  | .object members => .object (rereadMembers members)

def rereadItems : List Json → List Json
  | [] => []
  | item :: items => reread item :: rereadItems items

def rereadMembers : List (Text × Json) → List (Text × Json)
  | [] => []
  | (key, value) :: members => (key, reread value) :: rereadMembers members

end

mutual

/-- The fuel that reading the rendered value uses. -/
def fuel : Json → Nat
  | .array items => itemsFuel items + 1
  | .object members => membersFuel members + 1
  | .null => 1
  | .bool _ => 1
  | .int _ => 1
  | .float _ => 1
  | .string _ => 1

def itemsFuel : List Json → Nat
  | [] => 0
  | item :: items => max (fuel item) (itemsFuel items) + 1

def membersFuel : List (Text × Json) → Nat
  | [] => 0
  | (_, value) :: members => max (fuel value) (membersFuel members) + 1

end

/-! ## Reading rendered values -/

theorem render_startsValue (value : Json) : StartsValue value.render := by
  cases value with
  | null => exact ⟨'n', "ull".toList, rfl, by decide, by decide, by decide⟩
  | bool value =>
      cases value
      · exact ⟨'f', "alse".toList, rfl, by decide, by decide, by decide⟩
      · exact ⟨'t', "rue".toList, rfl, by decide, by decide, by decide⟩
  | int number =>
      rw [render, ← NumberText.ofInt_render]
      exact number_startsValue (NumberText.ofInt_wellFormed _)
  | float value =>
      rw [render]
      exact number_startsValue (FloatFormat.write_wellFormed value)
  | string text => exact ⟨'"', _, rfl, by decide, by decide, by decide⟩
  | array items =>
      cases items
      · exact ⟨'[', _, rfl, by decide, by decide, by decide⟩
      · exact ⟨'[', _, rfl, by decide, by decide, by decide⟩
  | object members =>
      cases members
      · exact ⟨'{', _, rfl, by decide, by decide, by decide⟩
      · exact ⟨'{', _, rfl, by decide, by decide, by decide⟩

variable {value : Json}

theorem parseNumber_render {number : NumberText}
    (wellFormed : number.WellFormed)
    (meaning : ofNumberText number = some value)
    {rest : Text} (ends : EndsNumber rest) :
    parseNumber (number.render ++ rest) = some (value, rest) := by
  simp [parseNumber, NumberText.scan_render wellFormed ends, meaning]

/-- A value that starts like a number is read as one. -/
theorem parseValue_number {number : NumberText} (wellFormed : number.WellFormed)
    (meaning : ofNumberText number = some value)
    (fuel depth : Nat) {rest : Text} (ends : EndsNumber rest) :
    parseValue (fuel + 1) depth (number.render ++ rest) =
      some (value, rest) := by
  rw [parseValue, (number_startsValue wellFormed).skipSpace rest]
  have parsed := parseNumber_render wellFormed meaning ends
  rcases number_head wellFormed with ⟨head, tail, equal, rfl | isDigit⟩
  · rw [equal] at parsed ⊢
    simpa using parsed
  · rcases digit_startsValue isDigit with
      ⟨_, _, _, quote, bracket, brace, null, true, false⟩
    rw [equal] at parsed ⊢
    simpa [quote, bracket, brace, null, true, false] using parsed

theorem ofNumberText_ofInt (number : JsonInt) :
    ofNumberText (NumberText.ofInt number.value) = some (.int number) := by
  rcases number with ⟨number, low, high⟩
  have magnitude :
      Nat.ofDigitChars 10 (Text.ofNat number.natAbs) 0 = number.natAbs :=
    Nat.ofDigitChars_ten_toDigits
  by_cases negative : number < 0
  · have positive : 0 < number.natAbs ∧ number.natAbs ≤ 2 ^ 63 := by omega
    simp only [ofNumberText, NumberText.ofInt, NumberText.isInteger,
      magnitude, negative]
    simp only [Option.isNone_none, Bool.and_self, decide_true,
      Bool.not_true, Bool.and_false, Bool.false_and, Bool.false_eq_true,
      if_false, true_and]
    rw [dif_pos positive]
    congr 2
    ext
    show -(number.natAbs : Int) = number
    omega
  · have small : number.natAbs < 2 ^ 64 := by omega
    simp only [ofNumberText, NumberText.ofInt, NumberText.isInteger,
      magnitude, negative, small]
    simp only [Option.isNone_none, Bool.and_self, decide_false,
      Bool.not_false, decide_true, if_true]
    congr 2
    ext
    rw [JsonInt.ofUnsigned_value small]
    show (number.natAbs : Int) = number
    omega

theorem ofNumberText_write (value : FloatFormat.Value) :
    ofNumberText (FloatFormat.write value) =
      some (.float (rereadFloat value)) := by
  have notInteger := FloatFormat.write_isFloat value
  simp [ofNumberText, notInteger, rereadFloat]

theorem parseWord_self (word : Text) (value : Json) (rest : Text) :
    parseWord word value (word ++ rest) = some (value, rest) := by
  simp [parseWord]

/-- What follows an item or a member ends a number. -/
theorem renderItems_endsNumber (items : List Json) (rest : Text) :
    EndsNumber (renderItems items ++ ']' :: rest) := by
  cases items <;>
    exact endsNumber_cons (by decide) (by decide) (by decide) (by decide)

variable (members : List (Text × Json))

theorem renderMembers_endsNumber (rest : Text) :
    EndsNumber (renderMembers members ++ '}' :: rest) := by
  cases members <;>
    exact endsNumber_cons (by decide) (by decide) (by decide) (by decide)

theorem map_fst_rereadMembers :
    (rereadMembers members).map Prod.fst = members.map Prod.fst := by
  induction members with
  | nil => rfl
  | cons member members ih => simp [rereadMembers, ih]

theorem rereadMembers_sorted {members : List (Text × Json)}
    (sorted : members.Pairwise fun left right => left.1 < right.1) :
    (rereadMembers members).Pairwise fun left right => left.1 < right.1 := by
  have keys := List.pairwise_map.2 sorted
  rw [← map_fst_rereadMembers] at keys
  exact List.pairwise_map.1 keys

theorem ofList_rereadMembers {members : List (Text × Json)}
    (sorted : members.Pairwise fun left right => left.1 < right.1) :
    SortedMap.ofList (rereadMembers members) =
      ⟨rereadMembers members, rereadMembers_sorted sorted⟩ :=
  SortedMap.ofList_entries ⟨rereadMembers members, rereadMembers_sorted sorted⟩

mutual

/-- Reading a rendered value, whatever follows it. -/
theorem parseValue_render :
    ∀ (value : Json) (limit depthLimit : Nat) (rest : Text),
      value.fuel ≤ limit → value.depth < depthLimit → value.Sorted →
      EndsNumber rest →
      parseValue limit depthLimit (value.render ++ rest) =
        some (value.reread, rest)
  | value, 0, depthLimit, rest, enough, _, _, _ => by
      cases value <;> simp [fuel] at enough
  | .null, limit + 1, depthLimit, rest, _, _, _, _ => by
      have word := parseWord_self "null" .null rest
      rw [parseValue, (render_startsValue .null).skipSpace]
      simpa [render, reread] using word
  | .bool true, limit + 1, depthLimit, rest, _, _, _, _ => by
      have word := parseWord_self "true" (.bool true) rest
      rw [parseValue, (render_startsValue (.bool true)).skipSpace]
      simpa [render, reread] using word
  | .bool false, limit + 1, depthLimit, rest, _, _, _, _ => by
      have word := parseWord_self "false" (.bool false) rest
      rw [parseValue, (render_startsValue (.bool false)).skipSpace]
      simpa [render, reread] using word
  | .int number, limit + 1, depthLimit, rest, _, _, _, ends => by
      rw [render, ← NumberText.ofInt_render]
      exact parseValue_number (NumberText.ofInt_wellFormed _)
        (ofNumberText_ofInt number) limit depthLimit ends
  | .float value, limit + 1, depthLimit, rest, _, _, _, ends => by
      rw [render]
      exact parseValue_number (FloatFormat.write_wellFormed value)
        (ofNumberText_write value) limit depthLimit ends
  | .string text, limit + 1, depthLimit, rest, _, _, _, _ => by
      have body := parseStringBody_render text rest
      rw [parseValue, (render_startsValue (.string text)).skipSpace]
      simp [render, renderString, body, reread]
  | .array [], limit + 1, depthLimit, rest, _, shallow, _, _ => by
      have open_ : ¬ depthLimit ≤ 1 := by
        simp only [depth] at shallow
        omega
      rw [parseValue, (render_startsValue (.array [])).skipSpace]
      simp [render, open_, skipSpace, isSpace, reread, rereadItems]
  | .array (item :: items), limit + 1, depthLimit, rest, enough, shallow,
      sorted, ends => by
      have open_ : ¬ depthLimit ≤ 1 := by
        simp only [depth] at shallow
        omega
      have body :=
        parseItems_render item items limit (depthLimit - 1) rest
          (by simp only [fuel] at enough; omega)
          (by simp only [depth] at shallow; omega) sorted
      rcases render_startsValue item with
        ⟨head, tail, equal, notSpace, notClose, _⟩
      rw [parseValue, (render_startsValue (.array (item :: items))).skipSpace]
      simp only [render, List.append_assoc, List.cons_append,
        List.nil_append] at body ⊢
      rw [equal] at body ⊢
      simp only [List.cons_append] at body ⊢
      simp [open_, skipSpace, notSpace, notClose, body, reread]
  | .object [], limit + 1, depthLimit, rest, _, shallow, _, _ => by
      have open_ : ¬ depthLimit ≤ 1 := by
        simp only [depth] at shallow
        omega
      rw [parseValue, (render_startsValue (.object [])).skipSpace]
      simp [render, open_, skipSpace, isSpace, reread, rereadMembers]
  | .object ((key, value) :: members), limit + 1, depthLimit, rest, enough,
      shallow, sorted, ends => by
      have open_ : ¬ depthLimit ≤ 1 := by
        simp only [depth] at shallow
        omega
      have body :=
        parseMembers_render key value members limit (depthLimit - 1) ∅ rest
          (by simp only [fuel] at enough; omega)
          (by simp only [depth] at shallow; omega) sorted.2
      have rebuilt := ofList_rereadMembers sorted.1
      rw [SortedMap.ofList] at rebuilt
      rw [rebuilt] at body
      rw [parseValue,
        (render_startsValue (.object ((key, value) :: members))).skipSpace]
      simp only [render, renderString, List.append_assoc, List.cons_append,
        List.nil_append] at body ⊢
      simp [open_, skipSpace, isSpace, body, reread]

theorem parseItems_render :
    ∀ (item : Json) (items : List Json) (limit depthLimit : Nat)
      (rest : Text),
      itemsFuel (item :: items) ≤ limit →
      itemsDepth (item :: items) < depthLimit →
      SortedItems (item :: items) →
      parseItems limit depthLimit
          (item.render ++ (renderItems items ++ ']' :: rest)) =
        some (rereadItems (item :: items), rest)
  | item, items, 0, depthLimit, rest, enough, _, _ => by
      simp [itemsFuel] at enough
  | item, [], limit + 1, depthLimit, rest, enough, shallow, sorted => by
      have first :=
        parseValue_render item limit depthLimit
          (renderItems [] ++ ']' :: rest)
          (by simp only [itemsFuel] at enough; omega)
          (by simp only [itemsDepth] at shallow; omega) sorted.1
          (renderItems_endsNumber [] rest)
      rw [parseItems, first]
      simp [renderItems, skipSpace, isSpace, rereadItems]
  | item, next :: items, limit + 1, depthLimit, rest, enough, shallow,
      sorted => by
      have first :=
        parseValue_render item limit depthLimit
          (renderItems (next :: items) ++ ']' :: rest)
          (by simp only [itemsFuel] at enough; omega)
          (by simp only [itemsDepth] at shallow; omega) sorted.1
          (renderItems_endsNumber (next :: items) rest)
      have others :=
        parseItems_render next items limit depthLimit rest
          (by simp only [itemsFuel] at enough ⊢; omega)
          (by simp only [itemsDepth] at shallow ⊢; omega) sorted.2
      rw [parseItems, first]
      simp [renderItems, skipSpace, isSpace, others, rereadItems]

theorem parseMembers_render :
    ∀ (key : Text) (value : Json) (members : List (Text × Json))
      (limit depthLimit : Nat) (start : JsonMap) (rest : Text),
      membersFuel ((key, value) :: members) ≤ limit →
      membersDepth ((key, value) :: members) < depthLimit →
      SortedMembers ((key, value) :: members) →
      parseMembers limit depthLimit start
          (renderString key ++ ':' :: (value.render ++
            (renderMembers members ++ '}' :: rest))) =
        some ((rereadMembers ((key, value) :: members)).foldl
          (fun map entry => map.insert entry.1 entry.2) start, rest)
  | key, value, members, 0, depthLimit, start, rest, enough, _, _ => by
      simp [membersFuel] at enough
  | key, value, [], limit + 1, depthLimit, start, rest, enough, shallow,
      sorted => by
      have first :=
        parseValue_render value limit depthLimit
          (renderMembers [] ++ '}' :: rest)
          (by simp only [membersFuel] at enough; omega)
          (by simp only [membersDepth] at shallow; omega) sorted.1
          (renderMembers_endsNumber [] rest)
      rw [parseMembers, skipSpace_renderString, parseString_render]
      simp only [renderMembers, List.nil_append] at first ⊢
      simp [skipSpace, isSpace, first, rereadMembers]
  | key, value, (nextKey, next) :: members, limit + 1, depthLimit, start,
      rest, enough, shallow, sorted => by
      have first :=
        parseValue_render value limit depthLimit
          (renderMembers ((nextKey, next) :: members) ++ '}' :: rest)
          (by simp only [membersFuel] at enough; omega)
          (by simp only [membersDepth] at shallow; omega) sorted.1
          (renderMembers_endsNumber ((nextKey, next) :: members) rest)
      have others :=
        parseMembers_render nextKey next members limit depthLimit
          (start.insert key value.reread) rest
          (by simp only [membersFuel] at enough ⊢; omega)
          (by simp only [membersDepth] at shallow ⊢; omega) sorted.2
      rw [parseMembers, skipSpace_renderString, parseString_render]
      simp only [renderMembers, List.cons_append, List.append_assoc]
        at first ⊢
      simp [skipSpace, isSpace, first, others, rereadMembers]

end

mutual

theorem fuel_le_length :
    ∀ value : Json, value.fuel ≤ 2 * value.render.length
  | .null => by simp [fuel, render]
  | .bool true => by simp [fuel, render]
  | .bool false => by simp [fuel, render]
  | .int number => by
      rcases render_startsValue (.int number) with ⟨head, rest, equal, _⟩
      rw [equal]
      simp [fuel]
      omega
  | .float value => by
      rcases render_startsValue (.float value) with ⟨head, rest, equal, _⟩
      rw [equal]
      simp [fuel]
      omega
  | .string text => by
      simp only [fuel, render, renderString, List.length_cons,
        List.length_append]
      omega
  | .array [] => by simp [fuel, itemsFuel, render]
  | .array (item :: items) => by
      have first := fuel_le_length item
      have others := itemsFuel_le_length items
      simp only [fuel, itemsFuel, render, List.length_cons,
        List.length_append]
      omega
  | .object [] => by simp [fuel, membersFuel, render]
  | .object ((key, value) :: members) => by
      have first := fuel_le_length value
      have others := membersFuel_le_length members
      simp only [fuel, membersFuel, render, List.length_cons,
        List.length_append]
      omega

theorem itemsFuel_le_length :
    ∀ items : List Json, itemsFuel items ≤ 2 * (renderItems items).length
  | [] => by simp [itemsFuel]
  | item :: items => by
      have first := fuel_le_length item
      have others := itemsFuel_le_length items
      simp only [itemsFuel, renderItems, List.length_cons,
        List.length_append]
      omega

theorem membersFuel_le_length :
    ∀ members : List (Text × Json),
      membersFuel members ≤ 2 * (renderMembers members).length
  | [] => by simp [membersFuel]
  | (key, value) :: members => by
      have first := fuel_le_length value
      have others := membersFuel_le_length members
      simp only [membersFuel, renderMembers, List.length_cons,
        List.length_append]
      omega

end

/-- `parse` reads back every rendered value that it could have built. -/
theorem parse_render (sorted : value.Sorted) (shallow : value.depth < 128) :
    parse value.render = some value.reread := by
  have enough := fuel_le_length value
  have read :=
    parseValue_render value (2 * value.render.length + 2) 128 []
      (by omega) shallow sorted endsNumber_nil
  rw [List.append_nil] at read
  have ended : skipSpace [] = [] := rfl
  simp only [parse, read, Option.bind_eq_bind, Option.bind_some]
  exact if_pos ended

/-! ## What the parser builds -/

theorem sortedItems_iff (items : List Json) :
    SortedItems items ↔ ∀ item ∈ items, item.Sorted := by
  induction items with
  | nil => simp [SortedItems]
  | cons item items ih => simp [SortedItems, ih]

theorem sortedMembers_iff :
    SortedMembers members ↔ ∀ member ∈ members, member.2.Sorted := by
  induction members with
  | nil => simp [SortedMembers]
  | cons member members ih => simp [SortedMembers, ih]

theorem itemsDepth_le_iff (items : List Json) (limit : Nat) :
    itemsDepth items ≤ limit ↔ ∀ item ∈ items, item.depth ≤ limit := by
  induction items with
  | nil => simp [itemsDepth]
  | cons item items ih => simp [itemsDepth, ih]

theorem membersDepth_le_iff (limit : Nat) :
    membersDepth members ≤ limit ↔
      ∀ member ∈ members, member.2.depth ≤ limit := by
  induction members with
  | nil => simp [membersDepth]
  | cons member members ih => simp [membersDepth, ih]

/-- A value that the parser can build under a nesting limit. -/
def Buildable (limit : Nat) (value : Json) : Prop :=
  value.Sorted ∧ value.depth ≤ limit

theorem buildable_array {limit : Nat} {items : List Json}
    (all : ∀ item ∈ items, Buildable limit item) :
    Buildable (limit + 1) (.array items) := by
  constructor
  · exact (sortedItems_iff items).2 fun item member => (all item member).1
  · exact Nat.succ_le_succ
      ((itemsDepth_le_iff items limit).2 fun item member =>
        (all item member).2)

theorem buildable_object {limit : Nat} {members : JsonMap}
    (all : ∀ member ∈ members.entries, Buildable limit member.2) :
    Buildable (limit + 1) (.object members.entries) := by
  constructor
  · exact ⟨members.sorted, (sortedMembers_iff _).2
      fun member inside => (all member inside).1⟩
  · exact Nat.succ_le_succ
      ((membersDepth_le_iff _ limit).2 fun member inside =>
        (all member inside).2)

theorem buildable_insert {limit : Nat} {members : JsonMap} {key : Text}
    (all : ∀ member ∈ members.entries, Buildable limit member.2)
    (built : Buildable limit value) :
    ∀ member ∈ (members.insert key value).entries,
      Buildable limit member.2 := by
  rintro ⟨name, found⟩ inside
  rw [SortedMap.mem_entries_iff, SortedMap.get?_insert] at inside
  split at inside
  · cases inside
    exact built
  · exact all (name, found) ((SortedMap.mem_entries_iff _ _ _).2 inside)

theorem parseNumber_buildable {text rest : Text}
    (limit : Nat) (parsed : parseNumber text = some (value, rest)) :
    Buildable limit value := by
  simp only [parseNumber, Option.bind_eq_bind, Option.bind_eq_some_iff,
    Option.some.injEq, Prod.mk.injEq] at parsed
  rcases parsed with ⟨⟨number, after⟩, _, found, meaning, rfl, _⟩
  simp only [ofNumberText] at meaning
  split at meaning
  · cases meaning
    exact ⟨trivial, Nat.zero_le _⟩
  · split at meaning
    · cases meaning
      exact ⟨trivial, Nat.zero_le _⟩
    · rcases Option.map_eq_some_iff.1 meaning with ⟨_, _, rfl⟩
      exact ⟨trivial, Nat.zero_le _⟩

theorem parseWord_value {word text rest : Text} {value found : Json}
    (parsed : parseWord word value text = some (found, rest)) :
    found = value := by
  unfold parseWord at parsed
  split at parsed
  · cases parsed
    rfl
  · cases parsed

/-- The three parsers build within the nesting limit, by one induction on
the fuel. -/
theorem parse_buildable (fuel : Nat) :
    (∀ depthLimit text value rest,
      parseValue fuel depthLimit text = some (value, rest) →
        Buildable (depthLimit - 1) value) ∧
    (∀ depthLimit text items rest,
      parseItems fuel depthLimit text = some (items, rest) →
        ∀ item ∈ items, Buildable (depthLimit - 1) item) ∧
    (∀ depthLimit start text members rest,
      (∀ member ∈ start.entries, Buildable (depthLimit - 1) member.2) →
      parseMembers fuel depthLimit start text = some (members, rest) →
        ∀ member ∈ members.entries, Buildable (depthLimit - 1) member.2) := by
  induction fuel with
  | zero =>
      refine ⟨?_, ?_, ?_⟩
      · intro depthLimit text value rest parsed
        simp [parseValue] at parsed
      · intro depthLimit text items rest parsed
        simp [parseItems] at parsed
      · intro depthLimit start text members rest _ parsed
        simp [parseMembers] at parsed
  | succ fuel ih =>
      rcases ih with ⟨valueStep, itemsStep, membersStep⟩
      refine ⟨?_, ?_, ?_⟩
      · intro depthLimit text value rest parsed
        rw [parseValue] at parsed
        split at parsed
        · cases parsed
        split at parsed
        · simp only [Option.bind_eq_bind, Option.bind_eq_some_iff,
            Option.some.injEq, Prod.mk.injEq] at parsed
          rcases parsed with ⟨_, _, rfl, _⟩
          exact ⟨trivial, Nat.zero_le _⟩
        split at parsed
        · split at parsed
          · cases parsed
          rename_i deep
          have limit : depthLimit - 1 = depthLimit - 1 - 1 + 1 := by omega
          rw [limit]
          split at parsed
          · cases parsed
          split at parsed
          · cases parsed
            exact buildable_array fun item inside =>
              absurd inside List.not_mem_nil
          · simp only [Option.bind_eq_bind, Option.bind_eq_some_iff,
              Option.some.injEq, Prod.mk.injEq] at parsed
            rcases parsed with ⟨⟨items, after⟩, found, rfl, _⟩
            exact buildable_array (itemsStep _ _ _ _ found)
        split at parsed
        · split at parsed
          · cases parsed
          rename_i deep
          have limit : depthLimit - 1 = depthLimit - 1 - 1 + 1 := by omega
          rw [limit]
          split at parsed
          · cases parsed
          split at parsed
          · cases parsed
            have none : ∀ member ∈ (∅ : JsonMap).entries,
                Buildable (depthLimit - 1 - 1) member.2 :=
              fun member inside => absurd inside List.not_mem_nil
            exact buildable_object none
          · simp only [Option.bind_eq_bind, Option.bind_eq_some_iff,
              Option.some.injEq, Prod.mk.injEq] at parsed
            rcases parsed with ⟨⟨members, after⟩, found, rfl, _⟩
            apply buildable_object
            exact membersStep _ ∅ _ _ _
              (fun member inside => absurd inside List.not_mem_nil) found
        iterate 3
          split at parsed
          · rw [parseWord_value parsed]
            exact ⟨trivial, Nat.zero_le _⟩
        exact parseNumber_buildable _ parsed
      · intro depthLimit text items rest parsed
        rw [parseItems] at parsed
        simp only [Option.bind_eq_bind, Option.bind_eq_some_iff] at parsed
        rcases parsed with ⟨⟨first, after⟩, found, parsed⟩
        have built := valueStep _ _ _ _ found
        split at parsed
        · cases parsed
        split at parsed
        · cases parsed
          intro item inside
          rw [List.mem_singleton.1 inside]
          exact built
        split at parsed
        · simp only [Option.bind_eq_some_iff, Option.some.injEq,
            Prod.mk.injEq] at parsed
          rcases parsed with ⟨⟨others, after⟩, more, rfl, _⟩
          intro item inside
          rcases List.mem_cons.1 inside with rfl | inside
          · exact built
          · exact itemsStep _ _ _ _ more item inside
        · cases parsed
      · intro depthLimit start text members rest all parsed
        rw [parseMembers] at parsed
        simp only [Option.bind_eq_bind, Option.bind_eq_some_iff] at parsed
        rcases parsed with ⟨⟨key, after⟩, _, parsed⟩
        split at parsed
        · cases parsed
        split at parsed
        · simp only [Option.bind_eq_some_iff] at parsed
          rcases parsed with ⟨⟨value, after⟩, found, parsed⟩
          have inserted :
              ∀ member ∈ (start.insert key value).entries,
                Buildable (depthLimit - 1) member.2 :=
            buildable_insert all (valueStep _ _ _ _ found)
          split at parsed
          · cases parsed
          split at parsed
          · cases parsed
            exact inserted
          split at parsed
          · exact membersStep _ _ _ _ _ inserted parsed
          · cases parsed
        · cases parsed

/-- A parsed value has sorted objects and is nested at most 127 deep. -/
theorem buildable_of_parse {text : Text}
    (parsed : parse text = some value) : Buildable 127 value := by
  simp only [parse, Option.bind_eq_bind, Option.bind_eq_some_iff] at parsed
  rcases parsed with ⟨⟨found, rest⟩, parsed, ended⟩
  split at ended
  · cases ended
    exact (parse_buildable _).1 _ _ _ _ parsed
  · cases ended

/-- Whatever the parser can build, it reads back from its text. -/
theorem Buildable.parse_render (built : Buildable 127 value) :
    parse value.render = some value.reread :=
  Json.parse_render built.1 (Nat.lt_succ_of_le built.2)

/-! ## Reading a value again -/

@[simp]
theorem asStr_reread (value : Json) : value.reread.asStr = value.asStr := by
  cases value <;> rfl

end Values

end Json

end FireCrow.Library
