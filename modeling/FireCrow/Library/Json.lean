import FireCrow.Library.Text
import FireCrow.Library.SortedMap

/-!
# JSON values, their text and their parser

Values are those of a parser that keeps object members in a sorted map, reads
integer literals into 64 bits and everything else into a binary float, and
refuses more than 127 nested containers.

Floating-point conversion is not computed here.  `FloatFormat` is the
interface of the two conversions: a literal that no 64-bit integer holds is
read to a float or is out of range, and a float is written as a literal with a
fraction or an exponent that reading accepts again.
-/

namespace FireCrow.Library

/-! ## Number literals -/

/-- The parts of a number literal. -/
structure NumberText where
  negative : Bool
  whole : Text
  fraction : Option Text
  exponent : Option (Text × Text)

namespace NumberText

/-- A literal without fraction and exponent. -/
def isInteger (number : NumberText) : Bool :=
  number.fraction.isNone && number.exponent.isNone

/-- The grammar of number literals. -/
structure WellFormed (number : NumberText) : Prop where
  whole_ne_nil : number.whole ≠ []
  whole_digits : number.whole.all Text.isAsciiDigit = true
  whole_leading : number.whole.head? = some '0' → number.whole = ['0']
  fraction_digits : ∀ digits, number.fraction = some digits →
    digits ≠ [] ∧ digits.all Text.isAsciiDigit = true
  exponent_digits : ∀ mark digits, number.exponent = some (mark, digits) →
    mark ∈ ([['e'], ['E'], ['e', '+'], ['e', '-'], ['E', '+'], ['E', '-']] :
      List Text) ∧ digits ≠ [] ∧ digits.all Text.isAsciiDigit = true

def render (number : NumberText) : Text :=
  (if number.negative then ['-'] else []) ++ number.whole ++
    (match number.fraction with
      | none => []
      | some digits => '.' :: digits) ++
    (match number.exponent with
      | none => []
      | some (mark, digits) => mark ++ digits)

/-- Split off the exponent after the digits of a literal. -/
def scanExponent (text : Text) :
    Option (Option (Text × Text) × Text) :=
  match text with
  | [] => some (none, [])
  | letter :: rest =>
      if letter = 'e' ∨ letter = 'E' then
        let (mark, after) :=
          match rest with
          | [] => ([letter], [])
          | sign :: tail =>
              if sign = '+' ∨ sign = '-' then ([letter, sign], tail)
              else ([letter], sign :: tail)
        let digits := after.takeWhile Text.isAsciiDigit
        if digits = [] then none
        else some (some (mark, digits), after.dropWhile Text.isAsciiDigit)
      else some (none, letter :: rest)

/-- Split off the fraction after the whole part of a literal. -/
def scanFraction (text : Text) : Option (Option Text × Text) :=
  match text with
  | [] => some (none, [])
  | point :: rest =>
      if point = '.' then
        let digits := rest.takeWhile Text.isAsciiDigit
        if digits = [] then none
        else some (some digits, rest.dropWhile Text.isAsciiDigit)
      else some (none, point :: rest)

/-- Split off the sign of a literal. -/
def scanSign : Text → Bool × Text
  | [] => (false, [])
  | sign :: rest =>
      if sign = '-' then (true, rest) else (false, sign :: rest)

/-- Split a number literal off a text. -/
def scan (text : Text) : Option (NumberText × Text) :=
  let (negative, unsigned) := scanSign text
  let whole := unsigned.takeWhile Text.isAsciiDigit
  if whole = [] ∨ (whole.head? = some '0' ∧ whole ≠ ['0']) then none
  else do
    let (fraction, rest) ←
      scanFraction (unsigned.dropWhile Text.isAsciiDigit)
    let (exponent, rest) ← scanExponent rest
    some (⟨negative, whole, fraction, exponent⟩, rest)

end NumberText

/-- Conversion between number literals and a binary float. -/
class FloatFormat where
  Value : Type
  read : NumberText → Option Value
  write : Value → NumberText
  write_wellFormed : ∀ value, (write value).WellFormed
  write_isFloat : ∀ value, (write value).isInteger = false
  read_write : ∀ value, (read (write value)).isSome = true

/-- The format that refuses every float. -/
@[reducible]
def FloatFormat.integersOnly : FloatFormat where
  Value := Empty
  read _ := none
  write value := value.elim
  write_wellFormed value := value.elim
  write_isFloat value := value.elim
  read_write value := value.elim

/-- An integer that a signed or an unsigned 64-bit word holds. -/
structure JsonInt where
  value : Int
  inRange : -2 ^ 63 ≤ value ∧ value < 2 ^ 64

namespace JsonInt

@[ext]
theorem ext {left right : JsonInt} (equal : left.value = right.value) :
    left = right := by
  cases left
  cases right
  simp_all

/-- An unsigned 64-bit word. -/
def ofUnsigned (number : Nat) : JsonInt := ⟨(number % 2 ^ 64 : Nat), by omega⟩

/-- A signed 64-bit word. -/
def ofSigned (number : Int64) : JsonInt :=
  ⟨number.toInt, by
    have low := number.le_toInt
    have high := number.toInt_lt
    omega⟩

/-- A signed 32-bit word. -/
def ofSigned32 (number : Int32) : JsonInt :=
  ⟨number.toInt, by
    have low := number.le_toInt
    have high := number.toInt_lt
    omega⟩

theorem ofUnsigned_value {number : Nat} (fits : number < 2 ^ 64) :
    (ofUnsigned number).value = number := by
  simp only [ofUnsigned]
  omega

end JsonInt

/-! ## Values -/

section Values

variable [FloatFormat]

/-- A JSON value. -/
inductive Json where
  | null
  | bool (value : Bool)
  | int (value : JsonInt)
  | float (value : FloatFormat.Value)
  | string (text : Text)
  | array (items : List Json)
  | object (members : List (Text × Json))

/-- The sorted members of an object. -/
abbrev JsonMap := SortedMap Text Json

namespace Json

/-- The member of an object. -/
def get? (value : Json) (key : Text) : Option Json :=
  match value with
  | .object members => SortedMap.lookupEntries key members
  | _ => none

def asStr : Json → Option Text
  | .string text => some text
  | _ => none

def asArray : Json → Option (List Json)
  | .array items => some items
  | _ => none

/-- An integer within a signed 64-bit word. -/
def asI64 : Json → Option Int64
  | .int number =>
      if number.value < 2 ^ 63 then some (Int64.ofInt number.value) else none
  | _ => none

/-- A natural number within an unsigned 64-bit word. -/
def asU64 : Json → Option Nat
  | .int number =>
      if 0 ≤ number.value then some number.value.toNat else none
  | _ => none

/-! ## Rendering -/

def hexDigit (number : Nat) : Char :=
  Char.ofNat (if number < 10 then 48 + number else 87 + number)

/-- One character inside a string literal. -/
def escapeChar (character : Char) : Text :=
  if character = '"' then ['\\', '"']
  else if character = '\\' then ['\\', '\\']
  else if character = '\n' then ['\\', 'n']
  else if character = '\r' then ['\\', 'r']
  else if character = '\t' then ['\\', 't']
  else if character = '\x08' then ['\\', 'b']
  else if character = '\x0c' then ['\\', 'f']
  else if character.toNat < 0x20 then
    ['\\', 'u', '0', '0', hexDigit (character.toNat / 16),
      hexDigit (character.toNat % 16)]
  else [character]

def renderString (text : Text) : Text := '"' :: text.flatMap escapeChar ++ ['"']

mutual

/-- The compact text of a value. -/
def render : Json → Text
  | .null => "null"
  | .bool true => "true"
  | .bool false => "false"
  | .int number => Text.ofInt number.value
  | .float value => (FloatFormat.write value).render
  | .string text => renderString text
  | .array [] => ['[', ']']
  | .array (item :: items) =>
      '[' :: render item ++ (renderItems items ++ [']'])
  | .object [] => ['{', '}']
  | .object ((key, value) :: members) =>
      '{' :: renderString key ++ ':' :: render value ++
        (renderMembers members ++ ['}'])

/-- The items after the first. -/
def renderItems : List Json → Text
  | [] => []
  | item :: items => ',' :: render item ++ renderItems items

/-- The members after the first. -/
def renderMembers : List (Text × Json) → Text
  | [] => []
  | (key, value) :: members =>
      ',' :: renderString key ++ ':' :: render value ++ renderMembers members

end

/-! ## Parsing -/

def isSpace (character : Char) : Bool :=
  character == ' ' || character == '\n' || character == '\t' ||
    character == '\r'

def skipSpace (text : Text) : Text := text.dropWhile isSpace

def hexValue (character : Char) : Option Nat :=
  if Text.isAsciiDigit character then some (character.toNat - 48)
  else if 'a' ≤ character ∧ character ≤ 'f' then
    some (character.toNat - 87)
  else if 'A' ≤ character ∧ character ≤ 'F' then
    some (character.toNat - 55)
  else none

/-- The value of four hexadecimal digits. -/
def hexQuad (a b c d : Char) : Option Nat := do
  let a ← hexValue a
  let b ← hexValue b
  let c ← hexValue c
  let d ← hexValue d
  some (((a * 16 + b) * 16 + c) * 16 + d)

/-- The character a one-letter escape stands for. -/
def simpleEscape (letter : Char) : Option Char :=
  if letter = '"' ∨ letter = '\\' ∨ letter = '/' then some letter
  else if letter = 'b' then some '\x08'
  else if letter = 'f' then some '\x0c'
  else if letter = 'n' then some '\n'
  else if letter = 'r' then some '\r'
  else if letter = 't' then some '\t'
  else none

/-- The character of a pair of surrogates. -/
def surrogatePair (high low : Nat) : Option Char :=
  if 0xDC00 ≤ low ∧ low ≤ 0xDFFF then
    some (Char.ofNat (0x10000 + (high - 0xD800) * 0x400 + (low - 0xDC00)))
  else none

/-- The rest of a string literal after its opening quote. -/
def parseStringBody : Text → Option (Text × Text)
  | [] => none
  | '\\' :: 'u' :: a :: b :: c :: d :: rest =>
      match hexQuad a b c d with
      | none => none
      | some code =>
          if 0xDC00 ≤ code ∧ code ≤ 0xDFFF then none
          else if 0xD800 ≤ code ∧ code ≤ 0xDBFF then
            match rest with
            | '\\' :: 'u' :: e :: f :: g :: h :: rest => do
                let low ← hexQuad e f g h
                let character ← surrogatePair code low
                let (text, rest) ← parseStringBody rest
                some (character :: text, rest)
            | _ => none
          else do
            let (text, rest) ← parseStringBody rest
            some (Char.ofNat code :: text, rest)
  | '\\' :: letter :: rest => do
      let character ← simpleEscape letter
      let (text, rest) ← parseStringBody rest
      some (character :: text, rest)
  | character :: rest =>
      if character = '"' then some ([], rest)
      else if character = '\\' ∨ character.toNat < 0x20 then none
      else do
        let (text, rest) ← parseStringBody rest
        some (character :: text, rest)

/-- A string literal. -/
def parseString (text : Text) : Option (Text × Text) :=
  match text with
  | quote :: rest => if quote = '"' then parseStringBody rest else none
  | [] => none

/-- The value of a number literal. -/
def ofNumberText (number : NumberText) : Option Json :=
  let magnitude := Nat.ofDigitChars 10 number.whole 0
  if number.isInteger && !number.negative && magnitude < 2 ^ 64 then
    some (.int (JsonInt.ofUnsigned magnitude))
  else if negativeFits : number.isInteger ∧ number.negative ∧
      0 < magnitude ∧ magnitude ≤ 2 ^ 63 then
    some (.int ⟨-magnitude, by omega⟩)
  else
    (FloatFormat.read number).map .float

def parseNumber (text : Text) : Option (Json × Text) := do
  let (number, rest) ← NumberText.scan text
  let value ← ofNumberText number
  some (value, rest)

/-- A fixed word of the grammar. -/
def parseWord (word : Text) (value : Json) (text : Text) :
    Option (Json × Text) :=
  if word.isPrefixOf text then some (value, text.drop word.length) else none

mutual

/--
A value at the head of a text.  `depth` is the number of containers that may
still be opened, plus one.
-/
def parseValue : Nat → Nat → Text → Option (Json × Text)
  | 0, _, _ => none
  | fuel + 1, depth, text =>
      match skipSpace text with
      | [] => none
      | head :: rest =>
          if head = '"' then do
            let (content, rest) ← parseStringBody rest
            some (.string content, rest)
          else if head = '[' then
            if depth ≤ 1 then none
            else match skipSpace rest with
              | [] => none
              | next :: after =>
                  if next = ']' then some (.array [], after)
                  else do
                    let (items, rest) ←
                      parseItems fuel (depth - 1) (next :: after)
                    some (.array items, rest)
          else if head = '{' then
            if depth ≤ 1 then none
            else match skipSpace rest with
              | [] => none
              | next :: after =>
                  if next = '}' then some (.object [], after)
                  else do
                    let (members, rest) ←
                      parseMembers fuel (depth - 1) ∅ (next :: after)
                    some (.object members.entries, rest)
          else if head = 'n' then parseWord "null" .null (head :: rest)
          else if head = 't' then parseWord "true" (.bool true) (head :: rest)
          else if head = 'f' then
            parseWord "false" (.bool false) (head :: rest)
          else parseNumber (head :: rest)

/-- The items of an array up to its closing bracket. -/
def parseItems : Nat → Nat → Text → Option (List Json × Text)
  | 0, _, _ => none
  | fuel + 1, depth, text => do
      let (item, rest) ← parseValue fuel depth text
      match skipSpace rest with
      | [] => none
      | next :: after =>
          if next = ']' then some ([item], after)
          else if next = ',' then do
            let (items, rest) ← parseItems fuel depth after
            some (item :: items, rest)
          else none

/-- The members of an object up to its closing brace; a later member replaces
an earlier one with the same key. -/
def parseMembers :
    Nat → Nat → JsonMap → Text → Option (JsonMap × Text)
  | 0, _, _, _ => none
  | fuel + 1, depth, members, text => do
      let (key, rest) ← parseString (skipSpace text)
      match skipSpace rest with
      | [] => none
      | colon :: after =>
          if colon = ':' then do
            let (value, rest) ← parseValue fuel depth after
            match skipSpace rest with
            | [] => none
            | next :: after =>
                if next = '}' then some (members.insert key value, after)
                else if next = ',' then
                  parseMembers fuel depth (members.insert key value) after
                else none
          else none

end

/-- Read a whole document. -/
def parse (text : Text) : Option Json := do
  let (value, rest) ← parseValue (2 * text.length + 2) 128 text
  if skipSpace rest = [] then some value else none

/-! ## Order of members -/

mutual

/-- Rebuild every object as a sorted map. -/
def sort : Json → Json
  | .null => .null
  | .bool value => .bool value
  | .int value => .int value
  | .float value => .float value
  | .string text => .string text
  | .array items => .array (sortItems items)
  | .object members => .object (SortedMap.ofList (sortMembers members)).entries

def sortItems : List Json → List Json
  | [] => []
  | item :: items => sort item :: sortItems items

def sortMembers : List (Text × Json) → List (Text × Json)
  | [] => []
  | (key, value) :: members => (key, sort value) :: sortMembers members

end

mutual

/-- The string scalars of a value, in order. -/
def strings : Json → List Text
  | .string text => [text]
  | .array items => itemStrings items
  | .object members => memberStrings members
  | .null => []
  | .bool _ => []
  | .int _ => []
  | .float _ => []

def itemStrings : List Json → List Text
  | [] => []
  | item :: items => strings item ++ itemStrings items

def memberStrings : List (Text × Json) → List Text
  | [] => []
  | (_, value) :: members => strings value ++ memberStrings members

end

end Json

end Values

end FireCrow.Library
