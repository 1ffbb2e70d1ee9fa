import FireCrow.Library.Text

/-!
# Case mappings and byte offsets

The tables of Unicode that case conversion reads are a parameter, with what
they say of ASCII.  Conversions and searches work on texts; an offset counts
the bytes of the UTF-8 encoding, and a slice exists only between characters.
-/

namespace FireCrow.Library

namespace Text

def isAscii (character : Char) : Bool := character.val.toNat < 128

/-- Letters of ASCII in lower case, everything else as it is. -/
def toAsciiLowercase (text : Text) : Text := text.map Char.toLower

def eqIgnoreAsciiCase (left right : Text) : Bool :=
  left.toAsciiLowercase = right.toAsciiLowercase

def isAsciiAlphanumeric (character : Char) : Bool :=
  isAsciiDigit character || isAsciiUppercase character ||
    isAsciiLowercase character

variable {character : Char}

theorem isAscii_of_toLower (lower : isAscii character.toLower = true) :
    isAscii character = true := by
  unfold Char.toLower at lower
  split at lower
  · rename_i upper
    have bound := UInt32.le_iff_toNat_le.1 upper.2
    have letter : 'Z'.val.toNat = 90 := rfl
    simp only [isAscii, decide_eq_true_eq]
    omega
  · exact lower

theorem utf8Size_of_ascii
    (ascii : isAscii character = true) : character.utf8Size = 1 := by
  simp only [isAscii, decide_eq_true_eq] at ascii
  have bound : character.val ≤ 127 := by
    rw [UInt32.le_iff_toNat_le]
    exact Nat.le_of_lt_succ ascii
  simp [Char.utf8Size, bound]

theorem isAscii_of_utf8Size
    (single : character.utf8Size = 1) : isAscii character = true := by
  rw [isAscii, decide_eq_true_eq]
  by_contra large
  have bound : ¬ character.val ≤ 0x7F := by
    rw [UInt32.le_iff_toNat_le]
    exact fun small => large (Nat.lt_succ_of_le small)
  unfold Char.utf8Size at single
  dsimp only at single
  split at single
  · rename_i small
    exact bound small
  · split at single
    · exact absurd single (by decide)
    · split at single <;> exact absurd single (by decide)

/-! ## Byte offsets -/

/-- The byte offset of the first occurrence. -/
def find (needle : Text) : Text → Option Nat
  | [] => if needle = [] then some 0 else none
  | character :: rest =>
      if needle.isPrefixOf (character :: rest) then some 0
      else (find needle rest).map (· + character.utf8Size)

/-- The part from a byte offset, which must not be inside a character. -/
def fromByte : Nat → Text → Option Text
  | 0, text => some text
  | _ + 1, [] => none
  | offset, character :: rest =>
      if character.utf8Size ≤ offset then
        fromByte (offset - character.utf8Size) rest
      else none

/-- The part up to a byte offset, which must not be inside a character. -/
def toByte : Nat → Text → Option Text
  | 0, _ => some []
  | _ + 1, [] => none
  | offset, character :: rest =>
      if character.utf8Size ≤ offset then
        (toByte (offset - character.utf8Size) rest).map (character :: ·)
      else none

/-- The slice between two byte offsets. -/
def slice (start stop : Nat) (text : Text) : Option Text :=
  if start ≤ stop then (fromByte start text).bind (toByte (stop - start))
  else none

theorem fromByte_append (before after : Text) :
    fromByte before.byteLen (before ++ after) = some after := by
  induction before with
  | nil => cases after <;> rfl
  | cons character before ih =>
      have positive := character.utf8Size_pos
      obtain ⟨offset, same⟩ : ∃ offset,
          byteLen (character :: before) = offset + 1 :=
        ⟨byteLen (character :: before) - 1, by rw [byteLen_cons]; omega⟩
      rw [same]
      rw [byteLen_cons] at same
      have rest : offset + 1 - character.utf8Size = byteLen before := by omega
      rw [List.cons_append, fromByte, if_pos (by omega), rest, ih]
      exact nofun

theorem find_of_prefix {needle text : Text} (starts : needle <+: text) :
    find needle text = some 0 := by
  cases text with
  | nil => rw [find, if_pos (List.prefix_nil.1 starts)]
  | cons character rest =>
      rw [find, if_pos (List.isPrefixOf_iff_prefix.2 starts)]

/-- The first occurrence is where nothing earlier starts one. -/
theorem find_append {needle after : Text} (starts : needle <+: after) :
    ∀ before : Text,
      (∀ suffix, suffix <:+ before → suffix ≠ [] →
        ¬ needle <+: suffix ++ after) →
      find needle (before ++ after) = some before.byteLen
  | [], _ => find_of_prefix starts
  | character :: before, first => by
      have here : needle.isPrefixOf (character :: before ++ after) = false := by
        rw [Bool.eq_false_iff, ne_eq, List.isPrefixOf_iff_prefix]
        exact first _ List.suffix_rfl (List.cons_ne_nil _ _)
      have later := find_append starts before fun suffix inside =>
        first suffix (inside.trans (List.suffix_cons _ _))
      rw [List.cons_append] at here ⊢
      rw [find, here, if_neg Bool.false_ne_true, later, Option.map_some,
        byteLen_cons, Nat.add_comm]

end Text

/-! ## Tables -/

/-- The character tables of Unicode. -/
class UnicodeTables where
  lowercase : Char → Text
  uppercase : Char → Text
  isAlphanumeric : Char → Bool
  isCased : Char → Bool
  isCaseIgnorable : Char → Bool
  lowercase_ascii : ∀ character, Text.isAscii character = true →
    lowercase character = [character.toLower]
  uppercase_ascii : ∀ character, Text.isAscii character = true →
    uppercase character = [character.toUpper]
  isAlphanumeric_ascii : ∀ character, Text.isAscii character = true →
    isAlphanumeric character = Text.isAsciiAlphanumeric character
  /-- Beyond ASCII, only the dotted capital I and the Kelvin sign have an ASCII
  character in their lower case. -/
  ascii_of_mem_lowercase : ∀ character lower, lower ∈ lowercase character →
    Text.isAscii lower = true → Text.isAscii character = true ∨
      (character = '\u0130' ∧ lowercase character = ['i', '\u0307']) ∨
      character = '\u212A' ∧ lowercase character = ['k']

/-- The tables of ASCII alone. -/
@[reducible]
def UnicodeTables.ascii : UnicodeTables where
  lowercase character := [character.toLower]
  uppercase character := [character.toUpper]
  isAlphanumeric := Text.isAsciiAlphanumeric
  isCased character :=
    Text.isAsciiUppercase character || Text.isAsciiLowercase character
  isCaseIgnorable character := character ∈ ['\'', '.', ':', '^', '\x60']
  lowercase_ascii _ _ := rfl
  uppercase_ascii _ _ := rfl
  isAlphanumeric_ascii _ _ := rfl
  ascii_of_mem_lowercase := by
    intro character lower member ascii
    rw [List.mem_singleton.1 member] at ascii
    exact Or.inl (Text.isAscii_of_toLower ascii)

section Conversions

variable [tables : UnicodeTables]

namespace Text

/-- Whether a cased character comes first, after those that case ignores. -/
def caseIgnorableThenCased (text : Text) : Bool :=
  (text.dropWhile tables.isCaseIgnorable).head?.any tables.isCased

/-- The lower case of a capital sigma: its final form ends a word. -/
def lowerSigma (before after : Text) : Char :=
  if caseIgnorableThenCased before.reverse && !caseIgnorableThenCased after
  then '\u03C2' else '\u03C3'

/-- The lower case of what follows a part of the text. -/
def toLowercaseAfter (before : Text) : Text → Text
  | [] => []
  | character :: rest =>
      (if character = '\u03A3' then [lowerSigma before rest]
        else tables.lowercase character) ++
      toLowercaseAfter (before ++ [character]) rest

def toLowercase (text : Text) : Text := toLowercaseAfter [] text

def toUppercase (text : Text) : Text := text.flatMap tables.uppercase

end Text

end Conversions

end FireCrow.Library
