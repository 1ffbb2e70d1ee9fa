import Mathlib

/-!
# Unicode text

A string of the modelled language is its list of Unicode scalar values.  The
lexicographic order of scalar values is the order of the UTF-8 bytes, so the
order of `Text` is the order in which strings compare.

Every function below is the standard string function of the same name,
restricted to what a text can show: no byte offset leaves a function, and a
cut at a byte limit backs off to a character boundary.
-/

namespace FireCrow.Library

/-- A string as the list of its scalar values. -/
abbrev Text := List Char

instance : Coe String Text := ⟨String.toList⟩

instance : LawfulBEq Text := inferInstance

namespace Text

/-- A property of every character of a text is decided along the text, not
over all characters. -/
instance (text : Text) (property : Char → Prop) [DecidablePred property] :
    Decidable (∀ character ∈ text, property character) :=
  List.decidableBAll property text

/-- The `White_Space` property of Unicode. -/
def isWhitespace (character : Char) : Bool :=
  let code := character.val.toNat
  (9 ≤ code && code ≤ 13) || code == 0x20 || code == 0x85 ||
    code == 0xA0 || code == 0x1680 || (0x2000 ≤ code && code ≤ 0x200A) ||
    code == 0x2028 || code == 0x2029 || code == 0x202F ||
    code == 0x205F || code == 0x3000

/-- The general category `Cc`. -/
def isControl (character : Char) : Bool :=
  let code := character.val.toNat
  code < 0x20 || (0x7F ≤ code && code ≤ 0x9F)

def isAsciiDigit (character : Char) : Bool := '0' ≤ character && character ≤ '9'

def isAsciiUppercase (character : Char) : Bool :=
  'A' ≤ character && character ≤ 'Z'

def isAsciiLowercase (character : Char) : Bool :=
  'a' ≤ character && character ≤ 'z'

def isAsciiHexdigit (character : Char) : Bool :=
  isAsciiDigit character || ('A' ≤ character && character ≤ 'F') ||
    ('a' ≤ character && character ≤ 'f')

/-- Drop the whitespace at both ends. -/
def trim (text : Text) : Text :=
  (text.dropWhile isWhitespace).rdropWhile isWhitespace

/-- A text of whitespace only, which `trim` makes empty. -/
def isBlank (text : Text) : Bool := text.all isWhitespace

/-- Whether `needle` occurs as a contiguous part of `text`. -/
def contains (text needle : Text) : Bool := decide (needle <:+: text)

def startsWith (text opening : Text) : Bool := opening.isPrefixOf text

def endsWith (text ending : Text) : Bool := ending.isSuffixOf text

def stripPrefix (text opening : Text) : Option Text :=
  if opening.isPrefixOf text then some (text.drop opening.length) else none

/-- The parts before and behind the first marker. -/
def splitOnce (marker : Char) (text : Text) : Option (Text × Text) :=
  if marker ∈ text then
    some (text.takeWhile (· ≠ marker), (text.dropWhile (· ≠ marker)).tail)
  else none

/-- The parts before and behind the last marker. -/
def rsplitOnce (marker : Char) (text : Text) : Option (Text × Text) :=
  (splitOnce marker text.reverse).map fun parts =>
    (parts.2.reverse, parts.1.reverse)

/-- The length in bytes of the UTF-8 encoding. -/
def byteLen (text : Text) : Nat := (text.map Char.utf8Size).sum

/-- The longest initial part of at most `limit` bytes. -/
def takeBytes : Nat → Text → Text
  | _, [] => []
  | limit, character :: rest =>
      if character.utf8Size ≤ limit then
        character :: takeBytes (limit - character.utf8Size) rest
      else
        []

/-- The decimal text of a natural number. -/
def ofNat (number : Nat) : Text := Nat.toDigits 10 number

/-- The decimal text of an integer. -/
def ofInt : Int → Text
  | .ofNat number => ofNat number
  | .negSucc number => '-' :: ofNat (number + 1)

/-- Join the parts with a separator between each two. -/
def join (separator : Text) (parts : List Text) : Text :=
  separator.intercalate parts

/-! ## Splitting -/

theorem stripPrefix_eq_some {text opening rest : Text} :
    stripPrefix text opening = some rest ↔ text = opening ++ rest := by
  unfold stripPrefix
  split
  · rename_i starts
    obtain ⟨back, rfl⟩ := List.isPrefixOf_iff_prefix.1 starts
    rw [List.drop_left, Option.some.injEq, List.append_cancel_left_eq]
  · rename_i differs
    refine ⟨nofun, ?_⟩
    rintro rfl
    exact absurd (List.isPrefixOf_iff_prefix.2 (List.prefix_append _ _)) differs

theorem splitOnce_eq_none {marker : Char} {text : Text} :
    splitOnce marker text = none ↔ marker ∉ text := by
  unfold splitOnce
  split <;> simp [*]

/-- What a marker splits a text into, when the first part has none. -/
theorem splitOnce_append {marker : Char} {front : Text} (back : Text)
    (absent : marker ∉ front) :
    splitOnce marker (front ++ marker :: back) = some (front, back) := by
  have others : ∀ character ∈ front, decide (character ≠ marker) = true :=
    fun character member => decide_eq_true fun same => absent (same ▸ member)
  rw [splitOnce, if_pos (by simp), List.takeWhile_append_of_pos others,
    List.dropWhile_append_of_pos others]
  simp

theorem splitOnce_eq_some {marker : Char} {text front back : Text} :
    splitOnce marker text = some (front, back) ↔
      text = front ++ marker :: back ∧ marker ∉ front := by
  constructor
  · intro split
    have present : marker ∈ text := by
      by_contra absent
      rw [splitOnce_eq_none.2 absent] at split
      cases split
    obtain ⟨before, after, rfl, absent⟩ := List.eq_append_cons_of_mem present
    rw [splitOnce_append after absent] at split
    cases split
    exact ⟨rfl, absent⟩
  · rintro ⟨rfl, absent⟩
    exact splitOnce_append back absent

section SplitOn

variable {α : Type} [BEq α] [LawfulBEq α] {marker value : α}
  {items part : List α}

/-- The parts between markers are parts of the whole. -/
theorem mem_of_mem_splitOn (member : part ∈ items.splitOn marker)
    (inside : value ∈ part) : value ∈ items := by
  have whole := @List.intercalate_splitOn α items _ _ marker
  rw [← whole]
  generalize items.splitOn marker = parts at member ⊢
  induction parts with
  | nil => cases member
  | cons first parts ih =>
      cases parts with
      | nil => simpa [List.mem_singleton.1 member] using inside
      | cons second parts =>
          rw [List.intercalate_cons_cons, List.mem_append, List.mem_append]
          rcases List.mem_cons.1 member with rfl | later
          · exact Or.inl (Or.inl inside)
          · exact Or.inr (ih later)

/-- Apart from the markers, the whole is in the parts. -/
theorem exists_mem_splitOn (inside : value ∈ items)
    (different : value ≠ marker) :
    ∃ part ∈ items.splitOn marker, value ∈ part := by
  have whole := @List.intercalate_splitOn α items _ _ marker
  rw [← whole] at inside
  generalize items.splitOn marker = parts at inside ⊢
  induction parts with
  | nil => cases inside
  | cons first parts ih =>
      cases parts with
      | nil => exact ⟨first, List.mem_cons_self, by simpa using inside⟩
      | cons second parts =>
          rw [List.intercalate_cons_cons, List.append_assoc, List.mem_append,
            List.singleton_append, List.mem_cons] at inside
          rcases inside with here | same | later
          · exact ⟨first, List.mem_cons_self, here⟩
          · exact absurd same different
          · obtain ⟨part, member, there⟩ := ih later
            exact ⟨part, List.mem_cons_of_mem _ member, there⟩

end SplitOn

/-! ## Whitespace -/

variable (text : Text)

theorem dropWhile_isWhitespace_eq_nil :
    text.dropWhile isWhitespace = [] ↔ text.isBlank = true := by
  simp [isBlank, List.dropWhile_eq_nil_iff]

theorem trim_eq_nil : text.trim = [] ↔ text.isBlank = true := by
  rw [trim, List.rdropWhile_eq_nil_iff]
  rw [← dropWhile_isWhitespace_eq_nil text]
  constructor
  · intro blank
    by_contra present
    have first := List.head_dropWhile_not isWhitespace present
    rw [blank _ (List.head_mem present)] at first
    exact Bool.noConfusion first
  · intro empty
    simp [empty]

/-- A text without whitespace has nothing to trim. -/
theorem trim_eq_self {text : Text}
    (word : ∀ character ∈ text, isWhitespace character = false) :
    text.trim = text := by
  have first : text.dropWhile isWhitespace = text := by
    rw [List.dropWhile_eq_self_iff]
    intro nonempty
    rw [word _ (List.getElem_mem nonempty)]
    exact Bool.false_ne_true
  rw [trim, first, List.rdropWhile_eq_self_iff]
  intro nonempty
  rw [word _ (List.getLast_mem nonempty)]
  exact Bool.false_ne_true

@[simp]
theorem isEmpty_trim : text.trim.isEmpty = text.isBlank := by
  rw [Bool.eq_iff_iff, List.isEmpty_iff, trim_eq_nil]

@[simp]
theorem isBlank_nil : isBlank [] = true := rfl

@[simp]
theorem isBlank_cons (character : Char) (text : Text) :
    isBlank (character :: text) =
      (isWhitespace character && text.isBlank) := rfl

@[simp]
theorem isBlank_append (left right : Text) :
    isBlank (left ++ right) = (left.isBlank && right.isBlank) := by
  simp [isBlank]

/-! ## Byte lengths -/

@[simp]
theorem byteLen_nil : byteLen [] = 0 := rfl

@[simp]
theorem byteLen_cons (character : Char) (text : Text) :
    byteLen (character :: text) = character.utf8Size + text.byteLen := by
  simp [byteLen]

@[simp]
theorem byteLen_append (left right : Text) :
    byteLen (left ++ right) = left.byteLen + right.byteLen := by
  simp [byteLen]

theorem length_le_byteLen : text.length ≤ text.byteLen := by
  induction text with
  | nil => simp
  | cons character rest ih =>
      have positive := character.utf8Size_pos
      simp only [List.length_cons, byteLen_cons]
      omega

theorem byteLen_takeBytes (limit : Nat) (text : Text) :
    (takeBytes limit text).byteLen ≤ limit := by
  induction text generalizing limit with
  | nil => simp [takeBytes]
  | cons character rest ih =>
      rw [takeBytes]
      split
      · have tail := ih (limit - character.utf8Size)
        rw [byteLen_cons]
        omega
      · simp

/-! ## Occurrences -/

theorem contains_iff (text needle : Text) :
    text.contains needle = true ↔ needle <:+: text := by
  simp [contains]

/-- Dropping at the front keeps what starts with a kept character. -/
theorem infix_dropWhile {accepts : Char → Bool} {needle text : Text}
    (kept : ∀ character ∈ needle, accepts character = false)
    (inside : needle <:+: text) : needle <:+: text.dropWhile accepts := by
  rcases inside with ⟨before, after, rfl⟩
  cases needle with
  | nil => exact List.nil_infix
  | cons head rest =>
      have stays : (head :: rest ++ after).dropWhile accepts =
          head :: rest ++ after :=
        List.dropWhile_cons_of_neg
          (by rw [kept head List.mem_cons_self]; exact Bool.false_ne_true)
      rw [List.append_assoc, List.dropWhile_append, stays]
      split
      · exact (List.prefix_append _ _).isInfix
      · exact ⟨before.dropWhile accepts, after, by rw [List.append_assoc]⟩

/-- Trimming keeps every word. -/
theorem infix_trim {needle text : Text}
    (word : ∀ character ∈ needle, isWhitespace character = false)
    (inside : needle <:+: text) : needle <:+: text.trim := by
  rw [trim, List.rdropWhile, ← List.reverse_infix, List.reverse_reverse]
  apply infix_dropWhile
  · intro character member
    exact word character (List.mem_reverse.1 member)
  · rw [List.reverse_infix]
    exact infix_dropWhile word inside

theorem trim_infix : text.trim <:+: text :=
  (List.rdropWhile_prefix isWhitespace _).isInfix.trans
    (List.dropWhile_suffix isWhitespace).isInfix

end Text

end FireCrow.Library
