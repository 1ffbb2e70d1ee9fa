import FireCrow.Agents.Archive

/-!
# Numbers in archive headers

A number stands in a field in octal digits between spaces, up to the first zero
byte, or in base 256 with a sign where the first bit of the field is set.  The
reader also takes a plus sign and other white space, and in base 256 it drops
the first byte and what is above 64 bits.
-/

namespace FireCrow.Agents.Fetch

open FireCrow.Library

/-! ## What a field encodes -/

def isOctal (character : Char) : Bool := '0' ≤ character && character ≤ '7'

/-- Octal digits between spaces. -/
structure OctalText (text digits : Text) : Prop where
  split : ∃ left right, text = left ++ (digits ++ right) ∧
    (∀ character ∈ left, character = ' ') ∧ ∀ character ∈ right, character = ' '
  octal : ∀ character ∈ digits, isOctal character = true

/-- The number that bytes write in base 256. -/
def bigEndian (bytes : Bytes) : Nat :=
  bytes.foldl (fun value byte => value * 256 + byte.toNat) 0

/-- The two's complement of all bits behind the first. -/
def twosComplement (first : UInt8) (rest : Bytes) : Int :=
  let low := first.toNat - 128
  (low * 256 ^ rest.length + bigEndian rest : Nat) -
    if 64 ≤ low then (128 * 256 ^ rest.length : Nat) else 0

/-- The bytes of a field before its first zero byte. -/
def beforeZero (bytes : Bytes) : Bytes :=
  bytes.takeWhile fun byte => byte ≠ 0

/-- What a field of a header encodes. -/
def Encodes : Bytes → Int → Prop
  | [], value => value = 0
  | first :: rest, value =>
      if 128 ≤ first.toNat then value = twosComplement first rest
      else ∃ text digits, OctalText text digits ∧
        beforeZero (first :: rest) = text.toBytes ∧
          value = Text.fromDigits 8 digits

/-- The reader returns what the field encodes, where that fits, and no other
number. -/
def ReadExactly (bytes : Bytes) : Prop :=
  ∀ value : Nat, parseOctal bytes = .ok value ↔
    Encodes bytes value ∧ value < 2 ^ 64

/-! ## Base 256 -/

theorem bigEndian_lt (bytes : Bytes) : bigEndian bytes < 256 ^ bytes.length := by
  induction bytes using List.reverseRecOn with
  | nil => exact Nat.one_pos
  | append_singleton bytes byte ih =>
      have small := byte.toNat_lt
      rw [bigEndian, List.foldl_append, List.length_append, List.length_singleton,
        pow_succ]
      show bigEndian bytes * 256 + byte.toNat < _
      omega

theorem foldl_wrapped (bytes : Bytes) :
    bytes.foldl (fun value byte => value * 256 % 2 ^ 64 + byte.toNat) 0 =
      bigEndian bytes % 2 ^ 64 := by
  induction bytes using List.reverseRecOn with
  | nil => rfl
  | append_singleton bytes byte ih =>
      have small := byte.toNat_lt
      rw [bigEndian, List.foldl_append, List.foldl_append, ih]
      show bigEndian bytes % 2 ^ 64 * 256 % 2 ^ 64 + byte.toNat =
        (bigEndian bytes * 256 + byte.toNat) % 2 ^ 64
      omega

variable {first : UInt8}

/-- The first byte and what is above 64 bits count for nothing. -/
theorem wrapped_eq_twosComplement_iff (rest : Bytes)
    (marked : 128 ≤ first.toNat) :
    ((bigEndian rest % 2 ^ 64 : Nat) : Int) = twosComplement first rest ↔
      first.toNat = 128 ∧ bigEndian rest < 2 ^ 64 := by
  have small := first.toNat_lt
  have below := bigEndian_lt rest
  have wrapped := Nat.mod_le (bigEndian rest) (2 ^ 64)
  rcases Nat.exists_eq_add_of_le marked with ⟨low, spelled⟩
  rw [twosComplement, spelled, Nat.add_sub_cancel_left]
  rcases Nat.eq_zero_or_pos low with rfl | positive
  · rw [if_neg (by decide), Nat.zero_mul, Nat.zero_add]
    omega
  · have shifted : 256 ^ rest.length ≤ low * 256 ^ rest.length :=
      Nat.le_mul_of_pos_left _ positive
    refine iff_of_false ?_ (fun both => by omega)
    split
    · have bound : low * 256 ^ rest.length ≤ 127 * 256 ^ rest.length :=
        Nat.mul_le_mul_right _ (by omega)
      omega
    · omega

/-! ## Octal digits -/

theorem digit_isSome_iff (character : Char) :
    (Text.digit 8 character).isSome = true ↔ isOctal character = true := by
  simp only [Text.digit, isOctal, Text.isAsciiDigit, Text.isAsciiLowercase,
    Text.isAsciiUppercase, Option.isSome_filter, Bool.and_eq_true,
    decide_eq_true_eq, Char.le_def, UInt32.le_iff_toNat_le, Char.toNat]
  grind

theorem isWhitespace_of_octal {character : Char}
    (octal : isOctal character = true) : Text.isWhitespace character = false := by
  simp only [isOctal, Bool.and_eq_true, decide_eq_true_eq, Char.le_def,
    UInt32.le_iff_toNat_le] at octal
  have least : 48 ≤ character.val.toNat := octal.1
  have most : character.val.toNat ≤ 55 := octal.2
  simp only [Text.isWhitespace, Bool.or_eq_false_iff, Bool.and_eq_false_iff,
    decide_eq_false_iff_not, beq_eq_false_iff_ne]
  omega

variable {digits : Text}

theorem plus_not_mem
    (octal : ∀ character ∈ digits, isOctal character = true) : '+' ∉ digits := by
  intro member
  exact absurd (octal _ member) (by decide)

theorem parseUnsigned_of_digits (nonempty : digits ≠ [])
    (octal : ∀ character ∈ digits, isOctal character = true) (value : Nat) :
    Text.parseUnsigned 8 (2 ^ 64) digits = some value ↔
      value = Text.fromDigits 8 digits ∧ value < 2 ^ 64 := by
  have unsigned : digits.stripPrefix "+" = none := by
    rw [Option.eq_none_iff_forall_ne_some]
    intro rest stripped
    rw [Text.stripPrefix_eq_some] at stripped
    exact plus_not_mem octal (by rw [stripped]; exact List.mem_cons_self)
  have listed : (digits.any fun character =>
      (Text.digit 8 character).isNone) = false := by
    rw [List.any_eq_false]
    intro character member
    rw [Option.isNone_iff_eq_none, ← Option.isSome_iff_ne_none.not_left]
    exact fun none => none ((digit_isSome_iff character).2 (octal _ member))
  rw [Text.parseUnsigned, unsigned, Option.getD_none, listed,
    List.isEmpty_eq_false_iff.2 nonempty]
  simp only [Bool.or_self, Bool.false_eq_true, if_false, Option.filter_eq_some_iff,
    Option.some.injEq, decide_eq_true_eq]
  constructor
  · rintro ⟨rfl, small⟩
    exact ⟨rfl, small⟩
  · rintro ⟨rfl, small⟩
    exact ⟨rfl, small⟩

theorem octal_of_parseUnsigned {token : Text} {value : Nat}
    (unsigned : '+' ∉ token)
    (read : Text.parseUnsigned 8 (2 ^ 64) token = some value) :
    token ≠ [] ∧ ∀ character ∈ token, isOctal character = true := by
  have plain : token.stripPrefix "+" = none := by
    rw [Option.eq_none_iff_forall_ne_some]
    intro rest stripped
    rw [Text.stripPrefix_eq_some] at stripped
    exact unsigned (by rw [stripped]; exact List.mem_cons_self)
  rw [Text.parseUnsigned, plain, Option.getD_none] at read
  split at read
  · cases read
  · rename_i accepted
    rw [Bool.or_eq_true, not_or, List.isEmpty_iff, List.any_eq_true] at accepted
    refine ⟨accepted.1, fun character member => ?_⟩
    rw [← digit_isSome_iff, Option.isSome_iff_ne_none]
    intro none
    exact accepted.2 ⟨character, member, by rw [none]; rfl⟩

/-! ## Padding -/

theorem trim_split (text : Text) :
    ∃ left right, text = left ++ (text.trim ++ right) ∧
      (∀ character ∈ left, Text.isWhitespace character = true) ∧
      ∀ character ∈ right, Text.isWhitespace character = true := by
  refine ⟨text.takeWhile Text.isWhitespace,
    ((text.dropWhile Text.isWhitespace).reverse.takeWhile
      Text.isWhitespace).reverse, ?_, ?_, ?_⟩
  · rw [Text.trim, List.rdropWhile, ← List.reverse_append,
      List.takeWhile_append_dropWhile, List.reverse_reverse,
      List.takeWhile_append_dropWhile]
  · exact fun _ member => List.mem_takeWhile_imp member
  · exact fun _ member => List.mem_takeWhile_imp (List.mem_reverse.1 member)

variable {text : Text}

theorem OctalText.trim (spelled : OctalText text digits) :
    text.trim = digits := by
  rcases spelled.split with ⟨left, right, rfl, before, behind⟩
  have white : ∀ {part : Text}, (∀ character ∈ part, character = ' ') →
      ∀ character ∈ part, Text.isWhitespace character = true := by
    intro part spaces character member
    rw [spaces character member]
    rfl
  cases digits with
  | nil =>
      rw [Text.trim_eq_nil, Text.isBlank, List.all_eq_true]
      intro character member
      rw [List.nil_append, List.mem_append] at member
      rcases member with member | member
      · exact white before character member
      · exact white behind character member
  | cons first digits =>
      have dark : ∀ character ∈ first :: digits,
          Text.isWhitespace character = false := fun character member =>
        isWhitespace_of_octal (spelled.octal character member)
      rw [Text.trim, List.dropWhile_append_of_pos (white before),
        List.cons_append, List.dropWhile_cons_of_neg (by
          rw [dark first List.mem_cons_self]
          exact Bool.false_ne_true), ← List.cons_append, List.rdropWhile,
        List.reverse_append, List.dropWhile_append_of_pos (by
          intro character member
          exact white behind character (List.mem_reverse.1 member))]
      have kept : (first :: digits).reverse.dropWhile Text.isWhitespace =
          (first :: digits).reverse := by
        rw [List.dropWhile_eq_self_iff]
        intro nonempty
        rw [dark _ (List.mem_reverse.1 (List.getElem_mem nonempty))]
        exact Bool.false_ne_true
      rw [kept, List.reverse_reverse]

/-! ## The reader -/

/-- The text of a field. -/
def fieldText (bytes : Bytes) : Text := Bytes.fromUtf8Lossy (beforeZero bytes)

/-- The reader finds a number in a text, or nothing but white space. -/
def Readable (text : Text) : Prop :=
  text.trim = [] ∨ ∃ value, Text.parseUnsigned 8 (2 ^ 64) text.trim = some value

/-- In base 256 no bit of the first byte and none above 64 bits is set; a number
in digits has no plus sign and no white space but spaces. -/
def PlainField : Bytes → Prop
  | [] => True
  | first :: rest =>
      if 128 ≤ first.toNat then first.toNat = 128 ∧ bigEndian rest < 2 ^ 64
      else Readable (fieldText (first :: rest)) →
        '+' ∉ fieldText (first :: rest) ∧
          ∀ character ∈ fieldText (first :: rest),
            Text.isWhitespace character = true → character = ' '

variable {rest : Bytes}

section

variable (plain : ¬ 128 ≤ first.toNat)
include plain

theorem parseOctal_text (value : Nat) :
    parseOctal (first :: rest) = .ok value ↔
      ((fieldText (first :: rest)).trim = [] ∧ value = 0) ∨
        ((fieldText (first :: rest)).trim ≠ [] ∧
          Text.parseUnsigned 8 (2 ^ 64) (fieldText (first :: rest)).trim =
            some value) := by
  have same : cstr (first :: rest) = (fieldText (first :: rest)).trim := rfl
  rw [parseOctal, if_neg plain, same]
  generalize (fieldText (first :: rest)).trim = token
  cases token with
  | nil => simp [eq_comm]
  | cons letter token =>
      simp only [List.isEmpty_cons, Bool.false_eq_true, if_false, reduceCtorEq,
        false_and, ne_eq, not_false_eq_true, true_and, false_or]
      cases Text.parseUnsigned 8 (2 ^ 64) (letter :: token) with
      | none | some => simp

theorem encodes_text (value : Int) :
    Encodes (first :: rest) value ↔
      ∃ digits, OctalText (fieldText (first :: rest)) digits ∧
        value = Text.fromDigits 8 digits := by
  rw [Encodes, if_neg plain]
  have ascii : ∀ {text digits : Text}, OctalText text digits →
      ∀ character ∈ text, Text.isAscii character = true := by
    intro text digits spelled character member
    rcases spelled.split with ⟨left, right, rfl, before, behind⟩
    rw [List.mem_append, List.mem_append] at member
    rcases member with member | member | member
    · rw [before character member]
      rfl
    · have octal := spelled.octal character member
      simp only [isOctal, Bool.and_eq_true, decide_eq_true_eq, Char.le_def,
        UInt32.le_iff_toNat_le] at octal
      have most : character.val.toNat ≤ 55 := octal.2
      rw [Text.isAscii, decide_eq_true_eq]
      omega
    · rw [behind character member]
      rfl
  constructor
  · rintro ⟨text, digits, spelled, same, rfl⟩
    rw [← Bytes.fromUtf8Lossy_eq_iff (ascii spelled)] at same
    exact ⟨digits, by rw [fieldText, same]; exact spelled, rfl⟩
  · rintro ⟨digits, spelled, rfl⟩
    exact ⟨_, digits, spelled,
      (Bytes.fromUtf8Lossy_eq_iff (ascii spelled)).1 rfl, rfl⟩

theorem OctalText.read
    (spelled : OctalText (fieldText (first :: rest)) digits) (value : Nat) :
    parseOctal (first :: rest) = .ok value ↔
      value = Text.fromDigits 8 digits ∧ value < 2 ^ 64 := by
  rw [parseOctal_text plain, spelled.trim]
  cases digits with
  | nil =>
      simp only [true_and, ne_eq, not_true_eq_false, false_and, or_false]
      constructor
      · rintro rfl
        exact ⟨rfl, by decide⟩
      · exact fun both => both.1
  | cons letter digits =>
      rw [parseUnsigned_of_digits (List.cons_ne_nil _ _) spelled.octal]
      simp

end

theorem octalText_of_plain (readable : Readable text) (unsigned : '+' ∉ text)
    (spaces : ∀ character ∈ text,
      Text.isWhitespace character = true → character = ' ') :
    OctalText text text.trim := by
  rcases trim_split text with ⟨left, right, split, before, behind⟩
  constructor
  · refine ⟨left, right, split, ?_, ?_⟩
    · intro character member
      refine spaces character ?_ (before character member)
      rw [split]
      exact List.mem_append_left _ member
    · intro character member
      refine spaces character ?_ (behind character member)
      rw [split]
      exact List.mem_append_right _ (List.mem_append_right _ member)
  · rcases readable with empty | ⟨value, read⟩
    · rw [empty]
      exact fun _ absurd => by cases absurd
    · have bare : '+' ∉ text.trim := by
        intro member
        apply unsigned
        rw [split]
        exact List.mem_append_right _ (List.mem_append_left _ member)
      exact (octal_of_parseUnsigned bare read).2

theorem OctalText.plain (spelled : OctalText text digits) :
    '+' ∉ text ∧ ∀ character ∈ text,
      Text.isWhitespace character = true → character = ' ' := by
  rcases spelled.split with ⟨left, right, rfl, before, behind⟩
  constructor
  · intro member
    rw [List.mem_append, List.mem_append] at member
    rcases member with member | member | member
    · exact absurd (before _ member) (by decide)
    · exact plus_not_mem spelled.octal member
    · exact absurd (behind _ member) (by decide)
  · intro character member white
    rw [List.mem_append, List.mem_append] at member
    rcases member with member | member | member
    · exact before character member
    · rw [isWhitespace_of_octal (spelled.octal character member)] at white
      cases white
    · exact behind character member

/-- The reader is exact on the fields that are plain. -/
theorem tar_numbers_exact_iff (bytes : Bytes) :
    ReadExactly bytes ↔ PlainField bytes := by
  cases bytes with
  | nil =>
      refine iff_of_true ?_ trivial
      intro value
      show (Except.ok 0 : Except AppError Nat) = .ok value ↔ (value : Int) = 0 ∧ _
      rw [Except.ok.injEq]
      omega
  | cons first rest =>
      by_cases marked : 128 ≤ first.toNat
      · rw [PlainField, if_pos marked, ← wrapped_eq_twosComplement_iff rest marked]
        have read : parseOctal (first :: rest) =
            .ok (bigEndian rest % 2 ^ 64) := by
          rw [← foldl_wrapped]
          exact if_pos marked
        have wrapped := Nat.mod_lt (bigEndian rest) (by decide : 0 < 2 ^ 64)
        have encodes (value : Nat) : Encodes (first :: rest) value ↔
            (value : Int) = twosComplement first rest := by
          rw [Encodes, if_pos marked]
        constructor
        · intro exact
          exact (encodes _).1 ((exact _).1 read).1
        · intro same value
          rw [read, encodes, Except.ok.injEq, ← same]
          omega
      · rw [PlainField, if_neg marked]
        constructor
        · intro exact readable
          have found : ∃ value, parseOctal (first :: rest) = .ok value := by
            rcases readable with empty | ⟨value, read⟩
            · exact ⟨0, (parseOctal_text marked 0).2 (Or.inl ⟨empty, rfl⟩)⟩
            · by_cases empty : (fieldText (first :: rest)).trim = []
              · exact ⟨0, (parseOctal_text marked 0).2 (Or.inl ⟨empty, rfl⟩)⟩
              · exact ⟨value, (parseOctal_text marked value).2
                  (Or.inr ⟨empty, read⟩)⟩
          rcases found with ⟨value, read⟩
          rcases (encodes_text marked _).1 ((exact value).1 read).1 with
            ⟨digits, spelled, _⟩
          exact spelled.plain
        · intro plain value
          constructor
          · intro read
            have readable : Readable (fieldText (first :: rest)) := by
              rcases (parseOctal_text marked value).1 read with
                ⟨empty, _⟩ | ⟨_, found⟩
              · exact Or.inl empty
              · exact Or.inr ⟨value, found⟩
            have spelled := octalText_of_plain readable (plain readable).1
              (plain readable).2
            rcases (spelled.read marked value).1 read with ⟨same, small⟩
            exact ⟨(encodes_text marked _).2 ⟨_, spelled, by rw [same]⟩, small⟩
          · rintro ⟨encodes, small⟩
            rcases (encodes_text marked _).1 encodes with ⟨digits, spelled, same⟩
            exact (spelled.read marked value).2 ⟨Int.ofNat.inj same, small⟩

/-- A field whose first byte says that the number is negative is read as a
number. -/
theorem negative_size_read : ¬ ∀ bytes, ReadExactly bytes := by
  intro claim
  have plain := (tar_numbers_exact_iff [255, 0, 0, 0, 0, 0, 0, 0, 0, 0, 2, 0]).1
    (claim _)
  exact absurd plain.1 (by decide)

end FireCrow.Agents.Fetch
