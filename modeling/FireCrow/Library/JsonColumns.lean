import FireCrow.Library.JsonRoundTrip
import FireCrow.Library.Table

/-!
# Columns for texts and for JSON

What a table refuses to store: a text with U+0000, a text that its `VARCHAR`
column cuts, and a JSON text with an escaped U+0000 in one of its strings.  The
texts that `render` writes escape it exactly when a string or a key of the
value contains it.
-/

namespace FireCrow.Library

/-! ## Entries of maps that are filled -/

namespace SortedMap

variable {κ Value Item : Type} [LinearOrder κ]

/-- An entry of a map that items are stored in is an old one or an item's. -/
theorem mem_foldl_insert (view : Item → κ × Value) (items : List Item)
    {start : SortedMap κ Value} {entry : κ × Value}
    (inside : entry ∈ (items.foldl
      (fun map item => map.insert (view item).1 (view item).2)
      start).entries) :
    entry ∈ start.entries ∨ ∃ item ∈ items, entry = view item := by
  induction items generalizing start with
  | nil => exact Or.inl inside
  | cons first items ih =>
      rcases ih inside with early | ⟨item, later, same⟩
      · rcases entry with ⟨key, value⟩
        rw [mem_entries_iff, get?_insert] at early
        split at early
        · rename_i named
          cases early
          exact Or.inr ⟨first, List.mem_cons_self, by rw [named]⟩
        · exact Or.inl ((mem_entries_iff _ _ _).2 early)
      · exact Or.inr ⟨item, List.mem_cons_of_mem _ later, same⟩

/-- A counted key is the key of an item. -/
theorem exists_of_mem_countBy {key : Item → κ} {items : List Item}
    {wanted : κ} (inside : wanted ∈ (countBy key items).keys) :
    ∃ item ∈ items, key item = wanted := by
  have onFold : ∀ start : SortedMap κ Nat,
      wanted ∈ (items.foldl (fun counts item => counts.increment (key item))
          start).keys →
        wanted ∈ start.keys ∨ ∃ item ∈ items, key item = wanted := by
    clear inside
    induction items with
    | nil => exact fun start found => Or.inl found
    | cons first items ih =>
        intro start found
        rcases ih _ found with early | ⟨item, later, same⟩
        · rcases mem_keys_upsertEntries.1 early with named | old
          · exact Or.inr ⟨first, List.mem_cons_self, named.symm⟩
          · exact Or.inl old
        · exact Or.inr ⟨item, List.mem_cons_of_mem _ later, same⟩
  rcases onFold ∅ inside with none | found
  · exact absurd none List.not_mem_nil
  · exact found

end SortedMap

namespace Json

/-! ## The escape of U+0000 -/

/-- A JSON text has the escape of U+0000 in one of its strings.  Outside of
strings it has no backslash. -/
def escapesNul : Text → Bool
  | [] => false
  | [_] => false
  | first :: second :: rest =>
      if first = '\\' then
        (second = 'u' && rest.take 4 = ("0000" : Text)) || escapesNul rest
      else escapesNul (second :: rest)

theorem escapesNul_cons {character : Char} (plain : character ≠ '\\')
    (rest : Text) : escapesNul (character :: rest) = escapesNul rest := by
  cases rest with
  | nil => rfl
  | cons second rest => rw [escapesNul, if_neg plain]

theorem escapesNul_escape (letter : Char) (rest : Text) :
    escapesNul ('\\' :: letter :: rest) =
      ((letter = 'u' && rest.take 4 = ("0000" : Text)) ||
        escapesNul rest) := by
  rw [escapesNul, if_pos rfl]

theorem escapesNul_append {text : Text} (plain : '\\' ∉ text) (rest : Text) :
    escapesNul (text ++ rest) = escapesNul rest := by
  induction text with
  | nil => rfl
  | cons character text ih =>
      rw [List.mem_cons, not_or] at plain
      rw [List.cons_append, escapesNul_cons (Ne.symm plain.1), ih plain.2]

theorem hexDigit_plain : ∀ number < 16, hexDigit number ≠ '\\' := by
  decide

/-- A control character is written with its two digits, and only U+0000 with
two zeros. -/
theorem hexDigits_zero_iff : ∀ number < 32,
    (['0', '0', hexDigit (number / 16), hexDigit (number % 16)] =
      ("0000" : Text)) ↔ number = 0 := by
  decide

theorem toNat_eq_zero_iff (character : Char) :
    character.toNat = 0 ↔ character = '\x00' := by
  constructor
  · intro zero
    rw [← Char.ofNat_toNat character, zero]
  · rintro rfl
    rfl

theorem escapesNul_escapeChar (character : Char) (rest : Text) :
    escapesNul (escapeChar character ++ rest) = true ↔
      character = '\x00' ∨ escapesNul rest = true := by
  unfold escapeChar
  -- the characters with a one-letter escape
  iterate 7
    split
    · subst_vars
      rw [List.cons_append, List.singleton_append, escapesNul_escape]
      simp
  split
  · rename_i small
    have high := hexDigit_plain (character.toNat / 16) (by omega)
    have low := hexDigit_plain (character.toNat % 16) (by omega)
    have zeros := hexDigits_zero_iff character.toNat (by omega)
    rw [toNat_eq_zero_iff] at zeros
    simp only [List.cons_append, List.nil_append]
    rw [escapesNul_escape]
    simp only [List.take_succ_cons, List.take_zero, decide_true, Bool.true_and,
      Bool.or_eq_true, decide_eq_true_eq, zeros]
    rw [escapesNul_cons (by decide), escapesNul_cons (by decide),
      escapesNul_cons high, escapesNul_cons low]
  · rename_i notSlash _ _ _ _ _ notSmall
    rw [List.singleton_append, escapesNul_cons notSlash]
    have other : character ≠ '\x00' := by
      rintro rfl
      exact notSmall (by decide)
    simp [other]

theorem escapesNul_renderString (text rest : Text) :
    escapesNul (renderString text ++ rest) = true ↔
      '\x00' ∈ text ∨ escapesNul rest = true := by
  have content :
      escapesNul (text.flatMap escapeChar ++ ('"' :: rest)) = true ↔
        '\x00' ∈ text ∨ escapesNul rest = true := by
    induction text with
    | nil => simp [escapesNul_cons]
    | cons character text ih =>
        rw [List.flatMap_cons, List.append_assoc, escapesNul_escapeChar, ih,
          List.mem_cons, or_assoc, @eq_comm _ '\x00']
  rw [renderString]
  simp only [List.cons_append, List.append_assoc, List.nil_append]
  rw [escapesNul_cons (by decide)]
  exact content

/-! ## Numbers -/

theorem digits_plain {digits : Text}
    (isDigits : digits.all Text.isAsciiDigit = true) : '\\' ∉ digits := by
  intro inside
  have isDigit := List.all_eq_true.1 isDigits _ inside
  exact absurd isDigit (by decide)

theorem number_plain {number : NumberText} (wellFormed : number.WellFormed) :
    '\\' ∉ number.render := by
  have whole := digits_plain wellFormed.whole_digits
  unfold NumberText.render
  simp only [List.mem_append, not_or]
  refine ⟨⟨⟨?_, whole⟩, ?_⟩, ?_⟩
  · split
    · decide
    · decide
  · split
    · decide
    · rename_i digits found
      rw [List.mem_cons, not_or]
      exact ⟨by decide, digits_plain (wellFormed.fraction_digits _ found).2⟩
  · split
    · decide
    · rename_i mark digits found
      have parts := wellFormed.exponent_digits _ _ found
      rw [List.mem_append, not_or]
      refine ⟨?_, digits_plain parts.2.2⟩
      have marks : ∀ mark ∈ ([['e'], ['E'], ['e', '+'], ['e', '-'],
          ['E', '+'], ['E', '-']] : List Text), '\\' ∉ mark := by
        decide
      exact marks mark parts.1

/-! ## The texts of a value -/

section Values

variable [FloatFormat]

mutual

/-- The string scalars and the keys of a value, in order. -/
def texts : Json → List Text
  | .string text => [text]
  | .array items => itemTexts items
  | .object members => memberTexts members
  | .null => []
  | .bool _ => []
  | .int _ => []
  | .float _ => []

def itemTexts : List Json → List Text
  | [] => []
  | item :: items => texts item ++ itemTexts items

def memberTexts : List (Text × Json) → List Text
  | [] => []
  | (key, value) :: members => key :: (texts value ++ memberTexts members)

end

/-- No string and no key of the value contains U+0000. -/
def Clean (value : Json) : Prop := ∀ text ∈ value.texts, '\x00' ∉ text

theorem clean_string (text : Text) : Clean (.string text) ↔ '\x00' ∉ text := by
  simp [Clean, texts]

theorem clean_int (number : JsonInt) : Clean (.int number) := by
  simp [Clean, texts]

variable {text : Text}

theorem mem_itemTexts {items : List Json} :
    text ∈ itemTexts items ↔ ∃ item ∈ items, text ∈ item.texts := by
  induction items with
  | nil => simp [itemTexts]
  | cons item items ih => simp [itemTexts, ih]

variable {members : List (Text × Json)}

theorem mem_memberTexts :
    text ∈ memberTexts members ↔
      ∃ member ∈ members, text = member.1 ∨ text ∈ member.2.texts := by
  induction members with
  | nil => simp [memberTexts]
  | cons member members ih => simp [memberTexts, ih, or_assoc]

theorem clean_array {items : List Json} :
    Clean (.array items) ↔ ∀ item ∈ items, Clean item := by
  constructor
  · intro clean item member text inside
    exact clean text (mem_itemTexts.2 ⟨item, member, inside⟩)
  · intro clean text inside
    rcases mem_itemTexts.1 inside with ⟨item, member, found⟩
    exact clean item member text found

/-- The keys and the values of a map are clean. -/
def CleanMembers (members : List (Text × Json)) : Prop :=
  ∀ member ∈ members, '\x00' ∉ member.1 ∧ Clean member.2

theorem clean_object : Clean (.object members) ↔ CleanMembers members := by
  constructor
  · intro clean member inside
    constructor
    · exact clean _ (mem_memberTexts.2 ⟨member, inside, Or.inl rfl⟩)
    · intro text found
      exact clean text (mem_memberTexts.2 ⟨member, inside, Or.inr found⟩)
  · intro clean text inside
    rcases mem_memberTexts.1 inside with ⟨member, found, rfl | within⟩
    · exact (clean member found).1
    · exact (clean member found).2 text within

variable {value : Json}

theorem clean_of_asStr (clean : Clean value)
    (found : value.asStr = some text) : '\x00' ∉ text := by
  cases value with
  | string content =>
      cases found
      exact (clean_string _).1 clean
  | null | bool | int | float | array | object => cases found

theorem CleanMembers.get? {metadata : JsonMap} {key : Text}
    (clean : CleanMembers metadata.entries)
    (found : metadata.get? key = some value) : Clean value :=
  (clean (key, value) ((SortedMap.mem_entries_iff _ _ _).2 found)).2

theorem mem_of_lookupEntries {key : Text}
    (found : SortedMap.lookupEntries key members = some value) :
    (key, value) ∈ members := by
  induction members with
  | nil => cases found
  | cons member members ih =>
      rcases member with ⟨head, first⟩
      rw [SortedMap.lookupEntries] at found
      split at found
      · rename_i same
        cases found
        subst same
        exact List.mem_cons_self
      · exact List.mem_cons_of_mem _ (ih found)

/-! ## Sorting and rereading -/

mutual

theorem texts_reread : ∀ value : Json, value.reread.texts = value.texts
  | .null => rfl
  | .bool _ => rfl
  | .int _ => rfl
  | .float _ => rfl
  | .string _ => rfl
  | .array items => by
      rw [reread, texts, texts]
      exact itemTexts_reread items
  | .object members => by
      rw [reread, texts, texts]
      exact memberTexts_reread members

theorem itemTexts_reread :
    ∀ items : List Json, itemTexts (rereadItems items) = itemTexts items
  | [] => rfl
  | item :: items => by
      rw [rereadItems, itemTexts, itemTexts, texts_reread item,
        itemTexts_reread items]

theorem memberTexts_reread :
    ∀ members : List (Text × Json),
      memberTexts (rereadMembers members) = memberTexts members
  | [] => rfl
  | (key, value) :: members => by
      rw [rereadMembers, memberTexts, memberTexts, texts_reread value,
        memberTexts_reread members]

end

theorem clean_reread : Clean value.reread ↔ Clean value := by
  rw [Clean, texts_reread, Clean]

theorem mem_ofList {member : Text × Json}
    (inside : member ∈ (SortedMap.ofList members).entries) :
    member ∈ members := by
  rcases SortedMap.mem_foldl_insert id members inside with none | found
  · exact absurd none List.not_mem_nil
  · rcases found with ⟨other, found, rfl⟩
    exact found

mutual

theorem Clean.sort : ∀ {value : Json}, Clean value → Clean value.sort
  | .null, clean => clean
  | .bool _, clean => clean
  | .int _, clean => clean
  | .float _, clean => clean
  | .string _, clean => clean
  | .array items, clean => by
      rw [Json.sort, clean_array]
      exact clean_sortItems (clean_array.1 clean)
  | .object members, clean => by
      rw [Json.sort, clean_object]
      intro member inside
      exact CleanMembers.sort (clean_object.1 clean) member
        (mem_ofList inside)

theorem clean_sortItems : ∀ {items : List Json},
    (∀ item ∈ items, Clean item) → ∀ item ∈ sortItems items, Clean item
  | [], _ => fun item inside => absurd inside List.not_mem_nil
  | first :: items, clean => by
      intro item inside
      rw [sortItems, List.mem_cons] at inside
      rcases inside with rfl | inside
      · exact (clean first List.mem_cons_self).sort
      · exact clean_sortItems
          (fun other within => clean other (List.mem_cons_of_mem _ within))
          item inside

theorem CleanMembers.sort : ∀ {members : List (Text × Json)},
    CleanMembers members → CleanMembers (sortMembers members)
  | [], clean => clean
  | (key, value) :: members, clean => by
      intro member inside
      rw [sortMembers, List.mem_cons] at inside
      rcases inside with rfl | inside
      · have first := clean (key, value) List.mem_cons_self
        exact ⟨first.1, first.2.sort⟩
      · exact CleanMembers.sort
          (fun other within => clean other (List.mem_cons_of_mem _ within))
          member inside

end

/-! ## Rendered values -/

omit [FloatFormat] in
theorem escapesNul_word (word : Text) (plain : '\\' ∉ word) (rest : Text) :
    escapesNul (word ++ rest) = true ↔
      (∃ text ∈ ([] : List Text), '\x00' ∈ text) ∨ escapesNul rest = true := by
  rw [escapesNul_append plain]
  simp

mutual

/-- The text of a value has the escape exactly when the value has the
character. -/
theorem escapesNul_render : ∀ (value : Json) (rest : Text),
    escapesNul (value.render ++ rest) = true ↔
      (∃ text ∈ value.texts, '\x00' ∈ text) ∨ escapesNul rest = true
  | .null, rest => escapesNul_word "null" (by decide) rest
  | .bool true, rest => escapesNul_word "true" (by decide) rest
  | .bool false, rest => escapesNul_word "false" (by decide) rest
  | .int number, rest => by
      rw [render, ← NumberText.ofInt_render]
      exact escapesNul_word _ (number_plain (NumberText.ofInt_wellFormed _)) rest
  | .float value, rest => by
      rw [render]
      exact escapesNul_word _
        (number_plain (FloatFormat.write_wellFormed value)) rest
  | .string text, rest => by
      rw [render, escapesNul_renderString]
      simp [texts]
  | .array [], rest => escapesNul_word ['[', ']'] (by decide) rest
  | .array (item :: items), rest => by
      rw [render]
      simp only [List.cons_append, List.append_assoc, List.nil_append]
      rw [escapesNul_cons (by decide), escapesNul_render item,
        escapesNul_renderItems items, escapesNul_cons (by decide), texts,
        itemTexts]
      simp only [List.mem_append, or_and_right, exists_or, or_assoc]
  | .object [], rest => escapesNul_word ['{', '}'] (by decide) rest
  | .object ((key, value) :: members), rest => by
      rw [render]
      simp only [List.cons_append, List.append_assoc, List.nil_append]
      rw [escapesNul_cons (by decide), escapesNul_renderString,
        escapesNul_cons (by decide), escapesNul_render value,
        escapesNul_renderMembers members, escapesNul_cons (by decide), texts,
        memberTexts]
      simp only [List.mem_cons, List.mem_append, or_and_right, exists_or,
        exists_eq_left, or_assoc]

theorem escapesNul_renderItems : ∀ (items : List Json) (rest : Text),
    escapesNul (renderItems items ++ rest) = true ↔
      (∃ text ∈ itemTexts items, '\x00' ∈ text) ∨ escapesNul rest = true
  | [], rest => escapesNul_word [] (by decide) rest
  | item :: items, rest => by
      rw [renderItems]
      simp only [List.cons_append, List.append_assoc]
      rw [escapesNul_cons (by decide), escapesNul_render item,
        escapesNul_renderItems items, itemTexts]
      simp only [List.mem_append, or_and_right, exists_or, or_assoc]

theorem escapesNul_renderMembers :
    ∀ (members : List (Text × Json)) (rest : Text),
      escapesNul (renderMembers members ++ rest) = true ↔
        (∃ text ∈ memberTexts members, '\x00' ∈ text) ∨
          escapesNul rest = true
  | [], rest => escapesNul_word [] (by decide) rest
  | (key, value) :: members, rest => by
      rw [renderMembers]
      simp only [List.cons_append, List.append_assoc]
      rw [escapesNul_cons (by decide), escapesNul_renderString,
        escapesNul_cons (by decide), escapesNul_render value,
        escapesNul_renderMembers members, memberTexts]
      simp only [List.mem_cons, List.mem_append, or_and_right, exists_or,
        exists_eq_left, or_assoc]

end

theorem escapesNul_render_eq_false_iff (value : Json) :
    escapesNul value.render = false ↔ Clean value := by
  have escapes := escapesNul_render value []
  rw [List.append_nil] at escapes
  rw [← Bool.not_eq_true, escapes]
  simp [Clean, escapesNul]

end Values

end Json

/-! ## Columns -/

namespace Table

/-- The type of a column. -/
inductive Column where
  | varchar (limit : Nat)
  | text
  | jsonb
deriving DecidableEq

/-- A column takes the text.  What is bound to a column `JSONB` is a JSON
text. -/
def Column.stores : Column → Text → Bool
  | .varchar limit, value => (Table.varchar limit value).isSome
  | .text, value => (storedText value).isSome
  | .jsonb, value => !Json.escapesNul value

/-- A text fits a column `VARCHAR` when only spaces are cut off. -/
def Fits (limit : Nat) (text : Text) : Prop :=
  (text.drop limit).all (· == ' ') = true ∧ '\x00' ∉ text

theorem stores_text_iff (text : Text) :
    Column.text.stores text = true ↔ '\x00' ∉ text := by
  rw [Column.stores, storedText]
  split
  · rename_i inside
    simp [inside]
  · rename_i clean
    simp [clean]

theorem stores_varchar_iff (limit : Nat) (text : Text) :
    (Column.varchar limit).stores text = true ↔ Fits limit text := by
  rw [Column.stores, varchar, Fits]
  split
  · rename_i spaces
    have cut : '\x00' ∈ text ↔ '\x00' ∈ text.take limit := by
      constructor
      · intro inside
        rw [← List.take_append_drop limit text, List.mem_append] at inside
        apply inside.resolve_right
        intro dropped
        have space := List.all_eq_true.1 spaces _ dropped
        exact absurd space (by decide)
      · exact List.mem_of_mem_take
    rw [cut]
    have stored := stores_text_iff (text.take limit)
    rw [Column.stores] at stored
    simp only [stored, spaces, true_and]
  · rename_i letters
    simp [letters]

theorem fits_of_length_le {limit : Nat} {text : Text}
    (short : text.length ≤ limit) (clean : '\x00' ∉ text) :
    Fits limit text := by
  rw [← stores_varchar_iff, Column.stores, varchar_of_length_le short clean]
  rfl

end Table

end FireCrow.Library
