import FireCrow.DockerAuthz.Decisions
import FireCrow.Library.Url

/-!
# Queries as the plugin reads them

The plugin decodes leniently and the strict reading refuses.  They agree on
every value that the plugin approves: it is of ASCII, and it has neither a
percent sign, which a malformed escape leaves behind, nor a plus sign.
-/

namespace FireCrow.DockerAuthz

open FireCrow.Library

variable {text : Text}

theorem percentBytes_of_unescaped (unescaped : '%' ∉ text) :
    percentBytes text = text.toBytes := by
  fun_induction percentBytes text with
  | case1 => exact absurd List.mem_cons_self unescaped
  | case2 => exact absurd List.mem_cons_self unescaped
  | case3 character high low rest _ ih =>
      rw [ih fun member => unescaped (List.mem_cons_of_mem _ member)]
      rfl
  | case4 => rfl

variable {value : Text}

theorem percentDecode_eq_iff
    (ascii : ∀ character ∈ text, Text.isAscii character = true) :
    percentDecode value = text ↔ percentBytes value = text.toBytes :=
  Bytes.fromUtf8Lossy_eq_iff ascii

variable {character : Char}

/-- A character of ASCII is in a text when its byte is not kept out. -/
theorem byte_mem_toBytes (member : character ∈ text) (byte : UInt8)
    (encodes : String.utf8EncodeChar character = [byte]) :
    byte ∈ text.toBytes :=
  List.mem_flatMap.2 ⟨character, member, encodes ▸ List.mem_singleton.2 rfl⟩

theorem hexByte_of_some {high low : Char} {first second : Nat}
    (left : Json.hexValue high = some first)
    (right : Json.hexValue low = some second) :
    Url.hexByte high low = some (UInt8.ofNat (first * 16 + second)) := by
  rw [Url.hexByte, left, right]
  rfl

/-- A value that decodes without percent and plus signs has well-formed
escapes only. -/
theorem unescape_eq_percentBytes (noPercent : 0x25 ∉ percentBytes value)
    (noPlus : 0x2B ∉ percentBytes value) :
    Url.unescape true value = some (percentBytes value) := by
  fun_induction percentBytes value with
  | case1 high low rest first second right left ih =>
      have later := ih (fun member => noPercent (List.mem_cons_of_mem _ member))
        (fun member => noPlus (List.mem_cons_of_mem _ member))
      rw [Url.unescape, if_pos rfl, hexByte_of_some left right, later]
      rfl
  | case2 =>
      exact absurd (List.mem_append_left _ (by decide)) noPercent
  | case3 character high low rest other ih =>
      have later := ih
        (fun member => noPercent (List.mem_append_right _ member))
        (fun member => noPlus (List.mem_append_right _ member))
      have different : character ≠ '+' := by
        rintro rfl
        exact noPlus (List.mem_append_left _ (by decide))
      rw [Url.unescape, if_neg other, later, Url.plain_of_ne_plus _ different]
      rfl
  | case4 text =>
      have unescaped : '%' ∉ text := fun member =>
        noPercent (byte_mem_toBytes member _ (by decide))
      have unspaced : '+' ∉ text := fun member =>
        noPlus (byte_mem_toBytes member _ (by decide))
      rw [Url.unescape_of_unescaped true unescaped, Url.flatMap_plain _ unspaced]

/-! ## Scanner names -/

/-- A character that no reading of a query changes. -/
structure Fixed (character : Char) : Prop where
  ascii : Text.isAscii character = true
  notPercent : character ≠ '%'
  notPlus : character ≠ '+'
  notAmpersand : character ≠ '&'

theorem Fixed.of_range (low : 0x2C ≤ character.val.toNat)
    (high : character.val.toNat < 0x80) : Fixed character := by
  refine ⟨decide_eq_true high, ?_, ?_, ?_⟩
  all_goals
    rintro rfl
    exact absurd low (by decide)

theorem fixed_of_isUuidCharacter
    (uuid : isUuidCharacter character = true ∨ character = '-') :
    Fixed character := by
  have bounds : 0x2C ≤ character.val.toNat ∧ character.val.toNat < 0x80 := by
    rcases uuid with uuid | rfl
    · simp only [isUuidCharacter, Text.isAsciiDigit, Bool.or_eq_true,
        Bool.and_eq_true, decide_eq_true_eq] at uuid
      rcases uuid with ⟨least, most⟩ | ⟨least, most⟩
      · exact ⟨le_trans (by decide) (UInt32.le_iff_toNat_le.1 least),
          lt_of_le_of_lt (UInt32.le_iff_toNat_le.1 most) (by decide)⟩
      · exact ⟨le_trans (by decide) (UInt32.le_iff_toNat_le.1 least),
          lt_of_le_of_lt (UInt32.le_iff_toNat_le.1 most) (by decide)⟩
    · decide
  exact .of_range bounds.1 bounds.2

/-- The hyphenated lower case form of a UUID. -/
structure IsUuid (uuid : Text) : Prop where
  length : uuid.length = 36
  characters : ∀ place character, uuid[place]? = some character →
    isUuidCharacter character = true ∨
      (character = '-' ∧ place ∈ dashPlaces)
  dashes : ∀ place ∈ dashPlaces, uuid[place]? = some '-'

theorem IsUuid.fixed {uuid : Text} (form : IsUuid uuid) :
    ∀ character ∈ uuid, Fixed character := by
  intro character member
  obtain ⟨place, inside⟩ := List.mem_iff_getElem?.1 member
  exact fixed_of_isUuidCharacter
    ((form.characters place character inside).imp_right And.left)

theorem byteLen_of_ascii
    (ascii : ∀ character ∈ text, Text.isAscii character = true) :
    text.byteLen = text.length := by
  induction text with
  | nil => rfl
  | cons character text ih =>
      rw [Text.byteLen_cons, Text.utf8Size_of_ascii (ascii _ List.mem_cons_self),
        ih fun other member => ascii other (List.mem_cons_of_mem _ member),
        List.length_cons, Nat.add_comm]

/-- A scanner name is the prefix with a UUID behind. -/
theorem isScannerName_iff (name : Text) :
    isScannerName name = true ↔
      ∃ uuid, name = scanNamePrefix ++ uuid ∧ IsUuid uuid := by
  have suffix : ∀ uuid : Text,
      (uuid.byteLen = 36 ∧
        (∀ entry ∈ uuid.zipIdx, isUuidCharacter entry.1 = true ∨
          (entry.1 = '-' ∧ entry.2 ∈ dashPlaces)) ∧
        ∀ place ∈ dashPlaces, uuid[place]? = some '-') ↔ IsUuid uuid := by
    intro uuid
    constructor
    · rintro ⟨length, characters, dashes⟩
      have placed : ∀ place character, uuid[place]? = some character →
          isUuidCharacter character = true ∨
            (character = '-' ∧ place ∈ dashPlaces) :=
        fun place character inside => characters (character, place)
          (List.mk_mem_zipIdx_iff_getElem?.2 inside)
      have ascii : ∀ character ∈ uuid, Text.isAscii character = true := by
        intro character member
        obtain ⟨place, inside⟩ := List.mem_iff_getElem?.1 member
        exact (fixed_of_isUuidCharacter
          ((placed place character inside).imp_right And.left)).ascii
      exact ⟨byteLen_of_ascii ascii ▸ length, placed, dashes⟩
    · intro form
      refine ⟨?_, fun entry member => form.characters entry.2 entry.1
        (List.mem_zipIdx_iff_getElem?.1 member), form.dashes⟩
      rw [byteLen_of_ascii fun character member =>
        (form.fixed character member).ascii, form.length]
  unfold isScannerName
  constructor
  · intro accepted
    split at accepted
    · cases accepted
    · rename_i uuid stripped
      refine ⟨uuid, Text.stripPrefix_eq_some.1 stripped, (suffix uuid).1 ?_⟩
      simpa only [Bool.and_eq_true, decide_eq_true_eq, List.all_eq_true,
        Bool.or_eq_true, and_assoc] using accepted
  · rintro ⟨uuid, rfl, form⟩
    rw [Text.stripPrefix_eq_some.2 rfl]
    simpa only [Bool.and_eq_true, decide_eq_true_eq, List.all_eq_true,
      Bool.or_eq_true, and_assoc] using (suffix uuid).2 form

theorem fixed_of_isScannerName {name : Text}
    (accepted : isScannerName name = true) :
    ∀ character ∈ name, Fixed character := by
  obtain ⟨uuid, rfl, form⟩ := (isScannerName_iff name).1 accepted
  have opening : ∀ character ∈ scanNamePrefix,
      0x2C ≤ character.val.toNat ∧ character.val.toNat < 0x80 := by decide
  intro character member
  rcases List.mem_append.1 member with front | back
  · exact .of_range (opening character front).1 (opening character front).2
  · exact form.fixed character back

/-! ## Parameters -/

theorem percentDecode_of_fixed (fixed : ∀ character ∈ text, Fixed character) :
    percentDecode text = text := by
  refine (percentDecode_eq_iff fun character member =>
    (fixed character member).ascii).2 (percentBytes_of_unescaped fun member => ?_)
  exact (fixed '%' member).notPercent rfl

variable {key : Text}

/-- The first spelled piece of a query is where the first value is from. -/
theorem find_spelled_of_filterMap (pairs : List Text) :
    match pairs.filterMap fun pair =>
        ((Text.splitOnce '=' pair).filter fun entry => entry.1 = key).map
          fun entry => percentDecode entry.2 with
    | [] => (pairs.filter (· ≠ [])).find? (Url.spelledAs key) = none
    | text :: _ => ∃ piece value,
        (pairs.filter (· ≠ [])).find? (Url.spelledAs key) = some piece ∧
          Text.splitOnce '=' piece = some (key, value) ∧
          percentDecode value = text := by
  induction pairs with
  | nil => rfl
  | cons pair pairs ih =>
      cases split : Text.splitOnce '=' pair with
      | none =>
          have unspelled : Url.spelledAs key pair = false := by
            rw [Url.spelledAs, split]
            rfl
          rw [List.filterMap_cons_none (by rw [split]; rfl)]
          by_cases blank : pair = []
          · rw [List.filter_cons_of_neg (by simp [blank])]
            exact ih
          · rw [List.filter_cons_of_pos (by simp [blank])]
            simpa only [List.find?_cons, unspelled] using ih
      | some entry =>
          obtain ⟨name, value⟩ := entry
          have present : pair ≠ [] := by
            rintro rfl
            cases split
          rw [List.filter_cons_of_pos (by simp [present])]
          by_cases named : name = key
          · subst named
            have spelled : Url.spelledAs name pair = true := by
              rw [Url.spelledAs, split]
              exact decide_eq_true rfl
            rw [List.filterMap_cons_some (b := percentDecode value)
              (by rw [split]; simp)]
            exact ⟨pair, value, by rw [List.find?_cons, spelled], split, rfl⟩
          · have unspelled : Url.spelledAs key pair = false := by
              rw [Url.spelledAs, split]
              exact decide_eq_false named
            rw [List.filterMap_cons_none (by rw [split]; simp [named])]
            simpa only [List.find?_cons, unspelled] using ih

theorem queryParam_eq_head (uri key : Text) :
    queryParam uri key = (spelledValues (queryOf uri) key).head? := by
  rw [queryParam, queryOf, spelledValues]
  cases Text.splitOnce '?' uri with
  | none => rfl
  | some parts =>
      rw [Option.bind_some, Option.map_some, Option.getD_some]
      induction parts.2.splitOn '&' with
      | nil => rfl
      | cons pair pairs ih =>
          rw [List.findSome?_cons]
          cases found : (Text.splitOnce '=' pair).filter
              fun entry => entry.1 = key with
          | none => rw [List.filterMap_cons_none (by rw [found]; rfl), ih]
          | some entry =>
              rw [List.filterMap_cons_some (b := percentDecode entry.2)
                (by rw [found]; rfl)]
              rfl

theorem no_byte_of_fixed {bytes : Bytes}
    (same : bytes = text.toBytes) (fixed : ∀ character ∈ text, Fixed character) :
    0x25 ∉ bytes ∧ 0x2B ∉ bytes := by
  subst same
  refine ⟨fun member => ?_, fun member => ?_⟩
  · exact (fixed '%' ((Bytes.mem_toBytes_iff (by decide)).1 member)).notPercent
      rfl
  · exact (fixed '+' ((Bytes.mem_toBytes_iff (by decide)).1 member)).notPlus rfl

/-- What the plugin reads for a key is the strict value of its spelling. -/
theorem spelledValue_of_spelledValues {query : Text}
    {found : List (Bytes × Bytes)} (read : Url.parameters query = some found)
    (unescaped : '%' ∉ key) (noPlus : '+' ∉ key) :
    match spelledValues query key with
    | [] => Url.spelledValue query key = []
    | text :: _ => (∀ character ∈ text, Fixed character) →
        Url.spelledValue query key = text.toBytes := by
  have located := @find_spelled_of_filterMap key (query.splitOn '&')
  rw [spelledValues]
  split
  · rename_i blank
    rw [blank] at located
    rw [Url.spelledValue, Url.firstSpelled, Url.pieces, located]
    rfl
  · rename_i text others values
    rw [values] at located
    obtain ⟨piece, value, first, split, decoded⟩ := located
    intro fixed
    have member := List.mem_of_find?_eq_some first
    obtain ⟨parameter, -, here⟩ :=
      Url.exists_of_forall₂ (Url.mapM_eq_some read) member
    have bytes := (percentDecode_eq_iff fun character inside =>
      (fixed character inside).ascii).1 decoded
    obtain ⟨noPercent, noPlusByte⟩ := no_byte_of_fixed bytes fixed
    rw [Url.spelledValue, Url.firstSpelled, Url.pieces, first, Option.bind_some,
      Url.readsAs_of_splitOnce split unescaped noPlus (Url.whole_of_pair here),
      unescape_eq_percentBytes noPercent noPlusByte, Option.getD_some, bytes]

/-- The only parameter of a query. -/
theorem queryParam_single {path : Text} (noQuery : '?' ∉ path)
    (plainKey : '=' ∉ key) (separate : '&' ∉ key ++ '=' :: value) :
    queryParam (path ++ '?' :: (key ++ '=' :: value)) key =
      some (percentDecode value) := by
  rw [queryParam, Text.splitOnce_append _ noQuery, Option.bind_some,
    List.splitOn_eq_singleton separate]
  simp [Text.splitOnce_append value plainKey]

end FireCrow.DockerAuthz
