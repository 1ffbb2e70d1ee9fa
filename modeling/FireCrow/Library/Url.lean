import FireCrow.Library.Json
import FireCrow.Library.Utf8

/-!
# Percent-encoding and queries

The strict reading of an address: a path and the parameters of a query, where
one malformed escape refuses the whole.  A byte beyond ASCII is never part of
an escape, so texts are decoded by characters and decode to bytes.
-/

namespace FireCrow.Library.Url

/-- The byte of two hexadecimal digits. -/
def hexByte (high low : Char) : Option UInt8 := do
  let high ← Json.hexValue high
  let low ← Json.hexValue low
  some (UInt8.ofNat (high * 16 + low))

/-- What a character stands for outside an escape. -/
def plain (plusIsSpace : Bool) (character : Char) : Bytes :=
  if plusIsSpace && character = '+' then [0x20]
  else String.utf8EncodeChar character

/-- Decode every escape; a malformed one has no reading. -/
def unescape (plusIsSpace : Bool) : Text → Option Bytes
  | [] => some []
  | character :: high :: low :: rest =>
      if character = '%' then do
        let byte ← hexByte high low
        let bytes ← unescape plusIsSpace rest
        some (byte :: bytes)
      else (unescape plusIsSpace (high :: low :: rest)).map
        (plain plusIsSpace character ++ ·)
  | character :: rest =>
      if character = '%' then none
      else (unescape plusIsSpace rest).map (plain plusIsSpace character ++ ·)

/-- The key and the value of a piece of a query. -/
def pair (piece : Text) : Option (Bytes × Bytes) :=
  if ';' ∈ piece then none
  else
    let entry := (Text.splitOnce '=' piece).getD (piece, [])
    (unescape true entry.1).bind fun key =>
      (unescape true entry.2).map fun value => (key, value)

/-- The pieces of a query that are not empty. -/
def pieces (query : Text) : List Text := (query.splitOn '&').filter (· ≠ [])

/-- The parameters of a query, in order. -/
def parameters (query : Text) : Option (List (Bytes × Bytes)) :=
  (pieces query).mapM pair

/-- The parts of a path between slashes. -/
def segments (path : Bytes) : List Bytes := (path.splitOn 0x2F).filter (· ≠ [])

/-- The part of an address before its query. -/
def path (address : Text) : Text :=
  ((Text.splitOnce '?' address).getD (address, [])).1

/-- The query of an address, empty when there is none. -/
def query (address : Text) : Text :=
  ((Text.splitOnce '?' address).getD (address, [])).2

/-- The value of the first parameter with a key, empty when there is none. -/
def get (parameters : List (Bytes × Bytes)) (key : Text) : Bytes :=
  ((parameters.find? (·.1 = key.toBytes)).map Prod.snd).getD []

/-! ## Texts without escapes -/

variable {text : Text}

variable (plusIsSpace : Bool)

theorem unescape_of_unescaped (unescaped : '%' ∉ text) :
    unescape plusIsSpace text = some (text.flatMap (plain plusIsSpace)) := by
  fun_induction unescape plusIsSpace text with
  | case1 => rfl
  | case2 => exact absurd List.mem_cons_self unescaped
  | case3 character high low rest _ ih =>
      rw [ih fun member => unescaped (List.mem_cons_of_mem _ member)]
      rfl
  | case4 => exact absurd List.mem_cons_self unescaped
  | case5 character rest _ _ ih =>
      rw [ih fun member => unescaped (List.mem_cons_of_mem _ member)]
      rfl

variable {character : Char}

theorem plain_of_ne_plus (different : character ≠ '+') :
    plain plusIsSpace character = String.utf8EncodeChar character := by
  rw [plain, if_neg (by simp [different])]

theorem plain_false (character : Char) :
    plain false character = String.utf8EncodeChar character := rfl

theorem flatMap_plain
    (noPlus : '+' ∉ text) : text.flatMap (plain plusIsSpace) = text.toBytes := by
  refine List.flatMap_congr fun character member => ?_
  exact plain_of_ne_plus plusIsSpace fun same => noPlus (same ▸ member)

theorem unescape_cons (different : character ≠ '%') (rest : Text) :
    unescape plusIsSpace (character :: rest) =
      (unescape plusIsSpace rest).map (plain plusIsSpace character ++ ·) := by
  rcases rest with _ | ⟨high, _ | ⟨low, rest⟩⟩
  · simp [unescape, different]
  · simp [unescape, different]
  · rw [unescape, if_neg different]

theorem unescape_escape (high low : Char) (rest : Text) :
    unescape plusIsSpace ('%' :: high :: low :: rest) =
      (hexByte high low).bind fun byte =>
        (unescape plusIsSpace rest).map (byte :: ·) := by
  rw [unescape, if_pos rfl]
  cases hexByte high low with
  | none => rfl
  | some byte => cases unescape plusIsSpace rest <;> rfl

/-! ## Segments -/

theorem hexByte_slash_left (low : Char) : hexByte '/' low = none := rfl

theorem hexByte_slash_right (high : Char) : hexByte high '/' = none := by
  rw [hexByte]
  cases Json.hexValue high <;> rfl

/-- A slash is never part of an escape. -/
theorem unescape_append_slash (front back : Text) :
    unescape false (front ++ '/' :: back) =
      (unescape false front).bind fun before =>
        (unescape false back).map fun after => before ++ 0x2F :: after := by
  fun_induction unescape false front with
  | case1 =>
      rw [List.nil_append, unescape_cons false (by decide)]
      rfl
  | case2 high low rest ih =>
      rw [List.cons_append, List.cons_append, List.cons_append,
        unescape_escape, ih]
      cases hexByte high low with
      | none => rfl
      | some byte =>
          cases unescape false rest with
          | none => rfl
          | some before => cases unescape false back <;> rfl
  | case3 character high low rest different ih =>
      rw [List.cons_append, unescape_cons false different, ih]
      cases unescape false (high :: low :: rest) with
      | none => rfl
      | some before =>
          cases unescape false back <;> simp
  | case4 rest short =>
      rcases rest with _ | ⟨high, _ | ⟨low, rest⟩⟩
      · rcases back with _ | ⟨low, back⟩
        · rfl
        · rw [List.cons_append, List.nil_append, unescape_escape,
            hexByte_slash_left]
          rfl
      · rw [List.cons_append, List.cons_append, List.nil_append,
          unescape_escape, hexByte_slash_right]
        rfl
      · exact absurd rfl (short high low rest)
  | case5 character rest short different ih =>
      rw [List.cons_append, unescape_cons false different, ih]
      cases unescape false rest with
      | none => rfl
      | some before =>
          cases unescape false back <;> simp

/-- The escapes of a slash. -/
structure NoSlashEscape (text : Text) : Prop where
  lower : ¬ ("%2f" : Text) <:+: text
  upper : ¬ ("%2F" : Text) <:+: text

variable {part : Text}

theorem NoSlashEscape.of_infix (inside : part <:+: text)
    (none : NoSlashEscape text) : NoSlashEscape part :=
  ⟨fun found => none.lower (found.trans inside),
    fun found => none.upper (found.trans inside)⟩

theorem hexValue_cases {number : Nat}
    (digit : Json.hexValue character = some number) :
    (number < 10 ∧ character.toNat = number + 48) ∨
      (10 ≤ number ∧ number < 16 ∧
        (character.toNat = number + 87 ∨ character.toNat = number + 55)) := by
  have bounds : ∀ low high : Char, low ≤ character → character ≤ high →
      low.toNat ≤ character.toNat ∧ character.toNat ≤ high.toNat :=
    fun low high least most =>
      ⟨UInt32.le_iff_toNat_le.1 least, UInt32.le_iff_toNat_le.1 most⟩
  unfold Json.hexValue at digit
  split at digit
  · rename_i isDigit
    simp only [Text.isAsciiDigit, Bool.and_eq_true, decide_eq_true_eq] at isDigit
    obtain ⟨least, most⟩ := bounds '0' '9' isDigit.1 isDigit.2
    have value := Option.some.inj digit
    simp only [Char.reduceToNat] at least most
    exact Or.inl (by omega)
  · split at digit
    · rename_i lower
      obtain ⟨least, most⟩ := bounds 'a' 'f' lower.1 lower.2
      have value := Option.some.inj digit
      simp only [Char.reduceToNat] at least most
      exact Or.inr (by omega)
    · split at digit
      · rename_i upper
        obtain ⟨least, most⟩ := bounds 'A' 'F' upper.1 upper.2
        have value := Option.some.inj digit
        simp only [Char.reduceToNat] at least most
        exact Or.inr (by omega)
      · cases digit

theorem hexByte_eq_slash {high low : Char}
    (slash : hexByte high low = some 0x2F) :
    high = '2' ∧ (low = 'f' ∨ low = 'F') := by
  cases left : Json.hexValue high with
  | none => rw [hexByte, left] at slash; cases slash
  | some first =>
      cases right : Json.hexValue low with
      | none => rw [hexByte, left, right] at slash; cases slash
      | some second =>
          rw [hexByte, left, right] at slash
          have value : (first * 16 + second) % 256 = 47 :=
            congrArg UInt8.toNat (Option.some.inj slash)
          have highForm := hexValue_cases left
          have lowForm := hexValue_cases right
          have fixed : ∀ character : Char, ∀ known : Char,
              character.toNat = known.toNat → character = known :=
            fun _ _ same => Char.toNat_inj.1 same
          refine ⟨fixed _ _ (by simp only [Char.reduceToNat]; omega), ?_⟩
          rcases (by omega : low.toNat = 102 ∨ low.toNat = 70) with lower | upper
          · exact Or.inl (fixed _ _ lower)
          · exact Or.inr (fixed _ _ upper)

theorem slash_not_mem_encode (different : character ≠ '/') :
    0x2F ∉ String.utf8EncodeChar character := by
  intro member
  have slash : ('/' : Char) ∈ [character] :=
    (Bytes.mem_toBytes_iff (by decide)).1
      (List.mem_flatMap.2 ⟨character, List.mem_singleton_self _, member⟩)
  exact different (List.mem_singleton.1 slash).symm

variable {bytes : Bytes}

/-- A part without a slash or an escaped one decodes to bytes without one. -/
theorem slash_not_mem_unescape
    (read : unescape false part = some bytes) (single : '/' ∉ part)
    (noEscape : NoSlashEscape part) : 0x2F ∉ bytes := by
  fun_induction unescape false part generalizing bytes with
  | case1 =>
      cases read
      exact List.not_mem_nil
  | case2 high low rest ih =>
      cases escaped : hexByte high low with
      | none => rw [escaped] at read; cases read
      | some byte =>
          cases decoded : unescape false rest with
          | none => rw [escaped, decoded] at read; cases read
          | some after =>
              rw [escaped, decoded] at read
              cases read
              intro member
              rcases List.mem_cons.1 member with slash | later
              · obtain ⟨rfl, rfl | rfl⟩ := hexByte_eq_slash (slash ▸ escaped)
                · exact noEscape.lower ⟨[], rest, rfl⟩
                · exact noEscape.upper ⟨[], rest, rfl⟩
              · exact ih decoded
                  (fun inside => single (by simp [inside]))
                  (noEscape.of_infix ⟨['%', high, low], [], by simp⟩) later
  | case3 character _ _ _ _ ih | case5 character _ _ _ ih =>
      obtain ⟨after, decoded, rfl⟩ := Option.map_eq_some_iff.1 read
      intro member
      rcases List.mem_append.1 member with here | later
      · exact slash_not_mem_encode
          (fun same => single (same ▸ List.mem_cons_self)) here
      · exact ih decoded (fun inside => single (List.mem_cons_of_mem _ inside))
          (noEscape.of_infix (List.suffix_cons _ _).isInfix) later
  | case4 => cases read

/-- One part of a path with its decoding. -/
def Decodes (part : Text) (bytes : Bytes) : Prop :=
  unescape false part = some bytes

/-- Without escaped slashes, the parts of a decoded path are the decoded parts
of the path. -/
theorem splitOn_of_unescape {path : Text}
    (read : Decodes path bytes) (noEscape : NoSlashEscape path) :
    List.Forall₂ Decodes (path.splitOn '/') (bytes.splitOn 0x2F) := by
  induction size : path.length using Nat.strong_induction_on
    generalizing path bytes with
  | _ length ih =>
      by_cases slash : '/' ∈ path
      · obtain ⟨front, back, rfl, single⟩ := List.eq_append_cons_of_mem slash
        rw [Decodes, unescape_append_slash, Option.bind_eq_some_iff] at read
        obtain ⟨before, decoded, read⟩ := read
        obtain ⟨after, rest, rfl⟩ := Option.map_eq_some_iff.1 read
        have free : 0x2F ∉ before := slash_not_mem_unescape decoded single
          (noEscape.of_infix (List.prefix_append _ _).isInfix)
        have shorter : back.length < length := by
          rw [← size, List.length_append, List.length_cons]
          omega
        rw [List.splitOn_append_cons_self_of_not_mem single,
          List.splitOn_append_cons_self_of_not_mem free]
        exact .cons decoded (ih _ shorter rest
          (noEscape.of_infix ⟨front ++ ['/'], [], by simp⟩) rfl)
      · rw [List.splitOn_eq_singleton slash, List.splitOn_eq_singleton
          (slash_not_mem_unescape read slash noEscape)]
        exact .cons read .nil

theorem encode_ne_nil (character : Char) :
    String.utf8EncodeChar character ≠ [] := by
  rw [ne_eq, ← List.length_eq_zero_iff, String.length_utf8EncodeChar]
  exact character.utf8Size_pos.ne'

/-- An escape stands for a byte, and a percent sign alone for nothing. -/
theorem unescape_percent {plusIsSpace : Bool} {rest : Text}
    (read : unescape plusIsSpace ('%' :: rest) = some bytes) :
    ∃ high low tail byte after, rest = high :: low :: tail ∧
      unescape plusIsSpace tail = some after ∧ bytes = byte :: after := by
  rcases rest with _ | ⟨high, _ | ⟨low, tail⟩⟩
  · cases read
  · cases read
  · rw [unescape_escape, Option.bind_eq_some_iff] at read
    obtain ⟨byte, -, read⟩ := read
    obtain ⟨after, decoded, rfl⟩ := Option.map_eq_some_iff.1 read
    exact ⟨high, low, tail, byte, after, rfl, decoded, rfl⟩

/-- Only an empty part decodes to no bytes. -/
theorem Decodes.nonempty_iff
    (read : Decodes part bytes) : part ≠ [] ↔ bytes ≠ [] := by
  rw [Decodes] at read
  refine not_congr ⟨?_, ?_⟩
  · rintro rfl
    exact (Option.some.inj read).symm
  · rintro rfl
    cases part with
    | nil => rfl
    | cons character rest =>
        by_cases percent : character = '%'
        · subst percent
          obtain ⟨_, _, _, _, _, -, -, same⟩ := unescape_percent read
          cases same
        · rw [unescape_cons false percent] at read
          obtain ⟨after, -, same⟩ := Option.map_eq_some_iff.1 read
          exact absurd (List.append_eq_nil_iff.1 same).1 (encode_ne_nil character)

theorem toBytes_cons (character : Char) (rest : Text) :
    Text.toBytes (character :: rest) =
      String.utf8EncodeChar character ++ rest.toBytes := rfl

theorem length_encode_pos (character : Char) :
    0 < (String.utf8EncodeChar character).length :=
  List.length_pos_iff.2 (encode_ne_nil character)

/-- Escapes are longer than what they stand for. -/
theorem length_of_unescape (read : Decodes text bytes) :
    bytes.length ≤ text.toBytes.length ∧
      ('%' ∈ text → bytes.length < text.toBytes.length) := by
  rw [Decodes] at read
  induction size : text.length using Nat.strong_induction_on
    generalizing text bytes with
  | _ length ih =>
      cases text with
      | nil =>
          cases read
          exact ⟨le_rfl, nofun⟩
      | cons character rest =>
          by_cases percent : character = '%'
          · subst percent
            obtain ⟨high, low, tail, byte, after, rfl, decoded, rfl⟩ :=
              unescape_percent read
            have shorter : tail.length < length := by
              rw [← size]
              simp only [List.length_cons]
              omega
            have later := (ih _ shorter decoded rfl).1
            have first := length_encode_pos '%'
            have second := length_encode_pos high
            have third := length_encode_pos low
            simp only [toBytes_cons, List.length_append, List.length_cons]
            omega
          · rw [unescape_cons false percent] at read
            obtain ⟨after, decoded, rfl⟩ := Option.map_eq_some_iff.1 read
            have shorter : rest.length < length := by
              rw [← size, List.length_cons]
              omega
            obtain ⟨atMost, less⟩ := ih _ shorter decoded rfl
            rw [toBytes_cons, List.length_append, List.length_append,
              plain_false]
            refine ⟨by omega, fun member => ?_⟩
            rcases List.mem_cons.1 member with same | later
            · exact absurd same.symm percent
            · have := less later
              omega

/-- A text that decodes to itself has no escape. -/
theorem Decodes.unescaped (read : Decodes text text.toBytes) : '%' ∉ text :=
  fun member => lt_irrefl _ ((length_of_unescape read).2 member)

theorem decodes_of_unescaped (unescaped : '%' ∉ text) :
    Decodes text text.toBytes :=
  unescape_of_unescaped false unescaped

/-- The parts of a path that are not empty. -/
def parts (path : Text) : List Text := (path.splitOn '/').filter (· ≠ [])

theorem segments_of_unescape {path : Text}
    (read : Decodes path bytes) (noEscape : NoSlashEscape path) :
    List.Forall₂ Decodes (parts path) (segments bytes) := by
  refine List.rel_filter ?_ (splitOn_of_unescape read noEscape)
  intro part decoded this
  exact decide_eq_true_iff.trans (this.nonempty_iff.trans decide_eq_true_iff.symm)

/-! ## Parameters -/

/-- The value of a piece whose key decodes to a given one. -/
def readsAs (key : Text) (piece : Text) : Option Bytes :=
  (pair piece).bind fun parameter =>
    if parameter.1 = key.toBytes then some parameter.2 else none

/-- A piece whose key is spelled as it is. -/
def spelledAs (key piece : Text) : Bool :=
  (Text.splitOnce '=' piece).any fun entry => entry.1 = key

/-- The first piece whose key decodes to a given one. -/
def firstNaming (query key : Text) : Option Text :=
  (pieces query).find? fun piece => (readsAs key piece).isSome

/-- The first piece whose key is spelled as a given one. -/
def firstSpelled (query key : Text) : Option Text :=
  (pieces query).find? (spelledAs key)

/-- The value of the first piece whose key is spelled as a given one, empty
when there is none. -/
def spelledValue (query key : Text) : Bytes :=
  ((firstSpelled query key).bind (readsAs key)).getD []

/-- The first piece that names a key is spelled so, or says the same. -/
def Unmasked (query key : Text) : Prop :=
  ∀ piece ∈ firstNaming query key,
    spelledAs key piece = true ∨
      readsAs key piece = some (spelledValue query key)

theorem mapM_eq_some {α β : Type} {read : α → Option β} {items : List α}
    {results : List β} (all : items.mapM read = some results) :
    List.Forall₂ (fun item result => read item = some result) items results := by
  induction items generalizing results with
  | nil =>
      cases all
      exact .nil
  | cons item items ih =>
      rw [List.mapM_cons] at all
      obtain ⟨first, here, all⟩ := Option.bind_eq_some_iff.1 all
      obtain ⟨others, there, same⟩ := Option.bind_eq_some_iff.1 all
      cases same
      exact .cons here (ih there)

/-- The value of a key is that of the first piece that names it. -/
theorem get_eq_of_pieces {values : List (Bytes × Bytes)} {query : Text}
    (read : parameters query = some values) (key : Text) :
    get values key = ((firstNaming query key).bind (readsAs key)).getD [] := by
  have found : ∀ {items : List Text} {found : List (Bytes × Bytes)},
      List.Forall₂ (fun piece parameter => pair piece = some parameter)
        items found →
      (found.find? (·.1 = key.toBytes)).map Prod.snd =
        (items.find? fun piece => (readsAs key piece).isSome).bind
          (readsAs key) := by
    intro items found all
    induction all with
    | nil => rfl
    | @cons piece parameter items found here _ ih =>
        have value : readsAs key piece =
            if parameter.1 = key.toBytes then some parameter.2 else none := by
          rw [readsAs, here, Option.bind_some]
        by_cases named : parameter.1 = key.toBytes
        · rw [if_pos named] at value
          simp [named, value]
        · rw [if_neg named] at value
          simp [named, value, ih]
  rw [get, found (mapM_eq_some read)]
  rfl

theorem exists_of_forall₂ {α β : Type} {related : α → β → Prop}
    {items : List α} {results : List β}
    (all : List.Forall₂ related items results) {item : α}
    (member : item ∈ items) : ∃ result ∈ results, related item result := by
  induction all with
  | nil => cases member
  | cons here _ ih =>
      rcases List.mem_cons.1 member with rfl | later
      · exact ⟨_, List.mem_cons_self, here⟩
      · obtain ⟨result, inside, there⟩ := ih later
        exact ⟨result, List.mem_cons_of_mem _ inside, there⟩

variable {piece key : Text}

/-- The value behind a key that is spelled. -/
theorem readsAs_of_splitOnce {value : Text}
    (split : Text.splitOnce '=' piece = some (key, value))
    (unescaped : '%' ∉ key) (noPlus : '+' ∉ key) (whole : ';' ∉ piece) :
    readsAs key piece = unescape true value := by
  have named : unescape true key = some key.toBytes := by
    rw [unescape_of_unescaped true unescaped, flatMap_plain true noPlus]
  rw [readsAs, pair, if_neg whole, split]
  simp only [Option.getD_some, named, Option.bind_some]
  cases unescape true value with
  | none => rfl
  | some bytes => simp

theorem whole_of_pair {parameter : Bytes × Bytes}
    (read : pair piece = some parameter) : ';' ∉ piece := by
  intro semicolon
  rw [pair, if_pos semicolon] at read
  cases read

/-- A spelled key names itself. -/
theorem readsAs_of_spelled (unescaped : '%' ∉ key)
    (noPlus : '+' ∉ key) {parameter : Bytes × Bytes}
    (read : pair piece = some parameter) (spelled : spelledAs key piece = true) :
    (readsAs key piece).isSome = true := by
  obtain ⟨⟨name, value⟩, split, same⟩ := (Option.any_eq_true _ _).1 spelled
  cases of_decide_eq_true same
  have whole := whole_of_pair read
  rw [readsAs_of_splitOnce split unescaped noPlus whole]
  rw [pair, if_neg whole, split] at read
  obtain ⟨_, _, mapped⟩ := Option.bind_eq_some_iff.1 read
  obtain ⟨bytes, decoded, -⟩ := Option.map_eq_some_iff.1 mapped
  exact Option.isSome_iff_exists.2 ⟨bytes, decoded⟩

/-- What a key is read as is what its spelling says, unless it is masked. -/
theorem get_eq_spelledValue_iff {values : List (Bytes × Bytes)}
    {query : Text} (read : parameters query = some values)
    (unescaped : '%' ∉ key) (noPlus : '+' ∉ key) :
    get values key = spelledValue query key ↔ Unmasked query key := by
  have names : ∀ piece ∈ pieces query, spelledAs key piece = true →
      (readsAs key piece).isSome = true := by
    intro piece member spelled
    obtain ⟨parameter, -, here⟩ := exists_of_forall₂ (mapM_eq_some read) member
    exact readsAs_of_spelled unescaped noPlus here spelled
  rw [get_eq_of_pieces read, Unmasked]
  cases naming : firstNaming query key with
  | none =>
      have unspelled : firstSpelled query key = none := by
        refine List.find?_eq_none.2 fun piece member spelled => ?_
        exact List.find?_eq_none.1 naming piece member
          (names piece member spelled)
      rw [spelledValue, unspelled]
      exact ⟨fun _ => nofun, fun _ => rfl⟩
  | some piece =>
      obtain ⟨named, before, after, same, unnamed⟩ :=
        List.find?_eq_some_iff_append.1 naming
      obtain ⟨bytes, value⟩ := Option.isSome_iff_exists.1 named
      have first : spelledAs key piece = true →
          firstSpelled query key = some piece := by
        intro spelled
        refine List.find?_eq_some_iff_append.2
          ⟨spelled, before, after, same, fun other member => ?_⟩
        rw [Bool.not_eq_true']
        refine Bool.eq_false_of_not_eq_true fun otherSpelled => ?_
        have otherNamed := names other
          (same ▸ List.mem_append_left _ member) otherSpelled
        have notNamed := unnamed other member
        rw [otherNamed] at notNamed
        cases notNamed
      rw [Option.bind_some, value, Option.getD_some]
      constructor
      · intro equal other chosen
        cases chosen
        exact Or.inr (value.trans (congrArg some equal))
      · intro unmasked
        rcases unmasked piece rfl with spelled | repeated
        · rw [spelledValue, first spelled, Option.bind_some, value,
            Option.getD_some]
        · exact Option.some.inj (value.symm.trans repeated)

end FireCrow.Library.Url
