import FireCrow.Library.Url

/-!
# Paths of web addresses

How a client reads an address with a known origin: white space at the ends and
line breaks are dropped, a question mark and a hash end the path, dot segments
are resolved in every spelling, and what may not stand in a path is
percent-encoded.  A server decodes the escapes it finds and leaves any other
percent sign alone.
-/

namespace FireCrow.Library.Url

/-! ## Reading an address -/

def isC0OrSpace (character : Char) : Bool := character.toNat ≤ 0x20

def isTabOrNewline (character : Char) : Bool :=
  character == '\t' || character == '\n' || character == '\r'

/-- The input without white space at its ends and without line breaks. -/
def cleaned (input : Text) : Text :=
  ((input.dropWhile isC0OrSpace).rdropWhile isC0OrSpace).filter
    fun character => !isTabOrNewline character

def singleDots : List Text := ["." , "%2e", "%2E"]

def doubleDots : List Text :=
  ["..", ".%2e", ".%2E", "%2e.", "%2E.", "%2e%2e", "%2e%2E", "%2E%2e", "%2E%2E"]

/-- The characters that are encoded in a path. -/
def inPathSet (character : Char) : Bool :=
  character.toNat ≤ 0x20 || 0x7E < character.toNat ||
    character ∈ ['"', '#', '<', '>', '?', '^', '\x60', '\x7b', '\x7d']

def upperHex (number : Nat) : Char :=
  Char.ofNat (if number < 10 then 48 + number else 55 + number)

def percentByte (byte : UInt8) : Text :=
  ['%', upperHex (byte.toNat / 16), upperHex (byte.toNat % 16)]

def encodeChar (character : Char) : Text :=
  if inPathSet character then
    (String.utf8EncodeChar character).flatMap percentByte
  else [character]

def encode (text : Text) : Text := text.flatMap encodeChar

/-- The segments of a path after those that have been read. -/
def resolve : List Text → List Text → List Text
  | path, [] => path
  | path, [last] =>
      if last ∈ doubleDots then path.dropLast ++ [[]]
      else if last ∈ singleDots then path ++ [[]]
      else path ++ [last]
  | path, segment :: next :: rest =>
      if segment ∈ doubleDots then resolve path.dropLast (next :: rest)
      else if segment ∈ singleDots then resolve path (next :: rest)
      else resolve (path ++ [segment]) (next :: rest)

structure Parsed where
  path : Text
  query : Option Text
  fragment : Option Text
deriving DecidableEq

/-- The text before a marker, and the text behind it if there is one. -/
def cut (marker : Char) (text : Text) : Text × Option Text :=
  match Text.splitOnce marker text with
  | some parts => (parts.1, some parts.2)
  | none => (text, none)

/-- A backslash separates like a slash. -/
def slashed (text : Text) : Text :=
  text.map fun character => if character = '\\' then '/' else character

/-- The path, the query and the fragment of an address of the origin. -/
def parseAt (origin input : Text) : Option Parsed :=
  ((cleaned input).stripPrefix origin).bind fun rest =>
    let front := cut '#' rest
    let path := cut '?' front.1
    match slashed path.1 with
    | '/' :: segments => some {
        path := (resolve [] (segments.splitOn '/')).flatMap
          fun segment => '/' :: encode segment
        query := path.2
        fragment := front.2
      }
    | _ => none

/-! ## Decoding -/

/-- The byte of an escape. -/
def escapedByte (character high low : Char) : Option UInt8 :=
  if character = '%' then hexByte high low else none

/-- Decode what is an escape. -/
def percentDecode : Text → Bytes
  | [] => []
  | character :: high :: low :: rest =>
      match escapedByte character high low with
      | some byte => byte :: percentDecode rest
      | none =>
          String.utf8EncodeChar character ++ percentDecode (high :: low :: rest)
  | character :: rest => String.utf8EncodeChar character ++ percentDecode rest

/-- Some percent sign is followed by two hexadecimal digits. -/
def Escaped (text : Text) : Prop :=
  ∃ high low byte, ['%', high, low] <:+: text ∧ hexByte high low = some byte

/-- The text does not open with two hexadecimal digits. -/
def NoHexPair (text : Text) : Prop :=
  ∀ high low rest, text = high :: low :: rest → hexByte high low = none

variable {character : Char}

variable {rest : Text}

theorem percentDecode_cons (plain : character = '%' → NoHexPair rest) :
    percentDecode (character :: rest) =
      String.utf8EncodeChar character ++ percentDecode rest := by
  rcases rest with _ | ⟨high, _ | ⟨low, rest⟩⟩
  · simp [percentDecode]
  · simp [percentDecode]
  · have none : escapedByte character high low = none := by
      rw [escapedByte]
      split
      case isTrue percent => exact plain percent high low rest rfl
      case isFalse => rfl
    rw [percentDecode, none]

theorem percentDecode_append {front : Text} (plain : '%' ∉ front) (back : Text) :
    percentDecode (front ++ back) = front.toBytes ++ percentDecode back := by
  induction front with
  | nil => rfl
  | cons character front inductionHypothesis =>
    have first : character ≠ '%' := fun same => plain (same ▸ List.mem_cons_self)
    rw [List.cons_append, percentDecode_cons fun same => absurd same first,
      inductionHypothesis fun member => plain (List.mem_cons_of_mem _ member),
      ← List.append_assoc]
    rfl

theorem escaped_of_some (rest : Text) {high low : Char} {byte : UInt8}
    (escape : escapedByte character high low = some byte) :
    character = '%' ∧ hexByte high low = some byte ∧
      Escaped (character :: high :: low :: rest) := by
  rw [escapedByte] at escape
  split at escape
  case isTrue percent =>
    subst percent
    exact ⟨rfl, escape, high, low, byte, ⟨[], rest, rfl⟩, escape⟩
  case isFalse => cases escape

theorem Escaped.tail (escaped : Escaped rest) :
    Escaped (character :: rest) := by
  rcases escaped with ⟨high, low, byte, inside, hex⟩
  exact ⟨high, low, byte, inside.trans (List.suffix_cons _ _).isInfix, hex⟩

theorem Escaped.cons_cases (escaped : Escaped (character :: rest)) :
    (character = '%' ∧ ¬ NoHexPair rest) ∨ Escaped rest := by
  rcases escaped with ⟨high, low, byte, inside, hex⟩
  rcases List.infix_cons_iff.mp inside with starts | later
  · rcases List.cons_prefix_cons.mp starts with ⟨same, back, pair⟩
    refine .inl ⟨same.symm, fun none => ?_⟩
    rw [none high low back pair.symm] at hex
    cases hex
  · exact .inr ⟨high, low, byte, later, hex⟩

variable {text : Text}

/-- Without an escape nothing is decoded. -/
theorem percentDecode_of_not_escaped (none : ¬ Escaped text) :
    percentDecode text = text.toBytes := by
  induction text with
  | nil => rfl
  | cons character rest inductionHypothesis =>
    rw [percentDecode_cons, inductionHypothesis fun escaped => none escaped.tail]
    · rfl
    · intro percent high low back same
      cases pair : hexByte high low with
      | none => rfl
      | some byte =>
        refine absurd ⟨high, low, byte, ⟨[], back, ?_⟩, pair⟩ none
        rw [percent, same]
        rfl

theorem one_le_utf8 (character : Char) :
    1 ≤ (String.utf8EncodeChar character).length := by
  rw [String.length_utf8EncodeChar]
  exact Char.utf8Size_pos character

theorem length_toBytes_cons (character : Char) (text : Text) :
    (Text.toBytes (character :: text)).length =
      (String.utf8EncodeChar character).length + text.toBytes.length := by
  rw [Text.toBytes, List.flatMap_cons, List.length_append]
  rfl

theorem percentDecode_length_le (text : Text) :
    (percentDecode text).length ≤ text.toBytes.length ∧
      (Escaped text → (percentDecode text).length < text.toBytes.length) := by
  fun_induction percentDecode text with
  | case1 =>
    refine ⟨Nat.le_refl _, ?_⟩
    rintro ⟨high, low, byte, inside, _⟩
    exact absurd (List.infix_nil.mp inside) (List.cons_ne_nil _ _)
  | case2 character high low rest byte _ inductionHypothesis =>
    have first := one_le_utf8 character
    have second := one_le_utf8 high
    have shorter := inductionHypothesis.1
    have less : (byte :: percentDecode rest).length <
        (Text.toBytes (character :: high :: low :: rest)).length := by
      rw [length_toBytes_cons, length_toBytes_cons, length_toBytes_cons,
        List.length_cons]
      omega
    exact ⟨Nat.le_of_lt less, fun _ => less⟩
  | case3 character high low rest plain inductionHypothesis =>
    rw [length_toBytes_cons, List.length_append]
    refine ⟨Nat.add_le_add_left inductionHypothesis.1 _, fun escaped => ?_⟩
    refine Nat.add_lt_add_left (inductionHypothesis.2 ?_) _
    rcases escaped.cons_cases with ⟨percent, pair⟩ | later
    · refine absurd ?_ pair
      intro one other back same
      cases same
      rwa [escapedByte, if_pos percent] at plain
    · exact later
  | case4 character rest short inductionHypothesis =>
    rw [length_toBytes_cons, List.length_append]
    refine ⟨Nat.add_le_add_left inductionHypothesis.1 _, fun escaped => ?_⟩
    refine Nat.add_lt_add_left (inductionHypothesis.2 ?_) _
    rcases escaped.cons_cases with ⟨_, pair⟩ | later
    · exact absurd (fun one other back same => absurd same (short one other back)) pair
    · exact later

/-! ## Encoding -/

theorem hexByte_upperHex (byte : UInt8) :
    hexByte (upperHex (byte.toNat / 16)) (upperHex (byte.toNat % 16)) =
      some byte := by
  have digits : ∀ number < 16, Json.hexValue (upperHex number) = some number := by
    decide
  have small := byte.toNat_lt
  rw [hexByte, digits _ (by omega), digits _ (by omega)]
  simp only [Option.bind_eq_bind, Option.bind_some, Option.some.injEq]
  rw [show byte.toNat / 16 * 16 + byte.toNat % 16 = byte.toNat by omega,
    UInt8.ofNat_toNat]

theorem percentDecode_percentBytes (bytes : Bytes) (rest : Text) :
    percentDecode (bytes.flatMap percentByte ++ rest) =
      bytes ++ percentDecode rest := by
  induction bytes with
  | nil => rfl
  | cons byte bytes inductionHypothesis =>
    have escape : escapedByte '%' (upperHex (byte.toNat / 16))
        (upperHex (byte.toNat % 16)) = some byte := by
      rw [escapedByte, if_pos rfl, hexByte_upperHex]
    rw [List.flatMap_cons, percentByte, List.append_assoc, List.cons_append,
      List.cons_append, List.cons_append, List.nil_append, percentDecode, escape,
      List.cons_append]
    exact congrArg _ inductionHypothesis

theorem hexByte_percent_left (low : Char) : hexByte '%' low = none := rfl

theorem hexByte_percent_right (high : Char) : hexByte high '%' = none := by
  rw [hexByte]
  cases Json.hexValue high <;> rfl

theorem encode_cons (character : Char) (text : Text) :
    encode (character :: text) = encodeChar character ++ encode text :=
  List.flatMap_cons

theorem encode_append (front back : Text) :
    encode (front ++ back) = encode front ++ encode back :=
  List.flatMap_append

/-- A character is kept, or a percent sign stands in its place. -/
theorem encodeChar_head (character : Char) :
    encodeChar character = [character] ∨
      ∃ rest, encodeChar character = '%' :: rest := by
  rw [encodeChar]
  split
  · right
    cases bytes : String.utf8EncodeChar character with
    | nil =>
      have some_byte := one_le_utf8 character
      rw [bytes] at some_byte
      exact absurd some_byte (by decide)
    | cons byte rest =>
      rw [List.flatMap_cons, percentByte, List.cons_append]
      exact ⟨_, rfl⟩
  · exact .inl rfl

/-- Encoding makes no new escape behind a percent sign. -/
theorem NoHexPair.encode (none : NoHexPair text) : NoHexPair (encode text) := by
  intro high low rest same
  rcases text with _ | ⟨first, _ | ⟨second, back⟩⟩
  · cases same
  · rw [encode_cons] at same
    rcases encodeChar_head first with kept | ⟨tail, replaced⟩
    · rw [kept] at same
      cases same
    · rw [replaced] at same
      rw [← (List.cons.inj same).1]
      exact hexByte_percent_left low
  · rw [encode_cons, encode_cons] at same
    rcases encodeChar_head first with kept | ⟨tail, replaced⟩
    · rw [kept, List.singleton_append] at same
      rcases List.cons.inj same with ⟨one, behind⟩
      rcases encodeChar_head second with keptToo | ⟨tail, replaced⟩
      · rw [keptToo, List.singleton_append] at behind
        rw [← one, ← (List.cons.inj behind).1]
        exact none first second back rfl
      · rw [replaced, List.cons_append] at behind
        rw [← (List.cons.inj behind).1]
        exact hexByte_percent_right high
    · rw [replaced, List.cons_append] at same
      rw [← (List.cons.inj same).1]
      exact hexByte_percent_left low

theorem not_inPathSet_of_hex {number : Nat}
    (digit : Json.hexValue character = some number) :
    inPathSet character = false := by
  have range := hexValue_cases digit
  have outside : character ∉ ['"', '#', '<', '>', '?', '^', '\x60', '\x7b', '\x7d'] := by
    intro member
    have listed : ∀ other ∈ ['"', '#', '<', '>', '?', '^', '\x60', '\x7b', '\x7d'],
        Json.hexValue other = none := by decide
    rw [listed character member] at digit
    cases digit
  simp only [inPathSet, outside, Bool.or_eq_false_iff, decide_eq_false_iff_not,
    not_false_iff, and_true]
  omega

theorem encode_hexPair {high low : Char} {byte : UInt8}
    (hex : hexByte high low = some byte) :
    encodeChar high = [high] ∧ encodeChar low = [low] := by
  rw [hexByte] at hex
  cases first : Json.hexValue high with
  | none =>
    rw [first] at hex
    cases hex
  | some one =>
    cases second : Json.hexValue low with
    | none =>
      rw [first, second] at hex
      cases hex
    | some other =>
      rw [encodeChar, encodeChar, not_inPathSet_of_hex first,
        not_inPathSet_of_hex second]
      exact ⟨rfl, rfl⟩

theorem percentDecode_encodeChar (plain : character = '%' → NoHexPair rest) :
    percentDecode (encodeChar character ++ rest) =
      String.utf8EncodeChar character ++ percentDecode rest := by
  rw [encodeChar]
  split
  · exact percentDecode_percentBytes _ rest
  · exact percentDecode_cons plain

/-- A server decodes from the encoded text what it would from the text. -/
theorem percentDecode_encode (text : Text) :
    percentDecode (encode text) = percentDecode text := by
  fun_induction percentDecode text with
  | case1 => rfl
  | case2 character high low rest byte escape inductionHypothesis =>
    rcases escaped_of_some rest escape with ⟨percent, hex, _⟩
    subst percent
    rcases encode_hexPair hex with ⟨first, second⟩
    have kept : encodeChar '%' = ['%'] := by decide
    rw [encode_cons, encode_cons, encode_cons, kept, first, second,
      List.singleton_append, List.singleton_append, List.singleton_append,
      percentDecode, escape]
    exact congrArg _ inductionHypothesis
  | case3 character high low rest plain inductionHypothesis =>
    rw [encode_cons, percentDecode_encodeChar, inductionHypothesis]
    intro percent
    refine NoHexPair.encode ?_
    intro one other back same
    cases same
    rwa [escapedByte, if_pos percent] at plain
  | case4 character rest short inductionHypothesis =>
    rw [encode_cons, percentDecode_encodeChar, inductionHypothesis]
    intro _
    exact NoHexPair.encode fun one other back same =>
      absurd same (short one other back)

/-! ## Segments as they are spelled -/

/-- A path with the segments as they are. -/
def raw (segments : List Text) : Text :=
  segments.flatMap fun segment => '/' :: segment

theorem raw_append (front back : List Text) :
    raw (front ++ back) = raw front ++ raw back :=
  List.flatMap_append

theorem raw_cons (segment : Text) (rest : List Text) :
    raw (segment :: rest) = '/' :: segment ++ raw rest :=
  List.flatMap_cons

theorem raw_splitOn (text : Text) : raw (text.splitOn '/') = '/' :: text := by
  induction text with
  | nil => rfl
  | cons character text inductionHypothesis =>
    rw [List.splitOn_cons_eq_if_modifyHead]
    split
    case isTrue slash =>
      rw [raw_cons, inductionHypothesis, beq_iff_eq.mp slash]
      rfl
    case isFalse =>
      rcases List.exists_cons_of_ne_nil (List.splitOn_ne_nil '/' text) with
        ⟨head, tail, split⟩
      rw [split, raw_cons] at inductionHypothesis
      rw [split, List.modifyHead_cons, raw_cons]
      have behind := List.tail_eq_of_cons_eq inductionHypothesis
      rw [← behind]
      rfl

theorem flatMap_encode (segments : List Text) :
    (segments.flatMap fun segment => '/' :: encode segment) =
      encode (raw segments) := by
  induction segments with
  | nil => rfl
  | cons segment rest inductionHypothesis =>
    have slash : encodeChar '/' = ['/'] := by decide
    rw [List.flatMap_cons, inductionHypothesis, raw_cons, encode_append,
      encode_cons, slash]
    rfl

/-- The segment stands for something else than a name. -/
def Dotted (segment : Text) : Prop :=
  segment ∈ doubleDots ∨ segment ∈ singleDots

theorem Dotted.nonempty {segment : Text} (dotted : Dotted segment) :
    segment ≠ [] := by
  rintro rfl
  revert dotted
  rw [Dotted]
  decide

theorem length_toBytes_append (front back : Text) :
    (Text.toBytes (front ++ back)).length =
      front.toBytes.length + back.toBytes.length := by
  rw [Text.toBytes, List.flatMap_append, List.length_append]
  rfl

theorem length_raw_append (front back : List Text) :
    (Text.toBytes (raw (front ++ back))).length =
      (Text.toBytes (raw front)).length + (Text.toBytes (raw back)).length := by
  rw [raw_append, length_toBytes_append]

theorem length_raw_cons (segment : Text) (rest : List Text) :
    (Text.toBytes (raw (segment :: rest))).length =
      1 + segment.toBytes.length + (Text.toBytes (raw rest)).length := by
  rw [raw_cons, length_toBytes_append, length_toBytes_cons]
  rfl

theorem length_raw_dropLast (segments : List Text) :
    (Text.toBytes (raw segments.dropLast)).length ≤
      (Text.toBytes (raw segments)).length := by
  by_cases empty : segments = []
  · rw [empty]
    exact Nat.le_refl _
  · conv_rhs => rw [← List.dropLast_append_getLast empty]
    rw [length_raw_append]
    exact Nat.le_add_right _ _

theorem Dotted.length_pos {segment : Text} (dotted : Dotted segment) :
    1 ≤ segment.toBytes.length := by
  rcases List.exists_cons_of_ne_nil dotted.nonempty with ⟨character, rest, same⟩
  have first := one_le_utf8 character
  rw [same, length_toBytes_cons]
  omega

/-- Resolving makes a path no longer, and with a dot segment shorter. -/
theorem raw_resolve_le (path segments : List Text) :
    (Text.toBytes (raw (resolve path segments))).length ≤
        (Text.toBytes (raw path)).length + (Text.toBytes (raw segments)).length ∧
      ((∃ segment ∈ segments, Dotted segment) →
        (Text.toBytes (raw (resolve path segments))).length <
          (Text.toBytes (raw path)).length +
            (Text.toBytes (raw segments)).length) := by
  fun_induction resolve path segments with
  | case1 path => simp
  | case2 path last double =>
    have dropped := length_raw_dropLast path
    have some_dot := Dotted.length_pos (.inl double)
    rw [length_raw_append, length_raw_cons, length_raw_cons]
    constructor
    · simp only [Text.toBytes, List.flatMap_nil, List.length_nil] at *
      omega
    · intro _
      simp only [Text.toBytes, List.flatMap_nil, List.length_nil] at *
      omega
  | case3 path last _ single =>
    have some_dot := Dotted.length_pos (.inr single)
    rw [length_raw_append, length_raw_cons, length_raw_cons]
    constructor
    · simp only [Text.toBytes, List.flatMap_nil, List.length_nil] at *
      omega
    · intro _
      simp only [Text.toBytes, List.flatMap_nil, List.length_nil] at *
      omega
  | case4 path last double single =>
    rw [length_raw_append]
    refine ⟨Nat.le_refl _, ?_⟩
    rintro ⟨segment, member, dotted⟩
    rw [List.mem_singleton.mp member] at dotted
    exact absurd dotted (not_or.mpr ⟨double, single⟩)
  | case5 path segment next rest double inductionHypothesis =>
    have dropped := length_raw_dropLast path
    have bound := inductionHypothesis.1
    rw [length_raw_cons segment]
    exact ⟨by omega, fun _ => by omega⟩
  | case6 path segment next rest _ single inductionHypothesis =>
    have bound := inductionHypothesis.1
    rw [length_raw_cons segment]
    exact ⟨by omega, fun _ => by omega⟩
  | case7 path segment next rest double single inductionHypothesis =>
    have whole : (Text.toBytes (raw (path ++ [segment]))).length +
        (Text.toBytes (raw (next :: rest))).length =
          (Text.toBytes (raw path)).length +
            (Text.toBytes (raw (segment :: next :: rest))).length := by
      rw [← length_raw_append, ← length_raw_append, List.append_assoc]
      rfl
    rw [← whole]
    refine ⟨inductionHypothesis.1, ?_⟩
    rintro ⟨other, member, dotted⟩
    rcases List.mem_cons.mp member with same | later
    · rw [same] at dotted
      exact absurd dotted (not_or.mpr ⟨double, single⟩)
    · exact inductionHypothesis.2 ⟨other, later, dotted⟩

/-- Names are kept. -/
theorem resolve_of_names {path segments : List Text}
    (names : ∀ segment ∈ segments, ¬ Dotted segment) :
    resolve path segments = path ++ segments := by
  fun_induction resolve path segments with
  | case1 path => exact (List.append_nil path).symm
  | case2 path last double =>
    exact absurd (.inl double) (names last List.mem_cons_self)
  | case3 path last _ single =>
    exact absurd (.inr single) (names last List.mem_cons_self)
  | case4 => rfl
  | case5 path segment next rest double =>
    exact absurd (.inl double) (names segment List.mem_cons_self)
  | case6 path segment next rest _ single =>
    exact absurd (.inr single) (names segment List.mem_cons_self)
  | case7 path segment next rest _ _ inductionHypothesis =>
    rw [inductionHypothesis fun other member => names other (.tail _ member),
      List.append_assoc]
    rfl

/-- A text with nothing left out is the text. -/
theorem eq_of_sublist_of_length {part : Text} (sub : part.Sublist text)
    (same : text.toBytes.length ≤ part.toBytes.length) : part = text := by
  have bounded : ∀ {part text : Text}, part.Sublist text →
      part.toBytes.length ≤ text.toBytes.length := by
    intro part text sub
    induction sub with
    | slnil => exact Nat.le_refl _
    | cons character _ inductionHypothesis =>
      rw [length_toBytes_cons]
      omega
    | cons_cons character _ inductionHypothesis =>
      rw [length_toBytes_cons, length_toBytes_cons]
      omega
  induction sub with
  | slnil => rfl
  | cons character sub _ =>
    have first := one_le_utf8 character
    have rest := bounded sub
    rw [length_toBytes_cons] at same
    omega
  | cons_cons character _ inductionHypothesis =>
    rw [length_toBytes_cons, length_toBytes_cons] at same
    rw [inductionHypothesis (by omega)]

end FireCrow.Library.Url
