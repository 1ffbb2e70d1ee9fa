import FireCrow.DockerAuthz.Plugin
import FireCrow.Library.Base64

/-!
# Encoded bodies

The decoder drops ASCII white space, looks where the padding stands and reads
the groups.  It does not look at the bits that padding leaves unused.
-/

namespace FireCrow.DockerAuthz

open FireCrow.Library
open FireCrow.Library.Base64

/-! ## The decoder -/

/-- The value of a character. -/
def table (c : UInt8) : Option UInt8 :=
  if 'A'.toUInt8 ≤ c ∧ c ≤ 'Z'.toUInt8 then some (c - 'A'.toUInt8)
  else if 'a'.toUInt8 ≤ c ∧ c ≤ 'z'.toUInt8 then some (c - 'a'.toUInt8 + 26)
  else if '0'.toUInt8 ≤ c ∧ c ≤ '9'.toUInt8 then some (c - '0'.toUInt8 + 52)
  else if c = '+'.toUInt8 then some 62
  else if c = '/'.toUInt8 then some 63
  else none

def isAsciiWhitespace (byte : UInt8) : Bool :=
  byte = 0x20 || byte = 0x09 || byte = 0x0A || byte = 0x0C || byte = 0x0D

/-- The bytes of a text without ASCII white space. -/
def stripped (s : Text) : Bytes :=
  s.toBytes.filter fun byte => !isAsciiWhitespace byte

/-- The position of the first `=` with other bytes behind it, or with too many. -/
def misplaced (bytes : Bytes) : Bool :=
  match bytes.findIdx? (· = '='.toUInt8) with
  | none => false
  | some pos =>
      pos < bytes.length - 2 ||
        !(bytes.drop pos).all (· = '='.toUInt8) || 2 < bytes.length - pos

/-- The values of the last two characters of a group and the number of bytes. -/
def groupEnd (last : Bool) (c d : UInt8) : Option (UInt8 × UInt8 × Nat) :=
  if c = '='.toUInt8 ∧ d = '='.toUInt8 ∧ last = true then some (0, 0, 1)
  else if d = '='.toUInt8 ∧ last = true then
    (table c).map fun c => (c, 0, 2)
  else if c ≠ '='.toUInt8 ∧ d ≠ '='.toUInt8 then
    (table c).bind fun c => (table d).map fun d => (c, d, 3)
  else none

/-- The bytes of one group. -/
def group (last : Bool) (first second third fourth : UInt8) : Option Bytes :=
  (table first).bind fun a =>
    (table second).bind fun b =>
      (groupEnd last third fourth).map fun (c, d, n) =>
        [a <<< 2 ||| b >>> 4] ++
          ((if 2 ≤ n then [b <<< 4 ||| c >>> 2] else []) ++
            if 3 ≤ n then [c <<< 6 ||| d] else [])

/-- The groups one after the other; the last one has nothing behind it. -/
def groups : Bytes → Option Bytes
  | first :: second :: third :: fourth :: rest =>
      (group rest.isEmpty first second third fourth).bind fun out =>
        (groups rest).map (out ++ ·)
  | _ => some []

def b64Decode (s : Text) : Option Bytes :=
  let bytes := stripped s
  if bytes = [] ∨ bytes.length % 4 ≠ 0 then none
  else if bytes.getD 0 0 = '='.toUInt8 ∨ bytes.getD 1 0 = '='.toUInt8 then none
  else if misplaced bytes = true then none
  else groups bytes

/-! ## Characters and groups -/

theorem table_symbol {value : Nat} (small : value < 64) :
    table (symbol value) = some (UInt8.ofNat value) := by
  have all : ∀ value < 64, table (symbol value) = some (UInt8.ofNat value) := by
    decide +kernel
  exact all value small

variable {byte : UInt8}

theorem table_eq_some {value : UInt8} (read : table byte = some value) :
    value.toNat < 64 ∧ byte = symbol value.toNat := by
  have spelled : ∀ number : Nat,
      UInt8.ofNat number = symbol value.toNat → byte.toNat = number →
        byte = symbol value.toNat := by
    intro number same code
    rw [← same, ← code, UInt8.ofNat_toNat]
  unfold table at read
  split_ifs at read with upper lower digit plus slash
  · have least : 65 ≤ byte.toNat := UInt8.le_iff_toNat_le.1 upper.1
    have most : byte.toNat ≤ 90 := UInt8.le_iff_toNat_le.1 upper.2
    have code : value.toNat = byte.toNat - 65 := by
      rw [← Option.some.inj read, UInt8.toNat_sub_of_le _ _ upper.1]
      rfl
    refine ⟨by omega, spelled (value.toNat + 65) ?_ (by omega)⟩
    rw [symbol, if_pos (by omega)]
  · have least : 97 ≤ byte.toNat := UInt8.le_iff_toNat_le.1 lower.1
    have most : byte.toNat ≤ 122 := UInt8.le_iff_toNat_le.1 lower.2
    have code : value.toNat = byte.toNat - 71 := by
      rw [← Option.some.inj read, UInt8.toNat_add,
        UInt8.toNat_sub_of_le _ _ lower.1]
      show (byte.toNat - 97 + 26) % 2 ^ 8 = _
      omega
    refine ⟨by omega, spelled (value.toNat + 71) ?_ (by omega)⟩
    rw [symbol, if_neg (by omega), if_pos (by omega)]
  · have least : 48 ≤ byte.toNat := UInt8.le_iff_toNat_le.1 digit.1
    have most : byte.toNat ≤ 57 := UInt8.le_iff_toNat_le.1 digit.2
    have code : value.toNat = byte.toNat + 4 := by
      rw [← Option.some.inj read, UInt8.toNat_add,
        UInt8.toNat_sub_of_le _ _ digit.1]
      show (byte.toNat - 48 + 52) % 2 ^ 8 = _
      omega
    refine ⟨by omega, spelled (value.toNat - 4) ?_ (by omega)⟩
    rw [symbol, if_neg (by omega), if_neg (by omega), if_pos (by omega)]
  · rw [← Option.some.inj read, plus]
    exact ⟨by decide, rfl⟩
  · rw [← Option.some.inj read, slash]
    exact ⟨by decide, rfl⟩

variable {b a : Nat}

theorem firstByte_eq (smallA : a < 64) (smallB : b < 64) :
    UInt8.ofNat a <<< 2 ||| UInt8.ofNat b >>> 4 = UInt8.ofNat (a * 4 + b / 16) := by
  rw [← UInt8.toNat_inj, UInt8.toNat_or, UInt8.toNat_shiftLeft,
    UInt8.toNat_shiftRight, toNat_ofNat (by omega), toNat_ofNat (by omega),
    toNat_ofNat (by omega)]
  show a <<< 2 % 2 ^ 8 ||| b >>> 4 = _
  rw [Nat.shiftRight_eq_div_pow, Nat.shiftLeft_eq, Nat.mod_eq_of_lt (by omega),
    ← Nat.shiftLeft_eq, ← Nat.shiftLeft_add_eq_or_of_lt (by omega),
    Nat.shiftLeft_eq]

variable {c : Nat}

theorem secondByte_eq (smallB : b < 64) (smallC : c < 64) :
    UInt8.ofNat b <<< 4 ||| UInt8.ofNat c >>> 2 =
      UInt8.ofNat (b % 16 * 16 + c / 4) := by
  rw [← UInt8.toNat_inj, UInt8.toNat_or, UInt8.toNat_shiftLeft,
    UInt8.toNat_shiftRight, toNat_ofNat (by omega), toNat_ofNat (by omega),
    toNat_ofNat (by omega)]
  show b <<< 4 % 2 ^ 8 ||| c >>> 2 = _
  have kept : b * 2 ^ 4 % 2 ^ 8 = b % 16 * 2 ^ 4 := by omega
  rw [Nat.shiftRight_eq_div_pow, Nat.shiftLeft_eq, kept, ← Nat.shiftLeft_eq,
    ← Nat.shiftLeft_add_eq_or_of_lt (by omega), Nat.shiftLeft_eq]

theorem thirdByte_eq {d : Nat} (smallC : c < 64) (smallD : d < 64) :
    UInt8.ofNat c <<< 6 ||| UInt8.ofNat d = UInt8.ofNat (c % 4 * 64 + d) := by
  rw [← UInt8.toNat_inj, UInt8.toNat_or, UInt8.toNat_shiftLeft,
    toNat_ofNat (by omega), toNat_ofNat (by omega), toNat_ofNat (by omega)]
  show c <<< 6 % 2 ^ 8 ||| d = _
  have kept : c * 2 ^ 6 % 2 ^ 8 = c % 4 * 2 ^ 6 := by omega
  rw [Nat.shiftLeft_eq, kept, ← Nat.shiftLeft_eq,
    ← Nat.shiftLeft_add_eq_or_of_lt (by omega), Nat.shiftLeft_eq]

theorem spells_of_group {last : Bool} {first second third fourth : UInt8}
    {out : Bytes} (read : group last first second third fourth = some out) :
    (last = true ∧ Spells [first, second, third, fourth] out) ∨
      ∀ {rest bytes : Bytes}, Spells rest bytes →
        Spells (first :: second :: third :: fourth :: rest) (out ++ bytes) := by
  rcases Option.bind_eq_some_iff.1 read with ⟨a, readA, read⟩
  rcases Option.bind_eq_some_iff.1 read with ⟨b, readB, read⟩
  rcases Option.map_eq_some_iff.1 read with ⟨⟨c, d, count⟩, ending, rfl⟩
  rcases table_eq_some readA with ⟨smallA, rfl⟩
  rcases table_eq_some readB with ⟨smallB, rfl⟩
  have high := firstByte_eq smallA smallB
  rw [UInt8.ofNat_toNat, UInt8.ofNat_toNat] at high
  unfold groupEnd at ending
  split_ifs at ending with twice once none
  · rw [Option.some.injEq] at ending
    cases ending
    rcases twice with ⟨rfl, rfl, final⟩
    refine Or.inl ⟨final, ?_⟩
    rw [high]
    exact .one smallA smallB
  · rcases once with ⟨rfl, final⟩
    rcases Option.map_eq_some_iff.1 ending with ⟨value, readC, same⟩
    cases same
    rcases table_eq_some readC with ⟨smallC, rfl⟩
    have middle := secondByte_eq smallB smallC
    rw [UInt8.ofNat_toNat, UInt8.ofNat_toNat] at middle
    refine Or.inl ⟨final, ?_⟩
    show Spells _ [a <<< 2 ||| b >>> 4, b <<< 4 ||| c >>> 2]
    rw [high, middle]
    exact .two smallA smallB smallC
  · rcases Option.bind_eq_some_iff.1 ending with ⟨valueC, readC, ending⟩
    rcases Option.map_eq_some_iff.1 ending with ⟨valueD, readD, same⟩
    cases same
    rcases table_eq_some readC with ⟨smallC, rfl⟩
    rcases table_eq_some readD with ⟨smallD, rfl⟩
    have middle := secondByte_eq smallB smallC
    have low := thirdByte_eq smallC smallD
    rw [UInt8.ofNat_toNat, UInt8.ofNat_toNat] at middle low
    refine Or.inr fun spells => ?_
    show Spells _ ([a <<< 2 ||| b >>> 4, b <<< 4 ||| c >>> 2, c <<< 6 ||| d] ++ _)
    rw [high, middle, low]
    exact .three smallA smallB smallC smallD spells

theorem group_one (smallA : a < 64) (smallB : b < 64) :
    group true (symbol a) (symbol b) pad pad =
      some [UInt8.ofNat (a * 4 + b / 16)] := by
  rw [group, table_symbol smallA, table_symbol smallB, ← firstByte_eq smallA smallB]
  rfl

theorem group_two (smallA : a < 64) (smallB : b < 64) (smallC : c < 64) :
    group true (symbol a) (symbol b) (symbol c) pad =
      some [UInt8.ofNat (a * 4 + b / 16), UInt8.ofNat (b % 16 * 16 + c / 4)] := by
  have ending : groupEnd true (symbol c) pad = some (UInt8.ofNat c, 0, 2) := by
    rw [groupEnd, if_neg fun both => symbol_ne_pad smallC both.1, if_pos ⟨rfl, rfl⟩,
      table_symbol smallC]
    rfl
  rw [group, table_symbol smallA, table_symbol smallB, Option.bind_some,
    Option.bind_some, ending, ← firstByte_eq smallA smallB,
    ← secondByte_eq smallB smallC]
  rfl

theorem group_three (last : Bool) {d : Nat} (smallA : a < 64)
    (smallB : b < 64) (smallC : c < 64) (smallD : d < 64) :
    group last (symbol a) (symbol b) (symbol c) (symbol d) =
      some [UInt8.ofNat (a * 4 + b / 16), UInt8.ofNat (b % 16 * 16 + c / 4),
        UInt8.ofNat (c % 4 * 64 + d)] := by
  have ending : groupEnd last (symbol c) (symbol d) =
      some (UInt8.ofNat c, UInt8.ofNat d, 3) := by
    rw [groupEnd, if_neg fun both => symbol_ne_pad smallC both.1,
      if_neg fun both => symbol_ne_pad smallD both.1,
      if_pos ⟨symbol_ne_pad smallC, symbol_ne_pad smallD⟩, table_symbol smallC,
      table_symbol smallD]
    rfl
  rw [group, table_symbol smallA, table_symbol smallB, Option.bind_some,
    Option.bind_some, ending, ← firstByte_eq smallA smallB,
    ← secondByte_eq smallB smallC, ← thirdByte_eq smallC smallD]
  rfl

variable {text out : Bytes}

theorem spells_of_groups (whole : text.length % 4 = 0)
    (read : groups text = some out) : Spells text out := by
  induction text using groups.induct generalizing out with
  | case1 first second third fourth rest ih =>
      rcases Option.bind_eq_some_iff.1 read with ⟨front, here, read⟩
      rcases Option.map_eq_some_iff.1 read with ⟨back, there, rfl⟩
      simp only [List.length_cons] at whole
      have spells := ih (by omega) there
      rcases spells_of_group here with ⟨final, ended⟩ | further
      · rw [List.isEmpty_iff] at final
        rw [final] at there ⊢
        cases there
        rw [List.append_nil]
        exact ended
      · exact further spells
  | case2 text short =>
      cases text with
      | nil =>
          cases read
          exact .empty
      | cons first text =>
          rcases text with _ | ⟨second, _ | ⟨third, _ | ⟨fourth, rest⟩⟩⟩
          · simp at whole
          · simp at whole
          · simp at whole
          · exact absurd rfl (short first second third fourth rest)

theorem groups_of_spells (spells : Spells text out) :
    groups text = some out := by
  induction spells with
  | empty => rfl
  | one smallA smallB =>
      rw [groups, List.isEmpty_nil, group_one smallA smallB]
      rfl
  | two smallA smallB smallC =>
      rw [groups, List.isEmpty_nil, group_two smallA smallB smallC]
      rfl
  | three smallA smallB smallC smallD _ ih =>
      rw [groups, group_three _ smallA smallB smallC smallD, ih]
      rfl

/-- The padding of a text of groups stands where the decoder wants it. -/
theorem misplaced_of_spells (spells : Spells text out) :
    misplaced text = false := by
  rcases spells.shape with ⟨_, front, back, rfl, none, padding⟩
  have before : front.findIdx? (· = '='.toUInt8) = Option.none := by
    rw [List.findIdx?_eq_none_iff]
    intro byte member
    refine decide_eq_false fun same => none ?_
    rw [same] at member
    exact member
  rw [misplaced, List.findIdx?_append, before, Option.none_or]
  rcases padding with rfl | rfl | rfl
  · rfl
  · have position : [pad].findIdx? (· = '='.toUInt8) = some 0 := rfl
    rw [position]
    simp [pad, show '='.toUInt8 = (61 : UInt8) from rfl]
  · have position : [pad, pad].findIdx? (· = '='.toUInt8) = some 0 := rfl
    rw [position]
    simp [pad, show '='.toUInt8 = (61 : UInt8) from rfl]

theorem first_of_spells (spells : Spells text out) (nonempty : text ≠ []) :
    ¬ (text.getD 0 0 = '='.toUInt8 ∨ text.getD 1 0 = '='.toUInt8) := by
  rw [not_or]
  cases spells with
  | empty => exact absurd rfl nonempty
  | one smallA smallB | two smallA smallB | three smallA smallB =>
      exact ⟨symbol_ne_pad smallA, symbol_ne_pad smallB⟩

/-- The decoder reads the texts of groups that are not empty, whatever their
unused bits. -/
theorem b64Decode_eq_some {s : Text} :
    b64Decode s = some out ↔ stripped s ≠ [] ∧ Spells (stripped s) out := by
  rw [b64Decode]
  constructor
  · intro read
    split_ifs at read with short first position
    rw [not_or, not_not] at short
    exact ⟨short.1, spells_of_groups short.2 read⟩
  · rintro ⟨nonempty, spells⟩
    rw [if_neg (not_or.2 ⟨nonempty, not_not.2 spells.shape.1⟩),
      if_neg (first_of_spells spells nonempty),
      if_neg (by rw [misplaced_of_spells spells]; exact Bool.false_ne_true)]
    exact groups_of_spells spells

/-! ## Encoding as a text -/

/-- The encoding of bytes as a text. -/
def encodeText (bytes : Bytes) : Text :=
  (encode bytes).map fun byte => Char.ofNat byte.toNat

theorem encoded_byte {bytes : Bytes} (spells : Spells text bytes)
    (member : byte ∈ text) :
    byte = pad ∨ ∃ value < 64, byte = symbol value := by
  induction spells with
  | empty => cases member
  | one smallA smallB =>
      simp only [List.mem_cons, List.not_mem_nil, or_false] at member
      rcases member with rfl | rfl | rfl | rfl
      · exact Or.inr ⟨_, smallA, rfl⟩
      · exact Or.inr ⟨_, smallB, rfl⟩
      · exact Or.inl rfl
      · exact Or.inl rfl
  | two smallA smallB smallC =>
      simp only [List.mem_cons, List.not_mem_nil, or_false] at member
      rcases member with rfl | rfl | rfl | rfl
      · exact Or.inr ⟨_, smallA, rfl⟩
      · exact Or.inr ⟨_, smallB, rfl⟩
      · exact Or.inr ⟨_, smallC, rfl⟩
      · exact Or.inl rfl
  | three smallA smallB smallC smallD _ ih =>
      simp only [List.mem_cons] at member
      rcases member with rfl | rfl | rfl | rfl | later
      · exact Or.inr ⟨_, smallA, rfl⟩
      · exact Or.inr ⟨_, smallB, rfl⟩
      · exact Or.inr ⟨_, smallC, rfl⟩
      · exact Or.inr ⟨_, smallD, rfl⟩
      · exact ih later

theorem encodeChar_of_encoded
    (encoded : byte = pad ∨ ∃ value < 64, byte = symbol value) :
    String.utf8EncodeChar (Char.ofNat byte.toNat) = [byte] ∧
      isAsciiWhitespace byte = false := by
  have all : ∀ value < 64,
      String.utf8EncodeChar (Char.ofNat (symbol value).toNat) = [symbol value] ∧
        isAsciiWhitespace (symbol value) = false := by
    decide +kernel
  rcases encoded with rfl | ⟨value, small, rfl⟩
  · decide +kernel
  · exact all value small

theorem stripped_encodeText (bytes : Bytes) :
    stripped (encodeText bytes) = encode bytes := by
  have carried : ∀ text : Bytes,
      (∀ byte ∈ text, byte = pad ∨ ∃ value < 64, byte = symbol value) →
        stripped (text.map fun byte => Char.ofNat byte.toNat) = text := by
    intro text encoded
    induction text with
    | nil => rfl
    | cons byte text ih =>
        rcases encodeChar_of_encoded (encoded byte List.mem_cons_self) with
          ⟨single, dark⟩
        have rest := ih fun other member =>
          encoded other (List.mem_cons_of_mem _ member)
        rw [stripped] at rest ⊢
        rw [List.map_cons, Text.toBytes, List.flatMap_cons, single,
          List.singleton_append, List.filter_cons_of_pos (by rw [dark]; rfl)]
        exact congrArg (byte :: ·) rest
  exact carried _ fun byte member => encoded_byte (encode_spells bytes) member

/-! ## Strict decoding -/

/-- Where a text of groups has zero in its unused bits, the decoder is the
inverse of the encoder, but for the empty text, which it refuses. -/
theorem b64_decode_inverse :
    (∀ s, (WellFormed (stripped s) → Canonical (stripped s)) →
      ((b64Decode s).isSome = true ↔ stripped s ≠ [] ∧ Canonical (stripped s)) ∧
        ∀ out, b64Decode s = some out → encode out = stripped s) ∧
    ∀ bytes, bytes ≠ [] → b64Decode (encodeText bytes) = some bytes := by
  constructor
  · intro s zero
    have read : ∀ bytes, encode bytes = stripped s → stripped s ≠ [] →
        b64Decode s = some bytes := by
      intro bytes same nonempty
      refine b64Decode_eq_some.2 ⟨nonempty, ?_⟩
      rw [← same]
      exact encode_spells bytes
    constructor
    · rw [Option.isSome_iff_exists]
      constructor
      · rintro ⟨out, found⟩
        rcases b64Decode_eq_some.1 found with ⟨nonempty, spells⟩
        exact ⟨nonempty, zero ⟨out, spells⟩⟩
      · rintro ⟨nonempty, canonical⟩
        rcases canonical.encoded with ⟨bytes, same⟩
        exact ⟨bytes, read bytes same nonempty⟩
    · intro out found
      rcases b64Decode_eq_some.1 found with ⟨nonempty, spells⟩
      rcases (zero ⟨out, spells⟩).encoded with ⟨bytes, same⟩
      rw [read bytes same nonempty, Option.some.injEq] at found
      rw [← found, same]
  · intro bytes nonempty
    refine b64Decode_eq_some.2 ?_
    rw [stripped_encodeText]
    exact ⟨encode_ne_nil nonempty, encode_spells bytes⟩

/-- The encoding of no bytes is refused. -/
theorem decoding_not_strict :
    ¬ ((∀ s, (b64Decode s).isSome = true ↔ Canonical (stripped s)) ∧
      (∀ s out, b64Decode s = some out → encode out = stripped s) ∧
        ∀ bytes, b64Decode (encodeText bytes) = some bytes) := by
  rintro ⟨_, _, claim⟩
  have refused : b64Decode (encodeText []) = none := rfl
  rw [claim] at refused
  cases refused

end FireCrow.DockerAuthz
