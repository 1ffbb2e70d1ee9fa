import FireCrow.Library.Unicode

/-!
# Bytes of texts

The UTF-8 encoding of a text and the lossy decoding, which replaces every
malformed sequence by U+FFFD.  What decodes to ASCII is the encoding of it.
-/

namespace FireCrow.Library

abbrev Bytes := List UInt8

namespace Text

def toBytes (text : Text) : Bytes := text.flatMap String.utf8EncodeChar

end Text

namespace Bytes

/-- A continuation byte with the bits that it carries. -/
def continuation (byte : UInt8) : Option Nat :=
  if 0x80 ≤ byte.toNat ∧ byte.toNat ≤ 0xBF then some (byte.toNat - 0x80)
  else none

/-- The second bytes that may follow the first of a longer sequence. -/
def secondAllowed (first second : UInt8) : Bool :=
  let first := first.toNat
  let second := second.toNat
  (if first = 0xE0 then 0xA0 ≤ second else if first = 0xF0 then 0x90 ≤ second
    else 0x80 ≤ second) &&
  (if first = 0xED then second ≤ 0x9F else if first = 0xF4 then second ≤ 0x8F
    else second ≤ 0xBF)

/-- The character at the head, or U+FFFD for a malformed sequence, and the
bytes behind it. -/
def decodeChar (first : UInt8) (rest : Bytes) : Char × Bytes :=
  let lead := first.toNat
  if lead < 0x80 then (Char.ofNat lead, rest)
  else if 0xC2 ≤ lead ∧ lead ≤ 0xDF then
    match rest with
    | [] => ('\uFFFD', rest)
    | second :: after =>
        match continuation second with
        | none => ('\uFFFD', rest)
        | some low => (Char.ofNat ((lead - 0xC0) * 64 + low), after)
  else if 0xE0 ≤ lead ∧ lead ≤ 0xEF then
    match rest with
    | [] => ('\uFFFD', rest)
    | second :: after =>
        if secondAllowed first second then
          match after with
          | [] => ('\uFFFD', after)
          | third :: last =>
              match continuation third with
              | none => ('\uFFFD', after)
              | some low =>
                  (Char.ofNat ((lead - 0xE0) * 4096 +
                    (second.toNat - 0x80) * 64 + low), last)
        else ('\uFFFD', rest)
  else if 0xF0 ≤ lead ∧ lead ≤ 0xF4 then
    match rest with
    | [] => ('\uFFFD', rest)
    | second :: after =>
        if secondAllowed first second then
          match after with
          | [] => ('\uFFFD', after)
          | third :: last =>
              match continuation third with
              | none => ('\uFFFD', after)
              | some middle =>
                  match last with
                  | [] => ('\uFFFD', last)
                  | fourth :: behind =>
                      match continuation fourth with
                      | none => ('\uFFFD', last)
                      | some low =>
                          (Char.ofNat ((lead - 0xF0) * 262144 +
                            (second.toNat - 0x80) * 4096 + middle * 64 + low),
                            behind)
        else ('\uFFFD', rest)
  else ('\uFFFD', rest)

def fromUtf8LossyAfter : Nat → Bytes → Text
  | 0, _ => []
  | _ + 1, [] => []
  | fuel + 1, first :: rest =>
      let (character, after) := decodeChar first rest
      character :: fromUtf8LossyAfter fuel after

/-- Decode, with U+FFFD for every malformed sequence. -/
def fromUtf8Lossy (bytes : Bytes) : Text :=
  fromUtf8LossyAfter bytes.length bytes

theorem isAscii_ofNat {code : Nat} (valid : code.isValidChar)
    (large : 0x80 ≤ code) : Text.isAscii (Char.ofNat code) = false := by
  have same : (Char.ofNat code).val.toNat = code := by
    unfold Char.ofNat
    rw [dif_pos valid]
    simp [Char.ofNatAux]
  rw [Text.isAscii, same, decide_eq_false_iff_not]
  omega

theorem continuation_lt {byte : UInt8} {low : Nat}
    (follows : continuation byte = some low) : low < 64 := by
  unfold continuation at follows
  split at follows
  · have carried := Option.some.inj follows
    omega
  · cases follows

variable {first : UInt8}

theorem secondAllowed_bounds {second : UInt8}
    (allowed : secondAllowed first second = true) :
    0x80 ≤ second.toNat ∧ second.toNat ≤ 0xBF ∧
      (first.toNat = 0xE0 → 0xA0 ≤ second.toNat) ∧
      (first.toNat = 0xF0 → 0x90 ≤ second.toNat) ∧
      (first.toNat = 0xED → second.toNat ≤ 0x9F) ∧
      (first.toNat = 0xF4 → second.toNat ≤ 0x8F) := by
  unfold secondAllowed at allowed
  rw [Bool.and_eq_true] at allowed
  obtain ⟨least, most⟩ := allowed
  split at least <;> (try split at least) <;> split at most <;>
    (try split at most) <;>
    simp only [decide_eq_true_eq] at least most <;> omega

/-- Only a byte of ASCII decodes to a character of ASCII. -/
theorem decodeChar_ascii {rest : Bytes}
    (ascii : Text.isAscii (decodeChar first rest).1 = true) :
    first.toNat < 0x80 := by
  by_contra high
  refine absurd ascii (Bool.eq_false_iff.1 ?_)
  unfold decodeChar
  dsimp only
  rw [if_neg high]
  split
  · -- two bytes
    split
    · rfl
    · split
      · rfl
      · rename_i low follows
        have := continuation_lt follows
        exact isAscii_ofNat (Or.inl (by omega)) (by omega)
  · split
    · -- three bytes, never a surrogate
      split
      · rfl
      · split
        · rename_i second _ allowed
          have bounds := secondAllowed_bounds allowed
          split
          · rfl
          · split
            · rfl
            · rename_i low follows
              have := continuation_lt follows
              refine isAscii_ofNat ?_ (by omega)
              rw [Nat.isValidChar]
              omega
        · rfl
    · split
      · -- four bytes, never beyond the last character
        split
        · rfl
        · split
          · rename_i second _ allowed
            have bounds := secondAllowed_bounds allowed
            split
            · rfl
            · split
              · rfl
              · rename_i middle follows
                have := continuation_lt follows
                split
                · rfl
                · split
                  · rfl
                  · rename_i low followed
                    have := continuation_lt followed
                    refine isAscii_ofNat ?_ (by omega)
                    rw [Nat.isValidChar]
                    omega
          · rfl
      · rfl

theorem decodeChar_of_lt (small : first.toNat < 0x80)
    (rest : Bytes) : decodeChar first rest = (Char.ofNat first.toNat, rest) := by
  unfold decodeChar
  dsimp only
  rw [if_pos small]

variable {character : Char}

/-- The byte of a character of ASCII. -/
theorem utf8EncodeChar_ascii (ascii : Text.isAscii character = true) :
    String.utf8EncodeChar character = [character.val.toUInt8] :=
  String.utf8EncodeChar_eq_singleton (Text.utf8Size_of_ascii ascii)

/-- A byte of ASCII encodes its character alone. -/
theorem encode_of_mem {byte : UInt8}
    (member : byte ∈ String.utf8EncodeChar character)
    (small : byte.toNat < 0x80) : String.utf8EncodeChar character = [byte] := by
  have carried : ∀ code < 256, (UInt8.ofNat code).toNat = code :=
    fun code bound => UInt8.toNat_ofNat_of_lt' bound
  unfold String.utf8EncodeChar at member ⊢
  dsimp only at member ⊢
  split at member
  · rename_i ascii
    rw [if_pos ascii, List.mem_singleton.1 member]
  · exfalso
    split at member
    · simp only [List.mem_cons, List.not_mem_nil, or_false] at member
      rcases member with rfl | rfl <;> rw [carried _ (by omega)] at small <;> omega
    · split at member <;>
        simp only [List.mem_cons, List.not_mem_nil, or_false] at member
      · rcases member with rfl | rfl | rfl <;>
          rw [carried _ (by omega)] at small <;> omega
      · rcases member with rfl | rfl | rfl | rfl <;>
          rw [carried _ (by omega)] at small <;> omega

theorem toNat_val_ascii (ascii : Text.isAscii character = true) :
    character.val.toUInt8.toNat = character.toNat ∧ character.toNat < 0x80 := by
  have small : character.val.toNat < 128 := of_decide_eq_true ascii
  refine ⟨?_, small⟩
  rw [UInt32.toNat_toUInt8]
  exact Nat.mod_eq_of_lt (by omega)

/-- A byte of ASCII is decoded to the character that it encodes. -/
theorem decode_ascii_iff (ascii : Text.isAscii character = true) :
    (first.toNat < 0x80 ∧ Char.ofNat first.toNat = character) ↔
      first = character.val.toUInt8 := by
  obtain ⟨value, small⟩ := toNat_val_ascii ascii
  constructor
  · rintro ⟨low, rfl⟩
    rw [← UInt8.toNat_inj, value]
    have valid : first.toNat.isValidChar := Or.inl (by omega)
    unfold Char.ofNat
    rw [dif_pos valid]
    simp [Char.ofNatAux, Char.toNat]
  · rintro rfl
    rw [value]
    exact ⟨small, Char.ofNat_toNat character⟩

theorem fromUtf8LossyAfter_eq_iff (fuel : Nat) :
    ∀ (bytes : Bytes) (text : Text), bytes.length ≤ fuel →
      (∀ character ∈ text, Text.isAscii character = true) →
        (fromUtf8LossyAfter fuel bytes = text ↔ bytes = text.toBytes) := by
  have blank : ∀ text : Text,
      (∀ character ∈ text, Text.isAscii character = true) →
        ([] = text ↔ ([] : Bytes) = text.toBytes) := by
    intro text ascii
    cases text with
    | nil => exact ⟨fun _ => rfl, fun _ => rfl⟩
    | cons character text =>
        rw [Text.toBytes, List.flatMap_cons,
          utf8EncodeChar_ascii (ascii character List.mem_cons_self)]
        exact ⟨nofun, nofun⟩
  induction fuel with
  | zero =>
      intro bytes text short ascii
      rw [List.length_eq_zero_iff.1 (Nat.le_zero.1 short)]
      exact blank text ascii
  | succ fuel ih =>
      intro bytes text short ascii
      cases bytes with
      | nil => exact blank text ascii
      | cons first rest =>
          have shorter : rest.length ≤ fuel := Nat.le_of_succ_le_succ short
          cases text with
          | nil => exact ⟨nofun, nofun⟩
          | cons character text =>
              have here := ascii character List.mem_cons_self
              have later := fun other member =>
                ascii other (List.mem_cons_of_mem character member)
              rw [Text.toBytes, List.flatMap_cons, utf8EncodeChar_ascii here,
                List.singleton_append, List.cons.injEq, ← decode_ascii_iff here,
                ← Text.toBytes, ← ih rest text shorter later,
                fromUtf8LossyAfter]
              constructor
              · intro same
                have decoded : (decodeChar first rest).1 = character :=
                  (List.cons.inj same).1
                have others : fromUtf8LossyAfter fuel
                    (decodeChar first rest).2 = text := (List.cons.inj same).2
                have small : first.toNat < 0x80 :=
                  decodeChar_ascii ((congrArg Text.isAscii decoded).trans here)
                rw [decodeChar_of_lt small] at decoded others
                exact ⟨⟨small, decoded⟩, others⟩
              · rintro ⟨⟨small, decoded⟩, others⟩
                rw [decodeChar_of_lt small, decoded]
                exact congrArg (character :: ·) others

/-- Only the encoding of a text of ASCII decodes to it. -/
theorem fromUtf8Lossy_eq_iff {bytes : Bytes} {text : Text}
    (ascii : ∀ character ∈ text, Text.isAscii character = true) :
    fromUtf8Lossy bytes = text ↔ bytes = text.toBytes :=
  fromUtf8LossyAfter_eq_iff _ bytes text le_rfl ascii

/-- The byte of a character of ASCII is in an encoding with its character. -/
theorem mem_toBytes_iff {text : Text} (ascii : Text.isAscii character = true) :
    character.val.toUInt8 ∈ text.toBytes ↔ character ∈ text := by
  obtain ⟨value, small⟩ := toNat_val_ascii ascii
  rw [Text.toBytes, List.mem_flatMap]
  constructor
  · rintro ⟨other, member, encoded⟩
    have single := encode_of_mem encoded (value ▸ small)
    have otherAscii : Text.isAscii other = true := by
      have size : other.utf8Size = 1 := by
        rw [← String.length_utf8EncodeChar, single]
        rfl
      exact Text.isAscii_of_utf8Size size
    have same := single.symm.trans (utf8EncodeChar_ascii otherAscii)
    have equal : character = other := by
      rw [← ((decode_ascii_iff ascii).2 rfl).2,
        ← ((decode_ascii_iff otherAscii).2 rfl).2, List.singleton_inj.1 same]
    exact equal ▸ member
  · intro member
    exact ⟨character, member, by
      rw [utf8EncodeChar_ascii ascii]
      exact List.mem_singleton_self _⟩

end Bytes

end FireCrow.Library
