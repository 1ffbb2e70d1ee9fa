import FireCrow.Library.Utf8

/-!
# Base 64

Three bytes are written as four characters of six bits.  The last group is
padded, and the bits that the padding leaves unused are zero in what the
encoder writes.  A text of complete groups stands for bytes whatever these bits
are.
-/

namespace FireCrow.Library.Base64

/-- `=` -/
def pad : UInt8 := 61

/-- The character of a value below 64. -/
def symbol (value : Nat) : UInt8 :=
  UInt8.ofNat <|
    if value < 26 then value + 65
    else if value < 52 then value + 71
    else if value < 62 then value - 4
    else if value = 62 then 43
    else 47

def encode : Bytes → Bytes
  | first :: second :: third :: rest =>
      symbol (first.toNat / 4) ::
        symbol (first.toNat % 4 * 16 + second.toNat / 16) ::
          symbol (second.toNat % 16 * 4 + third.toNat / 64) ::
            symbol (third.toNat % 64) :: encode rest
  | [first, second] =>
      [symbol (first.toNat / 4),
        symbol (first.toNat % 4 * 16 + second.toNat / 16),
        symbol (second.toNat % 16 * 4), pad]
  | [first] => [symbol (first.toNat / 4), symbol (first.toNat % 4 * 16), pad, pad]
  | [] => []

/-- Complete groups, the last one padded, with zero in its unused bits. -/
inductive Canonical : Bytes → Prop where
  | empty : Canonical []
  | one {a b : Nat} : a < 64 → b < 4 →
      Canonical [symbol a, symbol (b * 16), pad, pad]
  | two {a b c : Nat} : a < 64 → b < 64 → c < 16 →
      Canonical [symbol a, symbol b, symbol (c * 4), pad]
  | three {a b c d : Nat} {rest : Bytes} : a < 64 → b < 64 → c < 64 → d < 64 →
      Canonical rest →
        Canonical (symbol a :: symbol b :: symbol c :: symbol d :: rest)

/-- Complete groups, the last one padded, and the bytes that they stand for. -/
inductive Spells : Bytes → Bytes → Prop where
  | empty : Spells [] []
  | one {a b : Nat} : a < 64 → b < 64 →
      Spells [symbol a, symbol b, pad, pad] [UInt8.ofNat (a * 4 + b / 16)]
  | two {a b c : Nat} : a < 64 → b < 64 → c < 64 →
      Spells [symbol a, symbol b, symbol c, pad]
        [UInt8.ofNat (a * 4 + b / 16), UInt8.ofNat (b % 16 * 16 + c / 4)]
  | three {a b c d : Nat} {rest bytes : Bytes} :
      a < 64 → b < 64 → c < 64 → d < 64 → Spells rest bytes →
        Spells (symbol a :: symbol b :: symbol c :: symbol d :: rest)
          (UInt8.ofNat (a * 4 + b / 16) :: UInt8.ofNat (b % 16 * 16 + c / 4) ::
            UInt8.ofNat (c % 4 * 64 + d) :: bytes)

/-- A text of complete groups, whatever the unused bits of the last one. -/
def WellFormed (text : Bytes) : Prop := ∃ bytes, Spells text bytes

/-! ## The alphabet -/

theorem symbol_ne_pad {value : Nat} (small : value < 64) : symbol value ≠ pad := by
  have all : ∀ value < 64, symbol value ≠ pad := by decide
  exact all value small

/-! ## Encoding and spelling -/

theorem encode_spells : ∀ bytes : Bytes, Spells (encode bytes) bytes
  | [] => .empty
  | [first] => by
      have small := first.toNat_lt
      have read := Spells.one (a := first.toNat / 4) (b := first.toNat % 4 * 16)
        (by omega) (by omega)
      have whole : first.toNat / 4 * 4 + first.toNat % 4 * 16 / 16 =
          first.toNat := by omega
      rwa [whole, UInt8.ofNat_toNat] at read
  | [first, second] => by
      have smallFirst := first.toNat_lt
      have smallSecond := second.toNat_lt
      have read := Spells.two (a := first.toNat / 4)
        (b := first.toNat % 4 * 16 + second.toNat / 16)
        (c := second.toNat % 16 * 4) (by omega) (by omega) (by omega)
      have wholeFirst : first.toNat / 4 * 4 +
          (first.toNat % 4 * 16 + second.toNat / 16) / 16 = first.toNat := by omega
      have wholeSecond : (first.toNat % 4 * 16 + second.toNat / 16) % 16 * 16 +
          second.toNat % 16 * 4 / 4 = second.toNat := by omega
      rwa [wholeFirst, wholeSecond, UInt8.ofNat_toNat, UInt8.ofNat_toNat] at read
  | first :: second :: third :: rest => by
      have smallFirst := first.toNat_lt
      have smallSecond := second.toNat_lt
      have smallThird := third.toNat_lt
      have read := Spells.three (a := first.toNat / 4)
        (b := first.toNat % 4 * 16 + second.toNat / 16)
        (c := second.toNat % 16 * 4 + third.toNat / 64)
        (d := third.toNat % 64) (by omega) (by omega) (by omega) (by omega)
        (encode_spells rest)
      have wholeFirst : first.toNat / 4 * 4 +
          (first.toNat % 4 * 16 + second.toNat / 16) / 16 = first.toNat := by omega
      have wholeSecond : (first.toNat % 4 * 16 + second.toNat / 16) % 16 * 16 +
          (second.toNat % 16 * 4 + third.toNat / 64) / 4 = second.toNat := by omega
      have wholeThird : (second.toNat % 16 * 4 + third.toNat / 64) % 4 * 64 +
          third.toNat % 64 = third.toNat := by omega
      rwa [wholeFirst, wholeSecond, wholeThird, UInt8.ofNat_toNat,
        UInt8.ofNat_toNat, UInt8.ofNat_toNat] at read

theorem toNat_ofNat {value : Nat} (small : value < 256) :
    (UInt8.ofNat value).toNat = value := by
  rw [UInt8.toNat_ofNat']
  exact Nat.mod_eq_of_lt small

/-- A canonical text is the encoding of some bytes. -/
theorem Canonical.encoded {text : Bytes} (canonical : Canonical text) :
    ∃ bytes, encode bytes = text := by
  induction canonical with
  | empty => exact ⟨[], rfl⟩
  | @one a b smallA smallB =>
      refine ⟨[UInt8.ofNat (a * 4 + b)], ?_⟩
      have high : (a * 4 + b) / 4 = a := by omega
      have low : (a * 4 + b) % 4 = b := by omega
      rw [encode, toNat_ofNat (by omega), high, low]
  | @two a b c smallA smallB smallC =>
      refine ⟨[UInt8.ofNat (a * 4 + b / 16), UInt8.ofNat (b % 16 * 16 + c)], ?_⟩
      have high : (a * 4 + b / 16) / 4 = a := by omega
      have middle : (a * 4 + b / 16) % 4 * 16 + (b % 16 * 16 + c) / 16 = b := by
        omega
      have low : (b % 16 * 16 + c) % 16 = c := by omega
      rw [encode, toNat_ofNat (by omega), toNat_ofNat (by omega), high, middle,
        low]
  | @three a b c d rest smallA smallB smallC smallD _ ih =>
      rcases ih with ⟨bytes, same⟩
      refine ⟨UInt8.ofNat (a * 4 + b / 16) :: UInt8.ofNat (b % 16 * 16 + c / 4) ::
        UInt8.ofNat (c % 4 * 64 + d) :: bytes, ?_⟩
      have first : (a * 4 + b / 16) / 4 = a := by omega
      have second : (a * 4 + b / 16) % 4 * 16 + (b % 16 * 16 + c / 4) / 16 = b := by
        omega
      have third : (b % 16 * 16 + c / 4) % 16 * 4 + (c % 4 * 64 + d) / 64 = c := by
        omega
      have fourth : (c % 4 * 64 + d) % 64 = d := by omega
      rw [encode, toNat_ofNat (by omega), toNat_ofNat (by omega),
        toNat_ofNat (by omega), first, second, third, fourth, same]

theorem encode_ne_nil {bytes : Bytes} (nonempty : bytes ≠ []) :
    encode bytes ≠ [] := by
  intro empty
  have spells := encode_spells bytes
  rw [empty] at spells
  cases spells
  exact nonempty rfl

/-! ## The shape of a text of groups -/

/-- Padding stands at the end only, behind two other characters at least. -/
theorem Spells.shape {text bytes : Bytes} (spells : Spells text bytes) :
    text.length % 4 = 0 ∧ ∃ front back, text = front ++ back ∧ pad ∉ front ∧
      (back = [] ∨ back = [pad] ∨ back = [pad, pad]) := by
  induction spells with
  | empty => exact ⟨rfl, [], [], rfl, List.not_mem_nil, Or.inl rfl⟩
  | @one a b smallA smallB =>
      refine ⟨by simp, [symbol a, symbol b], [pad, pad], rfl, ?_, Or.inr (Or.inr rfl)⟩
      simp [(symbol_ne_pad smallA).symm, (symbol_ne_pad smallB).symm]
  | @two a b c smallA smallB smallC =>
      refine ⟨by simp, [symbol a, symbol b, symbol c], [pad], rfl, ?_,
        Or.inr (Or.inl rfl)⟩
      simp [(symbol_ne_pad smallA).symm, (symbol_ne_pad smallB).symm,
        (symbol_ne_pad smallC).symm]
  | @three a b c d rest bytes smallA smallB smallC smallD _ ih =>
      rcases ih with ⟨whole, front, back, rfl, none, padding⟩
      refine ⟨?_, symbol a :: symbol b :: symbol c :: symbol d :: front, back, rfl,
        ?_, padding⟩
      · simp only [List.length_cons]
        omega
      · simp [(symbol_ne_pad smallA).symm, (symbol_ne_pad smallB).symm,
          (symbol_ne_pad smallC).symm, (symbol_ne_pad smallD).symm, none]

end FireCrow.Library.Base64
