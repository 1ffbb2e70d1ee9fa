import FireCrow.Library.Text

/-!
# A digest of texts

`TextDigest` is a hash function of texts with a textual result.  Results that
use it hold of any function.  `TextDigest.sha256` is the instance that the
programs run with: SHA-256 of the UTF-8 bytes, written in lower-case
hexadecimal, computed on natural numbers modulo `2 ^ 32`.
-/

namespace FireCrow.Library

/-- A hash function of texts. -/
class TextDigest where
  hexDigest : Text → Text

namespace Sha256

/-- The UTF-8 bytes of a character. -/
def encodeChar (character : Char) : List Nat :=
  let code := character.toNat
  if code < 0x80 then [code]
  else if code < 0x800 then [0xC0 + code / 64, 0x80 + code % 64]
  else if code < 0x10000 then
    [0xE0 + code / 4096, 0x80 + code / 64 % 64, 0x80 + code % 64]
  else
    [0xF0 + code / 262144, 0x80 + code / 4096 % 64, 0x80 + code / 64 % 64,
      0x80 + code % 64]

def roundConstants : List Nat :=
  [0x428a2f98, 0x71374491, 0xb5c0fbcf, 0xe9b5dba5, 0x3956c25b, 0x59f111f1,
    0x923f82a4, 0xab1c5ed5, 0xd807aa98, 0x12835b01, 0x243185be, 0x550c7dc3,
    0x72be5d74, 0x80deb1fe, 0x9bdc06a7, 0xc19bf174, 0xe49b69c1, 0xefbe4786,
    0x0fc19dc6, 0x240ca1cc, 0x2de92c6f, 0x4a7484aa, 0x5cb0a9dc, 0x76f988da,
    0x983e5152, 0xa831c66d, 0xb00327c8, 0xbf597fc7, 0xc6e00bf3, 0xd5a79147,
    0x06ca6351, 0x14292967, 0x27b70a85, 0x2e1b2138, 0x4d2c6dfc, 0x53380d13,
    0x650a7354, 0x766a0abb, 0x81c2c92e, 0x92722c85, 0xa2bfe8a1, 0xa81a664b,
    0xc24b8b70, 0xc76c51a3, 0xd192e819, 0xd6990624, 0xf40e3585, 0x106aa070,
    0x19a4c116, 0x1e376c08, 0x2748774c, 0x34b0bcb5, 0x391c0cb3, 0x4ed8aa4a,
    0x5b9cca4f, 0x682e6ff3, 0x748f82ee, 0x78a5636f, 0x84c87814, 0x8cc70208,
    0x90befffa, 0xa4506ceb, 0xbef9a3f7, 0xc67178f2]

/-- The eight working words. -/
structure Words where
  a : Nat
  b : Nat
  c : Nat
  d : Nat
  e : Nat
  f : Nat
  g : Nat
  h : Nat

def initialWords : Words :=
  ⟨0x6a09e667, 0xbb67ae85, 0x3c6ef372, 0xa54ff53a, 0x510e527f, 0x9b05688c,
    0x1f83d9ab, 0x5be0cd19⟩

def rotateRight (word count : Nat) : Nat :=
  (word >>> count) ||| ((word <<< (32 - count)) % 2 ^ 32)

/-- One round with its message word and its constant. -/
def round (words : Words) (input : Nat × Nat) : Words :=
  let sum1 :=
    (rotateRight words.e 6 ^^^ rotateRight words.e 11) ^^^
      rotateRight words.e 25
  let choice := (words.e &&& words.f) ^^^ ((0xFFFFFFFF ^^^ words.e) &&& words.g)
  let first := words.h + sum1 + choice + input.2 + input.1
  let sum0 :=
    (rotateRight words.a 2 ^^^ rotateRight words.a 13) ^^^
      rotateRight words.a 22
  let majority :=
    ((words.a &&& words.b) ^^^ (words.a &&& words.c)) ^^^
      (words.b &&& words.c)
  ⟨(first + sum0 + majority) % 2 ^ 32, words.a, words.b, words.c,
    (words.d + first) % 2 ^ 32, words.e, words.f, words.g⟩

/-- The next message word from the sixteen before it. -/
def nextMessageWord (window : List Nat) : Nat :=
  let low := window.getD 1 0
  let high := window.getD 14 0
  let small0 := (rotateRight low 7 ^^^ rotateRight low 18) ^^^ (low >>> 3)
  let small1 := (rotateRight high 17 ^^^ rotateRight high 19) ^^^ (high >>> 10)
  (window.getD 0 0 + small0 + window.getD 9 0 + small1) % 2 ^ 32

/-- The message words of one block. -/
def schedule : Nat → List Nat → List Nat
  | 0, _ => []
  | count + 1, window =>
      window.headD 0 ::
        schedule count (window.tail ++ [nextMessageWord window])

def compress (words : Words) (block : List Nat) : Words :=
  let last := ((schedule 64 block).zip roundConstants).foldl round words
  ⟨(words.a + last.a) % 2 ^ 32, (words.b + last.b) % 2 ^ 32,
    (words.c + last.c) % 2 ^ 32, (words.d + last.d) % 2 ^ 32,
    (words.e + last.e) % 2 ^ 32, (words.f + last.f) % 2 ^ 32,
    (words.g + last.g) % 2 ^ 32, (words.h + last.h) % 2 ^ 32⟩

/-- Big-endian words of a byte list. -/
def wordsOfBytes : List Nat → List Nat
  | a :: b :: c :: d :: rest =>
      (((a * 256 + b) * 256 + c) * 256 + d) :: wordsOfBytes rest
  | _ => []

/-- The padded message as words. -/
def pad (bytes : List Nat) : List Nat :=
  let zeros := (119 - bytes.length % 64) % 64
  let bits := bytes.length * 8
  wordsOfBytes (bytes ++ 0x80 :: List.replicate zeros 0) ++
    [bits / 2 ^ 32 % 2 ^ 32, bits % 2 ^ 32]

/-- Compress the blocks of sixteen words in order. -/
def compressAll : Nat → Words → List Nat → Words
  | 0, words, _ => words
  | count + 1, words, message =>
      compressAll count (compress words (message.take 16)) (message.drop 16)

def hexWord (word : Nat) : Text :=
  (List.range 8).map fun index =>
    let digit := word / 16 ^ (7 - index) % 16
    Char.ofNat (if digit < 10 then 48 + digit else 87 + digit)

/-- The digest of a text in hexadecimal. -/
def hexDigest (text : Text) : Text :=
  let message := pad (text.flatMap encodeChar)
  let final := compressAll (message.length / 16) initialWords message
  [final.a, final.b, final.c, final.d, final.e, final.f, final.g,
    final.h].flatMap hexWord

/-! ## Bytes -/

def bytesOfWord (word : Nat) : List Nat :=
  [word / 2 ^ 24 % 256, word / 2 ^ 16 % 256, word / 2 ^ 8 % 256, word % 256]

/-- The digest of bytes. -/
@[irreducible]
def digest (bytes : List Nat) : List Nat :=
  let message := pad bytes
  let final := compressAll (message.length / 16) initialWords message
  [final.a, final.b, final.c, final.d, final.e, final.f, final.g,
    final.h].flatMap bytesOfWord

/-- The keyed digest of bytes, HMAC with SHA-256. -/
@[irreducible]
def hmac (key bytes : List Nat) : List Nat :=
  let short := if 64 < key.length then digest key else key
  let block := short ++ List.replicate (64 - short.length) 0
  digest (block.map (· ^^^ 0x5c) ++ digest (block.map (· ^^^ 0x36) ++ bytes))

/-- Bytes in lower-case hexadecimal. -/
def hexEncode (bytes : List Nat) : Text :=
  bytes.flatMap fun byte =>
    [byte / 16 % 16, byte % 16].map fun digit =>
      Char.ofNat (if digit < 10 then 48 + digit else 87 + digit)

theorem digest_ne_nil (bytes : List Nat) : digest bytes ≠ [] := by
  rw [digest]
  generalize compressAll _ _ _ = final
  exact List.cons_ne_nil _ _

theorem hmac_ne_nil (key bytes : List Nat) : hmac key bytes ≠ [] := by
  rw [hmac]
  exact digest_ne_nil _

theorem hexEncode_ne_nil {bytes : List Nat} (nonempty : bytes ≠ []) :
    hexEncode bytes ≠ [] := by
  cases bytes with
  | nil => exact absurd rfl nonempty
  | cons byte rest => exact List.cons_ne_nil _ _

end Sha256

/-- SHA-256 as the digest of texts. -/
@[reducible]
def TextDigest.sha256 : TextDigest := ⟨Sha256.hexDigest⟩

end FireCrow.Library
