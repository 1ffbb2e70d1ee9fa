import FireCrow.Library.Text

/-!
# Network addresses

An address of either version is its bits.  Addresses are read as the standard
library reads them: four decimal numbers without leading zeros, or up to eight
hexadecimal groups, one run of zeros left out and the last two groups possibly
written as a version 4 address.
-/

namespace FireCrow.Library

abbrev Ipv4Addr := BitVec 32
abbrev Ipv6Addr := BitVec 128

inductive IpAddr where
  | v4 (address : Ipv4Addr)
  | v6 (address : Ipv6Addr)
deriving DecidableEq

namespace Ipv4Addr

/-- The octet at an index, the highest first. -/
def octet (address : Ipv4Addr) (index : Nat) : Nat :=
  address.toNat / 256 ^ (3 - index) % 256

def ofOctets (octets : List Nat) : Ipv4Addr :=
  BitVec.ofNat 32 (octets.foldl (fun bits octet => bits * 256 + octet) 0)

def isLoopback (address : Ipv4Addr) : Bool := address.octet 0 = 127

def isLinkLocal (address : Ipv4Addr) : Bool :=
  address.octet 0 = 169 && address.octet 1 = 254

def isPrivate (address : Ipv4Addr) : Bool :=
  address.octet 0 = 10 ||
    (address.octet 0 = 172 && address.octet 1 / 16 = 1) ||
    (address.octet 0 = 192 && address.octet 1 = 168)

def isBroadcast (address : Ipv4Addr) : Bool :=
  address = ofOctets [255, 255, 255, 255]

def isUnspecified (address : Ipv4Addr) : Bool := address = ofOctets [0, 0, 0, 0]

end Ipv4Addr

namespace Ipv6Addr

/-- The group of sixteen bits at an index, the highest first. -/
def segment (address : Ipv6Addr) (index : Nat) : Nat :=
  address.toNat / 65536 ^ (7 - index) % 65536

def ofSegments (segments : List Nat) : Ipv6Addr :=
  BitVec.ofNat 128
    (segments.foldl (fun bits segment => bits * 65536 + segment) 0)

def isLoopback (address : Ipv6Addr) : Bool :=
  address = ofSegments [0, 0, 0, 0, 0, 0, 0, 1]

def isUnspecified (address : Ipv6Addr) : Bool :=
  address = ofSegments [0, 0, 0, 0, 0, 0, 0, 0]

/-- `::ffff:a.b.c.d`. -/
def toIpv4Mapped (address : Ipv6Addr) : Option Ipv4Addr :=
  if address.toNat / 2 ^ 32 = 0xFFFF then
    some (BitVec.ofNat 32 (address.toNat % 2 ^ 32))
  else none

def isUnicastLinkLocal (address : Ipv6Addr) : Bool :=
  address.segment 0 / 64 = 0xFE80 / 64

def isUniqueLocal (address : Ipv6Addr) : Bool :=
  address.segment 0 / 512 = 0xFC00 / 512

def isMulticast (address : Ipv6Addr) : Bool := address.segment 0 / 256 = 0xFF

end Ipv6Addr

/-! ## Numbers -/

namespace Text

/-- The value of a digit. -/
def digit (radix : Nat) (character : Char) : Option Nat :=
  let code := character.toNat
  let value :=
    if isAsciiDigit character then some (code - '0'.toNat)
    else if isAsciiLowercase character then some (code - 'a'.toNat + 10)
    else if isAsciiUppercase character then some (code - 'A'.toNat + 10)
    else none
  value.filter fun value => value < radix

/-- The number that digits write. -/
def fromDigits (radix : Nat) (digits : Text) : Nat :=
  digits.foldl (fun number character =>
    number * radix + (digit radix character).getD 0) 0

/-- `from_str_radix` of an unsigned type, which admits a plus sign. -/
def parseUnsigned (radix bound : Nat) (text : Text) : Option Nat :=
  let digits := (text.stripPrefix "+").getD text
  if digits.isEmpty || digits.any fun character =>
      (digit radix character).isNone then none
  else (some (fromDigits radix digits)).filter fun number => number < bound

/-- The parts between white space. -/
def splitWhitespace (text : Text) : List Text :=
  (text.splitOnP isWhitespace).filter fun part => !part.isEmpty

def trimEnd (text : Text) : Text := text.rdropWhile isWhitespace

/-- The text before the first place of a needle, and the text behind it. -/
def splitOnceAt (needle : Text) : Text → Option (Text × Text)
  | [] => (stripPrefix [] needle).map fun rest => ([], rest)
  | character :: text =>
      match stripPrefix (character :: text) needle with
      | some rest => some ([], rest)
      | none =>
          (splitOnceAt needle text).map fun parts =>
            (character :: parts.1, parts.2)

end Text

/-! ## Reading addresses -/

namespace IpAddr

/-- A reader takes a value from the front of a text. -/
abbrev Reader (Value : Type) := Text → Option (Value × Text)

def readNumber (radix maxDigits bound : Nat) (allowZeroPrefix : Bool) :
    Reader Nat := fun text =>
  let isDigit := fun character => (Text.digit radix character).isSome
  let digits := text.takeWhile isDigit
  let number := Text.fromDigits radix digits
  if digits.isEmpty || maxDigits < digits.length ||
      (!allowZeroPrefix && digits.head? = some '0' && 1 < digits.length) ||
      bound ≤ number then none
  else some (number, text.dropWhile isDigit)

/-- A separator stands before every value but the first. -/
def readSeparator {Value : Type} (separator : Char) (index : Nat)
    (inner : Reader Value) : Reader Value := fun text =>
  if index = 0 then inner text
  else
    match text with
    | [] => none
    | character :: rest => if character = separator then inner rest else none

def readOctets : Nat → Nat → Reader (List Nat)
  | 0, _, text => some ([], text)
  | remaining + 1, index, text => do
      let (octet, rest) ←
        readSeparator '.' index (readNumber 10 3 256 false) text
      let (octets, rest) ← readOctets remaining (index + 1) rest
      return (octet :: octets, rest)

def readIpv4Addr : Reader Ipv4Addr := fun text => do
  let (octets, rest) ← readOctets 4 0 text
  return (Ipv4Addr.ofOctets octets, rest)

/-- The groups up to the first place where none can be read, and whether the
last two were written as a version 4 address. -/
def readGroups : Nat → Nat → Text → (List Nat × Bool) × Text
  | 0, _, text => (([], false), text)
  | remaining + 1, index, text =>
      let embedded :=
        if remaining = 0 then none
        else readSeparator ':' index readIpv4Addr text
      match embedded with
      | some (address, rest) =>
          (([address.toNat / 65536, address.toNat % 65536], true), rest)
      | none =>
          match readSeparator ':' index (readNumber 16 4 65536 true) text with
          | none => (([], false), text)
          | some (group, rest) =>
              let ((groups, ipv4), rest) := readGroups remaining (index + 1) rest
              ((group :: groups, ipv4), rest)

def readIpv6Addr : Reader Ipv6Addr := fun text =>
  let ((head, headIpv4), rest) := readGroups 8 0 text
  if head.length = 8 then some (Ipv6Addr.ofSegments head, rest)
  else if headIpv4 then none
  else
    match rest with
    | ':' :: ':' :: rest =>
        let ((tail, _), rest) := readGroups (8 - (head.length + 1)) 0 rest
        let zeros := List.replicate (8 - head.length - tail.length) 0
        some (Ipv6Addr.ofSegments (head ++ zeros ++ tail), rest)
    | _ => none

/-- `FromStr`: the whole text is one address. -/
def parse (text : Text) : Option IpAddr :=
  match readIpv4Addr text with
  | some (address, rest) => if rest.isEmpty then some (.v4 address) else none
  | none =>
      match readIpv6Addr text with
      | some (address, rest) =>
          if rest.isEmpty then some (.v6 address) else none
      | none => none

/-- The number of bits of an address. -/
def width : IpAddr → Nat
  | .v4 _ => 32
  | .v6 _ => 128

/-- Both addresses are of one version and agree in their leading bits. -/
def InNetwork (address network : IpAddr) (bits : Nat) : Prop :=
  match address, network with
  | .v4 address, .v4 network =>
      address.toNat / 2 ^ (32 - bits) = network.toNat / 2 ^ (32 - bits)
  | .v6 address, .v6 network =>
      address.toNat / 2 ^ (128 - bits) = network.toNat / 2 ^ (128 - bits)
  | _, _ => False

end IpAddr

/-- Two words agree under a mask of their high bits exactly when they agree
without their low bits. -/
theorem and_allOnes_shiftLeft {width : Nat} (left right : BitVec width)
    (low : Nat) :
    left &&& BitVec.allOnes width <<< low =
        right &&& BitVec.allOnes width <<< low ↔
      left.toNat / 2 ^ low = right.toNat / 2 ^ low := by
  have masked (word : BitVec width) :
      word &&& BitVec.allOnes width <<< low = (word >>> low) <<< low := by
    ext index
    grind
  have shifted (word : BitVec width) :
      ((word >>> low) <<< low) >>> low = word >>> low := by
    ext index
    grind
  rw [masked, masked]
  constructor
  · intro same
    have high : left >>> low = right >>> low := by
      rw [← shifted left, ← shifted right, same]
    simpa [BitVec.toNat_ushiftRight, Nat.shiftRight_eq_div_pow] using
      congrArg BitVec.toNat high
  · intro same
    have high : left >>> low = right >>> low := by
      apply BitVec.eq_of_toNat_eq
      simpa [BitVec.toNat_ushiftRight, Nat.shiftRight_eq_div_pow] using same
    rw [high]

end FireCrow.Library
