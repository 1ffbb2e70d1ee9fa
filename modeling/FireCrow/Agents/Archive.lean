import FireCrow.Library.IpAddr
import FireCrow.Library.Utf8

/-!
# Archives

A header of 512 bytes names an entry, gives the size of its body and says of
what kind it is.  The name of an entry is joined to the destination by its
components, and none of them leads upwards or to a root.
-/

namespace FireCrow.Agents.Fetch

open FireCrow.Library

def maxTotalBytes : Nat := 150 * 1024 * 1024
def maxFileBytes : Nat := 20 * 1024 * 1024
def maxFileCount : Nat := 20000
def maxPathChars : Nat := 1024
def maxComponentChars : Nat := 255
def streamChunkBytes : Nat := 64 * 1024
def maxMetaBytes : Nat := 64 * 1024

inductive AppError where
  | internal (message : Text)
  | payloadTooLarge
  | cancelled (message : Text)
deriving DecidableEq

/-! ## Header fields -/

def field (header : Bytes) (start stop : Nat) : Bytes :=
  (header.drop start).take (stop - start)

/-- The text of a field up to its first zero byte. -/
def cstr (bytes : Bytes) : Text :=
  (Bytes.fromUtf8Lossy (bytes.takeWhile fun byte => byte ≠ 0)).trim

/-- A number in octal digits, or in base 256 where the first bit says so. -/
def parseOctal (bytes : Bytes) : Except AppError Nat :=
  match bytes with
  | [] => .ok 0
  | first :: rest =>
      if 128 ≤ first.toNat then
        .ok (rest.foldl
          (fun value byte => value * 256 % 2 ^ 64 + byte.toNat) 0)
      else if (cstr (first :: rest)).isEmpty then .ok 0
      else
        match Text.parseUnsigned 8 (2 ^ 64) (cstr (first :: rest)) with
        | some value => .ok value
        | none => .error (.internal "invalid octal field in tar header")

inductive TypeFlag where
  | longName
  | extended
  | globalExtended
  | file
  | directory
  | link
  | other
deriving DecidableEq

def typeFlag (header : Bytes) : TypeFlag :=
  let byte := Char.ofNat (header.getD 156 0).toNat
  if byte = 'L' then .longName
  else if byte = 'x' then .extended
  else if byte = 'g' then .globalExtended
  else if byte = '0' || byte = '\x00' || byte = '7' then .file
  else if byte = '5' then .directory
  else if byte = '1' || byte = '2' then .link
  else .other

def rawName (header : Bytes) : Text := cstr (field header 0 100)

def size (header : Bytes) : Except AppError Nat :=
  parseOctal (field header 124 136)

def namePrefix (header : Bytes) : Text := cstr (field header 345 500)

/-- The bytes that fill the last block of a body. -/
def pad (size : Nat) : Nat := (512 - size % 512) % 512

/-! ## Names -/

/-- The name that a GNU header gives to the next entry. -/
def longName (body : Bytes) : Text :=
  (Bytes.fromUtf8Lossy body).rdropWhile fun character => character = '\x00'

/-- The value of a `path` record. -/
def pathRecord (line : Text) : Option Text :=
  (Text.splitOnce ' ' line).bind fun parts =>
    Text.stripPrefix parts.2 "path="

def paxPath (body : Bytes) : Option Text :=
  ((Bytes.fromUtf8Lossy body).splitOn '\n').findSome? pathRecord

def resolveName (pending : Option Text) (raw namePrefix : Text) : Text :=
  match pending with
  | some name => name
  | none =>
      if namePrefix.isEmpty then raw else namePrefix ++ '/' :: raw

inductive Component where
  | rootDir
  | curDir
  | parentDir
  | normal (name : Text)
deriving DecidableEq

/-- A part between two slashes; an empty one and `.` are passed over. -/
def component (part : Text) : Option Component :=
  if part = [] ∨ part = ['.'] then none
  else if part = ['.', '.'] then some .parentDir
  else some (.normal part)

/-- The components of a path.  Only at its start a `.` is one. -/
def components (path : Text) : List Component :=
  let parts := path.splitOn '/'
  let first :=
    if path.head? = some '/' then [.rootDir]
    else if parts.head? = some ['.'] then [.curDir]
    else []
  first ++ parts.filterMap component

abbrev Path := List Text

def trimCurrent : Text → Text
  | '.' :: '/' :: name => trimCurrent name
  | name => name

/-- Append the components of a name to a path. -/
def pushComponents (name : Text) :
    Path → List Component → Except AppError Path
  | out, [] => .ok out
  | out, .normal part :: rest =>
      if maxComponentChars < part.byteLen then .error .payloadTooLarge
      else pushComponents name (out ++ [part]) rest
  | out, .curDir :: rest => pushComponents name out rest
  | _, .parentDir :: _ | _, .rootDir :: _ =>
      .error (.internal
        (("tar entry escapes the extraction root: " : Text) ++ name))

/-- The path of an entry below the destination. -/
def safeJoin (dest : Path) (fullName : Text) : Except AppError Path := do
  let name := trimCurrent fullName
  if name.isEmpty then
    throw (.internal "tar entry has an empty name")
  if maxPathChars < name.length then
    throw .payloadTooLarge
  let out ← pushComponents name dest (components name)
  if ¬ dest <+: out then
    throw (.internal
      (("tar entry escapes the extraction root: " : Text) ++ name))
  return out

end FireCrow.Agents.Fetch
