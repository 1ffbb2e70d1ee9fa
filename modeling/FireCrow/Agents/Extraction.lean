import FireCrow.Agents.Archive
import FireCrow.Library.Stateful

/-!
# Extraction

An archive is read as it is inflated, one header and its body after the other.
Bodies are streamed in chunks, each charged against the budget of the archive.
When the job is cancelled, how much a read yields and which calls the operating
system refuses is up to the environment.
-/

namespace FireCrow.Agents.Fetch

open FireCrow.Library

/-! ## Files -/

/-- What a path names.  A link is not followed; it is known whether it leads to
a directory. -/
inductive Node where
  | directory
  | file (content : Bytes)
  | link (toDirectory : Bool)
deriving DecidableEq

def Node.isDir : Node → Bool
  | .directory => true
  | .file _ => false
  | .link toDirectory => toDirectory

abbrev FileSystem := Path → Option Node

def FileSystem.set (files : FileSystem) (path : Path) (node : Option Node) :
    FileSystem :=
  fun other => if other = path then node else files other

/-! ## State -/

/-- What is left to inflate, and the failure of the decoder behind it. -/
structure Stream where
  bytes : Bytes
  fault : Option Text

structure World where
  stream : Stream
  files : FileSystem
  /-- What has been created, written or removed. -/
  changed : List Path
  pendingName : Option Text
  fileCount : Nat
  total : Nat
  clock : Nat

/-- What the surroundings answer, by the number of questions before. -/
structure Environment where
  cancelled : Nat → Bool
  offers : Nat → Nat
  refuses : Nat → Option Text

inductive Stop where
  | failed (error : AppError)
  | unfinished
deriving DecidableEq

abbrev Extraction := EStateM Stop World

def refuse {Value : Type} (error : AppError) : Extraction Value :=
  throw (.failed error)

def lift {Value : Type} : Except AppError Value → Extraction Value
  | .ok value => pure value
  | .error error => refuse error

/-- Refuse what is over a limit. -/
def limitTo (limit amount : Nat) : Extraction Unit :=
  if limit < amount then refuse .payloadTooLarge else pure ()

def World.inflated (world : World) (bytes : Bytes) : World :=
  { world with stream := { world.stream with bytes := bytes } }

/-- The number of the next question. -/
def tick : Extraction Nat := do
  let world ← get
  set { world with clock := world.clock + 1 }
  return world.clock

def pollCancel (env : Environment) : Extraction Unit := do
  if env.cancelled (← tick) then
    refuse (.cancelled "extract cancelled")

/-! ## Reading -/

/-- Where the bytes end, the decoder has failed or the archive is cut. -/
def endOfStream (stream : Stream) : AppError :=
  match stream.fault with
  | some message =>
      .internal (("gzip decode failed: " : Text) ++ message)
  | none => .internal "truncated tar archive"

/-- One block, or nothing at a clean end. -/
def fillBlock : Extraction (Option Bytes) := do
  let world ← get
  let bytes := world.stream.bytes
  if 512 ≤ bytes.length then
    set (world.inflated (bytes.drop 512))
    return some (bytes.take 512)
  else if bytes.isEmpty && world.stream.fault.isNone then
    return none
  else
    set (world.inflated [])
    refuse (endOfStream world.stream)

/-- Some of the wanted bytes, at least one unless they have ended. -/
def read (env : Environment) (want : Nat) : Extraction Bytes := do
  let offered := env.offers (← tick)
  let world ← get
  let bytes := world.stream.bytes
  if bytes.isEmpty then
    refuse (endOfStream world.stream)
  else
    let count := min (max 1 offered) want
    set (world.inflated (bytes.drop count))
    return bytes.take count

def saturatingAdd (left right : Nat) : Nat := min (left + right) (2 ^ 64 - 1)

def charge (count : Nat) : Extraction Unit := do
  modify fun world =>
    { world with total := saturatingAdd world.total count }
  limitTo maxTotalBytes (← get).total

def streamLoop (env : Environment) (write : Bytes → Extraction Unit) :
    Nat → Nat → Extraction Bytes
  | _, 0 => return []
  | 0, _ + 1 => throw .unfinished
  | fuel + 1, remaining + 1 => do
      pollCancel env
      let chunk ← read env (min (remaining + 1) streamChunkBytes)
      write chunk
      charge chunk.length
      let rest ← streamLoop env write fuel (remaining + 1 - chunk.length)
      return chunk ++ rest

/-- Exactly as many bytes as a header says.  Every chunk has a byte, so there
are no more chunks than bytes. -/
def streamExact (env : Environment) (write : Bytes → Extraction Unit)
    (size : Nat) : Extraction Bytes :=
  streamLoop env write size size

def readMetaBody (env : Environment) (size : Nat) : Extraction Bytes := do
  limitTo maxMetaBytes size
  streamExact env (fun _ => pure ()) size

def discardExact (env : Environment) (size : Nat) : Extraction Unit := do
  let _ ← streamExact env (fun _ => pure ()) size

def discardPadding (padding : Nat) : Extraction Unit := do
  let world ← get
  set (world.inflated (world.stream.bytes.drop padding))
  if world.stream.bytes.length < padding then
    refuse (endOfStream world.stream)

/-! ## Writing -/

def World.put (world : World) (path : Path) (node : Option Node) : World :=
  { world with
    files := world.files.set path node
    changed := world.changed ++ [path] }

/-- Ask the operating system to change what a path names. -/
def callOs (env : Environment) (message : Text) (path : Path)
    (node : Option Node) : Extraction Unit := do
  match env.refuses (← tick) with
  | some reason => refuse (.internal (message ++ reason))
  | none => modify fun world => world.put path node

def createDir (env : Environment) (path : Path) : Extraction Unit := do
  match (← get).files path with
  | none =>
      callOs env ("failed to create directory: " : Text) path
        (some .directory)
  | some node =>
      if !node.isDir then
        refuse (.internal ("failed to create directory: File exists" : Text))

/-- The missing directories on the way to a path, and the path itself. -/
def createDirsFrom (env : Environment) : Path → Path → Extraction Unit
  | _, [] => return ()
  | parent, name :: rest => do
      createDir env (parent ++ [name])
      createDirsFrom env (parent ++ [name]) rest

def createDirAll (env : Environment) (path : Path) : Extraction Unit :=
  createDirsFrom env [] path

/-- A new or emptied file. -/
def createFile (env : Environment) (path : Path) : Extraction Unit := do
  match (← get).files path with
  | some .directory =>
      refuse (.internal ("failed to write file: Is a directory" : Text))
  | _ => callOs env ("failed to write file: " : Text) path (some (.file []))

def writeChunk (env : Environment) (path : Path) (chunk : Bytes) :
    Extraction Unit := do
  match (← get).files path with
  | some (.file content) =>
      callOs env ("failed to write file: " : Text) path
        (some (.file (content ++ chunk)))
  | _ => refuse (.internal ("failed to write file: " : Text))

/-- Removal, whose own failure is ignored. -/
def removeFile (env : Environment) (path : Path) : Extraction Unit := do
  if (env.refuses (← tick)).isNone then
    modify fun world => world.put path none

/-! ## Entries -/

def setPendingName (name : Option Text) : Extraction Unit :=
  modify fun world => { world with pendingName := name }

/-- The name of an entry; a name that was given to it is used up. -/
def takeName (header : Bytes) : Extraction Text := do
  let name := resolveName (← get).pendingName (rawName header)
    (namePrefix header)
  setPendingName none
  return name

/-- Files and directories count towards the limit of entries. -/
def countEntry : Extraction Unit := do
  modify fun world => { world with fileCount := world.fileCount + 1 }
  limitTo maxFileCount (← get).fileCount

def refuseLink (path : Path) : Extraction Unit := do
  match (← get).files path with
  | some (.link _) =>
      refuse (.internal
        "refusing to write through a symlink in the archive")
  | _ => return ()

def extractFile (env : Environment) (dest : Path) (header : Bytes)
    (size : Nat) : Extraction Unit := do
  let name ← takeName header
  limitTo maxFileBytes size
  charge size
  countEntry
  let path ← lift (safeJoin dest name)
  refuseLink path
  createDirAll env path.dropLast
  createFile env path
  tryCatch
    (do let _ ← streamExact env (writeChunk env path) size)
    -- A member that is cut short is removed again.
    (fun stop => do
      removeFile env path
      throw stop)

def extractDirectory (env : Environment) (dest : Path) (header : Bytes)
    (size : Nat) : Extraction Unit := do
  let name ← takeName header
  countEntry
  let path ← lift (safeJoin dest name)
  discardExact env size
  createDirAll env path

def extractBody (env : Environment) (dest : Path) (header : Bytes)
    (size : Nat) : Extraction Unit := do
  match typeFlag header with
  | .longName =>
      let body ← readMetaBody env size
      setPendingName (some (longName body))
  | .extended =>
      let body ← readMetaBody env size
      match paxPath body with
      | some path => setPendingName (some path)
      | none => return ()
  | .globalExtended => discardExact env size
  | .file => extractFile env dest header size
  | .directory => extractDirectory env dest header size
  | .link =>
      refuse (.internal
        "repository archive contains a link entry; refusing to extract")
  | .other =>
      discardExact env size
      setPendingName none

def extractEntry (env : Environment) (dest : Path) (header : Bytes) :
    Extraction Unit := do
  let size ← lift (size header)
  extractBody env dest header size
  discardPadding (pad size)

def extractLoop (env : Environment) (dest : Path) : Nat → Extraction Unit
  | 0 => throw .unfinished
  | fuel + 1 => do
      pollCancel env
      match ← fillBlock with
      | none => return ()
      | some header =>
          if header.all fun byte => byte = 0 then return ()
          else
            extractEntry env dest header
            extractLoop env dest fuel

def World.start (stream : Stream) (files : FileSystem) : World where
  stream := stream
  files := files
  changed := []
  pendingName := none
  fileCount := 0
  total := 0
  clock := 0

/-- Extract an archive: every turn takes a block, so there are no more turns
than bytes, and one. -/
def extractTarballWithCancel (env : Environment) (dest : Path)
    (stream : Stream) (files : FileSystem) : EStateM.Result Stop World Unit :=
  (extractLoop env dest (stream.bytes.length + 1)).run
    (World.start stream files)

end FireCrow.Agents.Fetch
